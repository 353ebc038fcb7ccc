/-
Byte strings with the operations of Go's `strings` package.

A Go string is a list of bytes here, valid UTF-8 or not. `trimSpace`
strips the characters Unicode calls white space, in their UTF-8 encodings,
from both ends, and stops at anything else. Every encoding starts with a
byte that no encoding continues with, so matching encodings at either end
is what decoding runes from that end finds.
-/
import Mathlib.Data.List.Basic

namespace Callbridge.Lib

variable {s : Bytes}

/-- A Go string or byte slice. -/
abbrev Bytes := List UInt8

/-- The bytes of an ASCII literal. -/
def ascii (s : String) : Bytes := s.toList.map Char.toUInt8

/-- The UTF-8 encodings of the characters `unicode.IsSpace` accepts. -/
def spaceEncodings : List Bytes :=
  [[0x09], [0x0a], [0x0b], [0x0c], [0x0d], [0x20],
   [0xc2, 0x85], [0xc2, 0xa0], [0xe1, 0x9a, 0x80],
   [0xe2, 0x80, 0x80], [0xe2, 0x80, 0x81], [0xe2, 0x80, 0x82],
   [0xe2, 0x80, 0x83], [0xe2, 0x80, 0x84], [0xe2, 0x80, 0x85],
   [0xe2, 0x80, 0x86], [0xe2, 0x80, 0x87], [0xe2, 0x80, 0x88],
   [0xe2, 0x80, 0x89], [0xe2, 0x80, 0x8a],
   [0xe2, 0x80, 0xa8], [0xe2, 0x80, 0xa9], [0xe2, 0x80, 0xaf],
   [0xe2, 0x81, 0x9f], [0xe3, 0x80, 0x80]]

/-- Drop encodings from the front, at most `fuel` of them; no encoding is
empty, so the length of the string is fuel enough. -/
def stripFront (encodings : List Bytes) : Nat → Bytes → Bytes
  | 0, s => s
  | fuel + 1, s =>
      match encodings.find? fun e => e.isPrefixOf s with
      | some e => stripFront encodings fuel (s.drop e.length)
      | none => s

/-- `strings.TrimSpace`. -/
def trimSpace (s : Bytes) : Bytes :=
  let t := stripFront spaceEncodings s.length s
  (stripFront (spaceEncodings.map List.reverse) t.length t.reverse).reverse

/-- What dropping one encoding keeps is kept. -/
theorem stripFront_keeps {P : Bytes → Prop} {encodings : List Bytes}
    (hdrop : ∀ e ∈ encodings, ∀ t, P (e ++ t) → P t) (fuel : Nat) (hs : P s) :
    P (stripFront encodings fuel s) := by
  induction fuel generalizing s with
  | zero => exact hs
  | succ fuel ih =>
    rw [stripFront]
    split
    case h_1 e hfind =>
      have hpre : e <+: s := by
        have hfound := List.find?_some hfind
        exact List.isPrefixOf_iff_prefix.mp hfound
      obtain ⟨t, rfl⟩ := hpre
      rw [List.drop_left]
      exact ih (hdrop e (List.mem_of_find?_eq_some hfind) t hs)
    case h_2 =>
      exact hs

/-- A byte that is a visible ASCII character. -/
def visible (b : UInt8) : Bool := 0x20 < b && b < 0x7f

def isDigit (b : UInt8) : Bool := 0x30 ≤ b && b ≤ 0x39

/-- A hexadecimal digit, in either case. -/
def isHexDigit (b : UInt8) : Bool :=
  isDigit b || (0x61 ≤ b && b ≤ 0x66) || (0x41 ≤ b && b ≤ 0x46)

/-- The number that a row of decimal digits stands for. -/
def decimal (digits : Bytes) : Nat :=
  digits.foldl (fun value b => value * 10 + (b.toNat - 48)) 0

/-- Digits stand among the visible characters. -/
theorem visible_of_digit {b : UInt8} (h : isDigit b = true) :
    visible b = true := by
  rw [isDigit, Bool.and_eq_true, decide_eq_true_eq, decide_eq_true_eq] at h
  rw [visible, Bool.and_eq_true, decide_eq_true_eq, decide_eq_true_eq]
  exact ⟨UInt8.lt_of_lt_of_le (by decide) h.1,
    UInt8.lt_of_le_of_lt h.2 (by decide)⟩

theorem ascii_of_visible {b : UInt8} (h : visible b = true) :
    b < 0x80 := by
  rw [visible, Bool.and_eq_true, decide_eq_true_eq, decide_eq_true_eq] at h
  exact UInt8.lt_trans h.2 (by decide)

/-- Nothing is dropped from a text of visible characters. -/
theorem stripFront_visible {encodings : List Bytes}
    (henc : ∀ e ∈ encodings, ∃ c ∈ e.head?, visible c = false)
    (hs : ∀ b ∈ s, visible b = true) (fuel : Nat) :
    stripFront encodings fuel s = s := by
  have hnone : encodings.find? (fun e => e.isPrefixOf s) = none := by
    rw [List.find?_eq_none]
    intro e he hpre
    obtain ⟨c, hc, hvis⟩ := henc e he
    have hmem : c ∈ s := by
      obtain ⟨rest, rfl⟩ := List.isPrefixOf_iff_prefix.mp hpre
      exact List.mem_append_left _ (List.mem_of_mem_head? hc)
    rw [hs c hmem] at hvis
    cases hvis
  cases fuel with
  | zero => rfl
  | succ fuel => simp only [stripFront, hnone]

theorem trimSpace_visible (hs : ∀ b ∈ s, visible b = true) :
    trimSpace s = s := by
  unfold trimSpace
  rw [stripFront_visible (by decide) hs]
  have hrev : ∀ b ∈ s.reverse, visible b = true := fun b hb =>
    hs b (List.mem_reverse.mp hb)
  show (stripFront _ _ s.reverse).reverse = s
  rw [stripFront_visible (by decide) hrev, List.reverse_reverse]

/-- `strings.TrimRight`, of a set with one byte. -/
def trimRightByte (b : UInt8) (s : Bytes) : Bytes :=
  (s.reverse.dropWhile (· == b)).reverse

/-- `strings.Trim`, of a set with one byte. -/
def trimByte (b : UInt8) (s : Bytes) : Bytes :=
  ((s.dropWhile (· == b)).reverse.dropWhile (· == b)).reverse

/-- `strings.Split`, at a separator of one byte. -/
def splitByte (b : UInt8) (s : Bytes) : List Bytes := s.splitOn b

/-- What follows the first byte equal to `b`, or the whole string when
there is none. -/
def afterByte (b : UInt8) (s : Bytes) : Bytes :=
  if b ∈ s then (s.dropWhile (· != b)).tail else s

/-- What precedes the first byte among `stops`. -/
def beforeAny (stops s : Bytes) : Bytes :=
  s.takeWhile fun b => !stops.contains b

/-- The case mappings of package strings, which rest on the tables of
Unicode. -/
structure CaseMapping where
  toUpper : Bytes → Bytes
  toLower : Bytes → Bytes
  equalFold : Bytes → Bytes → Bool

def lowerByte (b : UInt8) : UInt8 :=
  if 0x41 ≤ b ∧ b ≤ 0x5a then b + 0x20 else b

def upperByte (b : UInt8) : UInt8 :=
  if 0x61 ≤ b ∧ b ≤ 0x7a then b - 0x20 else b

/-- The mappings as they are on ASCII texts. -/
def asciiCase : CaseMapping where
  toUpper s := s.map upperByte
  toLower s := s.map lowerByte
  equalFold s t := s.map lowerByte == t.map lowerByte

end Callbridge.Lib
