/-
UTF-16 the way Go's `unicode/utf16` writes and reads it: a character of
the basic plane is one unit, any other a pair of surrogates, and a unit
that is half of no pair reads as the replacement character.

Writing loses nothing, so reading back what was written gives the
characters again (`utf16Decode_encode`). How many units a text takes is
between one and two for each of its characters.
-/
import Mathlib.Algebra.GroupWithZero.Nat
import Mathlib.Data.UInt
import Callbridge.Lib.Utf8

namespace Callbridge.Lib

/-- The units of one character, as numbers. -/
def utf16Units (c : Char) : List Nat :=
  if c.toNat < 0x10000 then [c.toNat]
  else
    [0xd800 + (c.toNat - 0x10000) / 0x400,
      0xdc00 + (c.toNat - 0x10000) % 0x400]

/-- `utf16.Encode`. -/
def utf16Encode (cs : List Char) : List UInt16 :=
  cs.flatMap fun c => (utf16Units c).map UInt16.ofNat

/-- The character of a unit that stands alone. -/
def soleUnit (u : Nat) : Char :=
  if 0xd800 ≤ u ∧ u < 0xe000 then runeError else Char.ofNat u

/-- `utf16.Decode`. -/
def utf16Decode : List UInt16 → List Char
  | [] => []
  | [u] => [soleUnit u.toNat]
  | u :: v :: rest =>
      if 0xd800 ≤ u.toNat ∧ u.toNat < 0xdc00
          ∧ 0xdc00 ≤ v.toNat ∧ v.toNat < 0xe000 then
        Char.ofNat (0x10000 + (u.toNat - 0xd800) * 0x400
            + (v.toNat - 0xdc00))
          :: utf16Decode rest
      else soleUnit u.toNat :: utf16Decode (v :: rest)

-- == writing

@[simp] theorem utf16Encode_nil : utf16Encode [] = [] := rfl

@[simp] theorem utf16Encode_cons (c : Char) (cs : List Char) :
    utf16Encode (c :: cs)
      = (utf16Units c).map UInt16.ofNat ++ utf16Encode cs := by
  simp [utf16Encode]

theorem utf16Encode_append (cs ds : List Char) :
    utf16Encode (cs ++ ds) = utf16Encode cs ++ utf16Encode ds := by
  simp [utf16Encode]

/-- No character lies among the surrogates or past the last plane. -/
theorem char_range (c : Char) :
    c.toNat < 0xd800 ∨ 0xe000 ≤ c.toNat ∧ c.toNat < 0x110000 := by
  have hvalid : c.toNat.isValidChar := c.valid
  rcases hvalid with h | ⟨hlow, hhigh⟩
  · exact Or.inl h
  · exact Or.inr ⟨by omega, hhigh⟩

theorem length_utf16Units_le (c : Char) : (utf16Units c).length ≤ 2 := by
  unfold utf16Units
  split <;> simp

-- == reading

/-- A unit outside the surrogates is read by itself, whatever follows. -/
theorem utf16Decode_sole {u : UInt16} (rest : List UInt16)
    (h : u.toNat < 0xd800 ∨ 0xe000 ≤ u.toNat) :
    utf16Decode (u :: rest) = Char.ofNat u.toNat :: utf16Decode rest := by
  have hsole : soleUnit u.toNat = Char.ofNat u.toNat := by
    unfold soleUnit
    rw [if_neg (by omega)]
  cases rest with
  | nil => simp only [utf16Decode, hsole]
  | cons v rest => rw [utf16Decode, if_neg (by omega), hsole]

/-- One character, read back before the rest. -/
theorem utf16Decode_units (c : Char) (rest : List UInt16) :
    utf16Decode ((utf16Units c).map UInt16.ofNat ++ rest)
      = c :: utf16Decode rest := by
  have hrange := char_range c
  by_cases hplane : c.toNat < 0x10000
  · have hunit : (UInt16.ofNat c.toNat).toNat = c.toNat := by
      rw [UInt16.toNat_ofNat']
      omega
    rw [utf16Units, if_pos hplane, List.map_singleton,
      List.singleton_append, utf16Decode_sole rest (by omega), hunit,
      Char.ofNat_toNat]
  · have hhigh : (UInt16.ofNat
        (0xd800 + (c.toNat - 0x10000) / 0x400)).toNat
          = 0xd800 + (c.toNat - 0x10000) / 0x400 := by
      rw [UInt16.toNat_ofNat']
      omega
    have hlow : (UInt16.ofNat
        (0xdc00 + (c.toNat - 0x10000) % 0x400)).toNat
          = 0xdc00 + (c.toNat - 0x10000) % 0x400 := by
      rw [UInt16.toNat_ofNat']
      omega
    have hchar : 0x10000
        + (0xd800 + (c.toNat - 0x10000) / 0x400 - 0xd800) * 0x400
        + (0xdc00 + (c.toNat - 0x10000) % 0x400 - 0xdc00) = c.toNat := by
      omega
    rw [utf16Units, if_neg hplane]
    simp only [List.map_cons, List.map_nil, List.cons_append,
      List.nil_append]
    rw [utf16Decode, hhigh, hlow, if_pos (by omega), hchar,
      Char.ofNat_toNat]

theorem utf16Decode_encode (cs : List Char) :
    utf16Decode (utf16Encode cs) = cs := by
  induction cs with
  | nil => rfl
  | cons c cs ih => rw [utf16Encode_cons, utf16Decode_units, ih]

end Callbridge.Lib
