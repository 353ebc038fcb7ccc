/-
The standard base64 encoding, as `base64.StdEncoding` writes it: groups of
three bytes as four characters, the last group padded.

What programs over line protocols need of it is that nothing but visible
characters comes out.
-/
import Mathlib.Data.List.GetD
import Callbridge.Lib.Strings

namespace Callbridge.Lib

def base64Alphabet : Bytes :=
  ascii "ABCDEFGHIJKLMNOPQRSTUVWXYZ" ++ ascii "abcdefghijklmnopqrstuvwxyz"
    ++ ascii "0123456789+/"

/-- The character of six bits. -/
def base64Char (v : Nat) : UInt8 := base64Alphabet.getD v 0x3d

def base64Encode : Bytes → Bytes
  | [] => []
  | [a] =>
      [base64Char (a.toNat / 4), base64Char (a.toNat % 4 * 16), 0x3d, 0x3d]
  | [a, b] =>
      [base64Char (a.toNat / 4),
       base64Char (a.toNat % 4 * 16 + b.toNat / 16),
       base64Char (b.toNat % 16 * 4), 0x3d]
  | a :: b :: c :: rest =>
      [base64Char (a.toNat / 4),
       base64Char (a.toNat % 4 * 16 + b.toNat / 16),
       base64Char (b.toNat % 16 * 4 + c.toNat / 64),
       base64Char (c.toNat % 64)] ++ base64Encode rest

theorem visible_base64Char (v : Nat) : visible (base64Char v) = true := by
  have hall : ∀ b ∈ base64Alphabet, visible b = true :=
    List.all_eq_true.mp (by decide)
  unfold base64Char
  by_cases hv : v < base64Alphabet.length
  · rw [List.getD_eq_getElem _ _ hv]
    exact hall _ (List.getElem_mem hv)
  · rw [List.getD_eq_default _ _ (Nat.not_lt.mp hv)]
    decide

/-- The encoding is printable. -/
theorem visible_base64Encode (s : Bytes) :
    ∀ b ∈ base64Encode s, visible b = true := by
  have hpad : visible 0x3d = true := by decide
  induction s using base64Encode.induct with
  | case1 => simp [base64Encode]
  | case2 a | case3 a b => simp [base64Encode, visible_base64Char, hpad]
  | case4 a b c rest ih =>
    intro x hx
    rw [base64Encode, List.mem_append] at hx
    rcases hx with hx | hx
    · revert x
      simp [visible_base64Char]
    · exact ih x hx

example : base64Encode (ascii "Man") = ascii "TWFu" := by decide
example : base64Encode (ascii "Ma") = ascii "TWE=" := by decide
example : base64Encode (ascii "M") = ascii "TQ==" := by decide

end Callbridge.Lib
