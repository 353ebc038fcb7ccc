/-
Names in UTF-16: what a name header holds reads back as the name, with
the replacement character where the name was not valid UTF-8, and how
long a name can be before its header no longer fits.
-/
import Callbridge.Obex.Proofs.HeaderCodec

namespace Callbridge.Obex

open Lib

/-- How many UTF-16 units a name takes. -/
def nameLength (name : Bytes) : Nat := (utf16Encode (runes name)).length

/-- The most units a name header has room for, besides the zero that ends
the name. -/
def maxNameLength : Nat := 32765

theorem nameValue_eq (name : Bytes) : nameValue name
    = (utf16Encode (runes name) ++ [0]).flatMap bePutUint16 := by
  rw [nameValue, runes_append_ascii (by decide), utf16Encode_append]
  rfl

theorem length_flatMap_put (units : List UInt16) :
    (units.flatMap bePutUint16).length = 2 * units.length := by
  induction units with
  | nil => rfl
  | cons u units ih =>
    rw [List.flatMap_cons, List.length_append, bePutUint16_length, ih,
      List.length_cons]
    omega

theorem length_nameValue (name : Bytes) :
    (nameValue name).length = 2 * nameLength name + 2 := by
  rw [nameValue_eq, length_flatMap_put, List.length_append, nameLength,
    List.length_singleton]
  omega

-- == reading back

theorem nameUnits_put (u : UInt16) (rest : Bytes) :
    nameUnits (bePutUint16 u ++ rest) = u :: nameUnits rest := by
  have hback := beUint16_put u
  have hlen := bePutUint16_length u
  generalize bePutUint16 u = field at hback hlen
  obtain ⟨b, c, rfl⟩ := List.length_eq_two.mp hlen
  rw [List.cons_append, List.cons_append, List.nil_append, nameUnits,
    hback]

theorem nameUnits_flatMap (units : List UInt16) :
    nameUnits (units.flatMap bePutUint16) = units := by
  induction units with
  | nil => rfl
  | cons u units ih => rw [List.flatMap_cons, nameUnits_put, ih]

/-- The receiver of a name header reads the name. -/
theorem decodeName_nameValue (name : Bytes) :
    decodeName (nameValue name) = .ok (toValidUTF8 name) := by
  have heven : ¬ (nameValue name).length % 2 ≠ 0 := by
    rw [length_nameValue]
    omega
  have hunits : nameUnits (nameValue name)
      = utf16Encode (runes name) ++ [0] := by
    rw [nameValue_eq, nameUnits_flatMap]
  simp only [decodeName]
  rw [if_neg heven, hunits, if_pos (by simp), List.dropLast_concat,
    utf16Decode_encode]
  rfl

-- == the size

theorem lengthKind_name : lengthKind 0x01 := by decide

theorem nameHeader_eq_none (name : Bytes) :
    nameHeader 0x01 name = none ↔ maxNameLength < nameLength name := by
  rw [nameHeader, mustHeader_eq_none lengthKind_name, length_nameValue,
    maxNameLength]
  omega

/-- A short name fits a header. -/
theorem nameHeader_eq_some {name : Bytes}
    (h : nameLength name ≤ maxNameLength) :
    ∃ enc, nameHeader 0x01 name = some enc
      ∧ enc.length = 2 * nameLength name + 5
      ∧ Encodes ⟨0x01, nameValue name⟩ enc := by
  have hfit : (nameValue name).length + 3 ≤ 0xffff := by
    unfold maxNameLength at h
    rw [length_nameValue]
    omega
  have hsome := mustHeader_length lengthKind_name hfit
  refine ⟨_, hsome, ?_, mustHeader_eq_some.mp hsome⟩
  simp [length_nameValue]
  omega

/-- A short name always fits. -/
theorem nameLength_le (name : Bytes) :
    nameLength name ≤ 2 * name.length := by
  have hrunes := length_runes_le name
  have hunits : ∀ cs : List Char, (utf16Encode cs).length ≤ 2 * cs.length := by
    intro cs
    induction cs with
    | nil => exact Nat.le_refl _
    | cons c cs ih =>
      have hc := length_utf16Units_le c
      rw [utf16Encode_cons, List.length_append, List.length_map,
        List.length_cons]
      omega
  have h := hunits (runes name)
  unfold nameLength
  omega

end Callbridge.Obex
