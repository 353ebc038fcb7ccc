/-
The list of SMS recipients (`recipients`, internal/config/config.go).

The list is separated by commas and semicolons; what is empty and the
extension 1001 are passed over, and everything else has to be a number of
at most 32 digits. The set `seen` of the source is what is in the result.
-/
import Callbridge.Message.BMessage

namespace Callbridge.Config

open Lib Message

/-- `strings.FieldsFunc`, for separators that are bytes. -/
def fieldsFunc (separates : UInt8 → Bool) (s : Bytes) : List Bytes :=
  (s.splitOnP separates).filter fun field => field != []

inductive RecipientError where
  | invalid
  deriving DecidableEq

def RecipientError.text : RecipientError → String
  | .invalid => "invalid SMS recipient"

/-- The loop of `recipients`. A rune that is no ASCII character is no
digit either, so the bytes decide. -/
def recipientsFrom (result : List Bytes) :
    List Bytes → Except RecipientError (List Bytes)
  | [] => .ok result
  | field :: fields =>
      let value := trimSpace field
      if value = [] ∨ value = ascii "1001" then recipientsFrom result fields
      else if 32 < value.length then .error .invalid
      else if value.all isDigit = false then .error .invalid
      else if value ∈ result then recipientsFrom result fields
      else recipientsFrom (result ++ [value]) fields

def recipients (raw : Bytes) : Except RecipientError (List Bytes) :=
  recipientsFrom [] (fieldsFunc (fun b => b == 0x2c || b == 0x3b) raw)

/-- A number of at most 32 digits. -/
structure Dialable (recipient : Bytes) : Prop where
  nonempty : recipient ≠ []
  length : recipient.length ≤ 32
  digits : recipient.all isDigit = true

/-- Every recipient that is read can be dialled. -/
theorem dialable_recipientsFrom {result fields out : List Bytes}
    (h : recipientsFrom result fields = .ok out)
    (hresult : ∀ r ∈ result, Dialable r) : ∀ r ∈ out, Dialable r := by
  induction fields generalizing result with
  | nil =>
    cases h
    exact hresult
  | cons field fields ih =>
    simp only [recipientsFrom] at h
    split at h
    · exact ih h hresult
    case isFalse hkept =>
      split at h
      · cases h
      split at h
      · cases h
      split at h
      · exact ih h hresult
      case isFalse.isFalse.isFalse hlength hdigits hnew =>
        refine ih h ?_
        intro r hr
        rcases List.mem_append.mp hr with hr | hr
        · exact hresult r hr
        · rw [List.mem_singleton.mp hr]
          rw [not_or] at hkept
          exact ⟨hkept.1, Nat.not_lt.mp hlength,
            Bool.not_eq_false _ ▸ hdigits⟩

/-- Every recipient of an accepted list is one. -/
theorem dialable_recipients {raw : Bytes} {out : List Bytes}
    (h : recipients raw = .ok out) : ∀ r ∈ out, Dialable r :=
  dialable_recipientsFrom h (by simp)

end Callbridge.Config
