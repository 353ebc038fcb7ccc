/-
Destinations between the two packages that check them.

`NormalizeDestination` counts the digits before it writes a Korean mobile
number in its international form, which has one digit more. So a number of
twenty digits that starts with 010 leaves with twenty-one, which the store
refuses. No other destination is affected (`destination_storable_iff`).
-/
import Callbridge.Message.BMessage
import Callbridge.State.Store

namespace Callbridge.Bridge

open Lib State Message

variable {value n d digits : Bytes} {position : Nat}

-- == the digits

/-- Three to twenty digits. -/
structure Digits (digits : Bytes) : Prop where
  all : digits.all isDigit = true
  least : 3 ≤ digits.length
  most : digits.length ≤ 20

/-- An optional plus sign and three to twenty digits. -/
def Storable (d : Bytes) : Prop :=
  ∃ digits, Digits digits ∧ (d = digits ∨ d = 0x2b :: digits)

/-- The digits of a number, without the separators between them. -/
def digitsOf (value : Bytes) : Bytes := (trimSpace value).filter isDigit

/-- Twenty digits that start with 010, and no plus sign. -/
structure TwentyDigitMobile (value : Bytes) : Prop where
  noPlus : 0x2b ∉ trimSpace value
  count : (digitsOf value).length = 20
  mobile : (ascii "010").isPrefixOf (digitsOf value) = true

theorem digitsOf_all : (digitsOf value).all isDigit = true :=
  List.all_eq_true.mpr fun _ hb => (List.mem_filter.mp hb).2

/-- Without a plus sign at the very front exactly the digits are kept, and
a plus sign further on is refused. -/
theorem dialled_digits {s : Bytes} (h : dialled position s = .ok n)
    (hfront : position = 0 → s.head? ≠ some 0x2b) :
    0x2b ∉ s ∧ n = s.filter isDigit := by
  induction s generalizing position n with
  | nil =>
    cases h
    exact ⟨List.not_mem_nil, rfl⟩
  | cons b s ih =>
    have hlater : position + 1 = 0 → s.head? ≠ some 0x2b := by simp
    have hnot : ¬ (b = 0x2b ∧ position = 0) := fun hb =>
      hfront hb.2 (by rw [hb.1]; rfl)
    rw [dialled] at h
    by_cases hdigit : isDigit b = true
    · rw [if_pos (Or.inl hdigit)] at h
      cases hrest : dialled (position + 1) s with
      | error e =>
        rw [hrest] at h
        cases h
      | ok rest =>
        rw [hrest] at h
        cases h
        obtain ⟨hplus, rfl⟩ := ih hrest hlater
        refine ⟨?_, (List.filter_cons_of_pos hdigit).symm⟩
        rw [List.mem_cons, not_or]
        refine ⟨?_, hplus⟩
        rintro rfl
        cases hdigit
    · rw [if_neg (not_or.mpr ⟨hdigit, hnot⟩)] at h
      split at h
      case isTrue hseparator =>
        obtain ⟨hplus, rfl⟩ := ih h hlater
        refine ⟨?_, (List.filter_cons_of_neg hdigit).symm⟩
        rw [List.mem_cons, not_or]
        refine ⟨?_, hplus⟩
        rintro rfl
        exact absurd hseparator (by decide)
      case isFalse => cases h

/-- What is kept is the digits, and in front of them the plus sign if there
is one. -/
theorem dialled_cases {s : Bytes} (h : dialled 0 s = .ok n) :
    (0x2b ∉ s ∧ n = s.filter isDigit)
      ∨ (0x2b ∈ s ∧ n = 0x2b :: s.filter isDigit) := by
  cases s with
  | nil =>
    cases h
    exact Or.inl ⟨List.not_mem_nil, rfl⟩
  | cons b s =>
    by_cases hb : b = 0x2b
    · -- the only place where the loop keeps a plus sign
      subst hb
      rw [dialled, if_pos (Or.inr ⟨rfl, rfl⟩)] at h
      cases hrest : dialled (0 + 1) s with
      | error e =>
        rw [hrest] at h
        cases h
      | ok rest =>
        rw [hrest] at h
        cases h
        obtain ⟨-, rfl⟩ := dialled_digits hrest (by simp)
        exact Or.inr ⟨List.mem_cons_self, rfl⟩
    · left
      apply dialled_digits h
      simpa using hb

theorem not_plus_of_digits (h : n.all isDigit = true) :
    [0x2b].isPrefixOf n = false := by
  cases n with
  | nil => rfl
  | cons b n =>
    rw [List.all_cons, Bool.and_eq_true] at h
    by_cases hb : b = 0x2b
    · rw [hb] at h
      cases h.1
    · have hne : ((0x2b : UInt8) == b) = false :=
        beq_eq_false_iff_ne.mpr (Ne.symm hb)
      simp [List.isPrefixOf, hne]

-- == normalised once

/-- The three ways a destination is accepted. -/
inductive Normalizes (value : Bytes) : Bytes → Prop
  | mobile : 0x2b ∉ trimSpace value → Digits (digitsOf value) →
      (ascii "010").isPrefixOf (digitsOf value) = true →
      Normalizes value (ascii "+82" ++ (digitsOf value).drop 1)
  | plain : Digits (digitsOf value) →
      (ascii "010").isPrefixOf (digitsOf value) = false →
      Normalizes value (digitsOf value)
  | plus : 0x2b ∈ trimSpace value → Digits (digitsOf value) →
      Normalizes value (0x2b :: digitsOf value)

theorem normalizeDestination_plain (h : dialled 0 (trimSpace value) = .ok n)
    (hall : n.all isDigit = true) :
    normalizeDestination value
      = if n.length < 3 ∨ 20 < n.length then .error .length
        else if (ascii "010").isPrefixOf n then
          .ok (ascii "+82" ++ n.drop 1)
        else .ok n := by
  have hplus := not_plus_of_digits hall
  simp [normalizeDestination, h, hplus]

theorem normalizeDestination_plus
    (h : dialled 0 (trimSpace value) = .ok (0x2b :: digits)) :
    normalizeDestination value
      = if digits.length < 3 ∨ 20 < digits.length then .error .length
        else .ok (0x2b :: digits) := by
  simp [normalizeDestination, h]

/-- What is accepted comes out in one of three ways. -/
theorem Normalizes.of_ok (h : normalizeDestination value = .ok d) :
    Normalizes value d := by
  cases hdial : dialled 0 (trimSpace value) with
  | error e =>
    rw [normalizeDestination, hdial] at h
    cases h
  | ok n =>
    have hall : (digitsOf value).all isDigit = true := digitsOf_all
    rcases dialled_cases hdial with ⟨hnoplus, hn⟩ | ⟨hplus, hn⟩
    · obtain rfl : n = digitsOf value := hn
      rw [normalizeDestination_plain hdial hall] at h
      split at h
      case isTrue => cases h
      case isFalse hlen =>
        have hdigits : Digits (digitsOf value) :=
          ⟨hall, by omega, by omega⟩
        split at h
        case isTrue hmobile =>
          cases h
          exact .mobile hnoplus hdigits hmobile
        case isFalse hother =>
          cases h
          exact .plain hdigits (Bool.not_eq_true _ ▸ hother)
    · obtain rfl : n = 0x2b :: digitsOf value := hn
      rw [normalizeDestination_plus hdial] at h
      split at h
      case isTrue => cases h
      case isFalse hlen =>
        cases h
        exact .plus hplus ⟨hall, by omega, by omega⟩

-- == normalised again

theorem dialled_of_digits (h : digits.all isDigit = true)
    (position : Nat) : dialled position digits = .ok digits := by
  induction digits generalizing position with
  | nil => rfl
  | cons b digits ih =>
    rw [List.all_cons, Bool.and_eq_true] at h
    rw [dialled, if_pos (Or.inl h.1), ih h.2]
    rfl

theorem dialled_plus (h : digits.all isDigit = true) :
    dialled 0 (0x2b :: digits) = .ok (0x2b :: digits) := by
  rw [dialled, if_pos (Or.inr ⟨rfl, rfl⟩), dialled_of_digits h]
  rfl

theorem trimSpace_digits (h : digits.all isDigit = true) :
    trimSpace digits = digits :=
  trimSpace_visible fun b hb =>
    visible_of_digit (List.all_eq_true.mp h b hb)

theorem trimSpace_plus (h : digits.all isDigit = true) :
    trimSpace (0x2b :: digits) = 0x2b :: digits := by
  refine trimSpace_visible fun b hb => ?_
  rcases List.mem_cons.mp hb with rfl | hb
  · decide
  · exact visible_of_digit (List.all_eq_true.mp h b hb)

theorem normalizeDestination_again_plus (h : Digits digits) :
    normalizeDestination (0x2b :: digits) = .ok (0x2b :: digits) := by
  have hdial : dialled 0 (trimSpace (0x2b :: digits))
      = .ok (0x2b :: digits) := by
    rw [trimSpace_plus h.all, dialled_plus h.all]
  have hleast := h.least
  have hmost := h.most
  rw [normalizeDestination_plus hdial, if_neg (by omega)]

theorem normalizeDestination_again_plain (h : Digits digits)
    (hother : (ascii "010").isPrefixOf digits = false) :
    normalizeDestination digits = .ok digits := by
  have hdial : dialled 0 (trimSpace digits) = .ok digits := by
    rw [trimSpace_digits h.all, dialled_of_digits h.all]
  have hleast := h.least
  have hmost := h.most
  rw [normalizeDestination_plain hdial h.all, if_neg (by omega), hother]
  rfl

-- == the store

/-- Without a plus sign in front `TrimPrefix` removes nothing. -/
theorem trimPlus_of_digits (h : digits.all isDigit = true) :
    trimPlus digits = digits := by
  have hplus := not_plus_of_digits h
  unfold trimPlus
  split
  · cases hplus
  · rfl

/-- An accepted item is accepted with any storable destination. -/
theorem Storable.validOutbound (h : Storable d) {item : Outbound}
    (hitem : validOutbound item = true) :
    validOutbound { item with destination := d } = true := by
  obtain ⟨digits, hdigits, hd⟩ := h
  have htrim : trimPlus d = digits := by
    rcases hd with rfl | rfl
    · exact trimPlus_of_digits hdigits.all
    · rfl
  have hform : (d == digits || d == 0x2b :: digits) = true := by
    rcases hd with rfl | rfl <;> simp
  have hleast := hdigits.least
  have hmost := hdigits.most
  have hall : digits.all isDigit = true := hdigits.all
  simp only [State.validOutbound, Bool.and_eq_true, decide_eq_true_eq]
    at hitem ⊢
  obtain ⟨⟨⟨⟨hmeta, -⟩, -⟩, -⟩, -⟩ := hitem
  rw [htrim]
  exact ⟨⟨⟨⟨hmeta, hleast⟩, hmost⟩, hall⟩, hform⟩

/-- Twenty-one digits are too many, with the plus sign or without. -/
theorem Storable.length_le (h : Storable d) : d.length ≤ 21 := by
  obtain ⟨digits, hdigits, rfl | rfl⟩ := h
  · exact Nat.le_succ_of_le hdigits.most
  · exact Nat.succ_le_succ hdigits.most

/-- Fewer than twenty digits have room for the country code. -/
theorem Digits.international (h : Digits digits)
    (hshort : digits.length ≠ 20) :
    Digits ([0x38, 0x32] ++ digits.drop 1) := by
  have hleast := h.least
  have hmost := h.most
  refine ⟨?_, ?_, ?_⟩
  · rw [List.all_append, Bool.and_eq_true]
    refine ⟨by decide, List.all_eq_true.mpr fun b hb => ?_⟩
    exact List.all_eq_true.mp h.all b (List.mem_of_mem_drop hb)
  · simp only [List.length_append, List.length_drop, List.length_cons,
      List.length_nil]
    omega
  · simp only [List.length_append, List.length_drop, List.length_cons,
      List.length_nil]
    omega

-- == the theorem

/-- A destination that `NormalizeDestination` accepts leaves it as an
optional plus sign and three to twenty digits, which the store accepts in
an item and which is its own normal form, exactly if it is not a mobile
number of twenty digits without a plus sign. -/
theorem destination_storable_iff (h : normalizeDestination value = .ok d) :
    (Storable d
        ∧ (∀ item, validOutbound item = true →
          validOutbound { item with destination := d } = true)
        ∧ normalizeDestination d = .ok d)
      ↔ ¬ TwentyDigitMobile value := by
  constructor
  · intro hgood htwenty
    cases Normalizes.of_ok h with
    | mobile =>
      -- twenty digits less the zero, and two for the country code
      have hlong := hgood.1.length_le
      simp only [List.length_append, List.length_drop, htwenty.count]
        at hlong
      exact absurd hlong (by decide)
    | plain _ hother =>
      rw [htwenty.mobile] at hother
      cases hother
    | plus hplus => exact htwenty.noPlus hplus
  · intro hnot
    cases Normalizes.of_ok h with
    | mobile hnoplus hdigits hmobile =>
      have hshort : (digitsOf value).length ≠ 20 := fun hlen =>
        hnot ⟨hnoplus, hlen, hmobile⟩
      have hint := hdigits.international hshort
      have hstorable : Storable (ascii "+82" ++ (digitsOf value).drop 1) :=
        ⟨_, hint, Or.inr rfl⟩
      exact ⟨hstorable, fun _ => hstorable.validOutbound,
        normalizeDestination_again_plus hint⟩
    | plain hdigits hother =>
      have hstorable : Storable (digitsOf value) :=
        ⟨_, hdigits, Or.inl rfl⟩
      exact ⟨hstorable, fun _ => hstorable.validOutbound,
        normalizeDestination_again_plain hdigits hother⟩
    | plus _ hdigits =>
      have hstorable : Storable (0x2b :: digitsOf value) :=
        ⟨_, hdigits, Or.inr rfl⟩
      exact ⟨hstorable, fun _ => hstorable.validOutbound,
        normalizeDestination_again_plus hdigits⟩

/-- A mobile number as it is usually typed. -/
theorem destination_storable_typed :
    normalizeDestination (ascii " 010-1234-5678 ")
        = .ok (ascii "+821012345678")
      ∧ Storable (ascii "+821012345678") := by
  have h : normalizeDestination (ascii " 010-1234-5678 ")
      = .ok (ascii "+821012345678") := by decide +kernel
  refine ⟨h, ((destination_storable_iff h).mpr ?_).1⟩
  intro htwenty
  exact absurd htwenty.count (by decide +kernel)

/-- Twenty digits become twenty-one, which neither the store nor the
function itself accepts. -/
theorem destination_outgrows_store :
    normalizeDestination (ascii "01012345678901234567")
        = .ok (ascii "+821012345678901234567")
      ∧ ¬ Storable (ascii "+821012345678901234567")
      ∧ (∀ item : Outbound,
        item.destination = ascii "+821012345678901234567" →
        validOutbound item = false)
      ∧ normalizeDestination (ascii "+821012345678901234567")
        = .error .length := by
  refine ⟨by decide +kernel, ?_, ?_, by decide +kernel⟩
  · intro hstorable
    exact absurd hstorable.length_le (by decide)
  · intro item hitem
    have hlong : ¬ (trimPlus (ascii "+821012345678901234567")).length ≤ 20 :=
      by decide
    cases hvalid : validOutbound item with
    | false => rfl
    | true =>
      simp only [State.validOutbound, hitem, Bool.and_eq_true,
        decide_eq_true_eq] at hvalid
      exact absurd hvalid.1.1.2 hlong

end Callbridge.Bridge
