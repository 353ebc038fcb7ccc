/-
The length-type-value lists, read as what they encode.

`parseLTV` accepts the encodings of lists of entries whose types differ
and whose values are not empty, and nothing else; the map it returns is
the list. What is said of capabilities and configurations can then be said
of their entries, in whatever order they come and whatever else is among
them.
-/
import Callbridge.Bluez.Lc3

namespace Callbridge.Bluez

open Lib

variable {entries : List (UInt8 × Bytes)} {raw rest value : Bytes}
  {values out : GoMap UInt8 Bytes} {type : UInt8} {fuel : Nat}

-- == the entries

def encodeLTV : List (UInt8 × Bytes) → Bytes
  | [] => []
  | (type, value) :: rest =>
      UInt8.ofNat (value.length + 1) :: type :: (value ++ encodeLTV rest)

/-- A value that an entry can hold. -/
def Holdable (value : Bytes) : Prop :=
  0 < value.length ∧ value.length + 1 < 256

/-- A list of entries as a well-formed input has it. -/
structure Entries (entries : List (UInt8 × Bytes)) : Prop where
  holdable : ∀ e ∈ entries, Holdable e.2
  distinct : (entries.map Prod.fst).Nodup

/-- The map the entries are collected in. -/
def collect (values : GoMap UInt8 Bytes)
    (entries : List (UInt8 × Bytes)) : GoMap UInt8 Bytes :=
  entries.foldl (fun values e => values.insert e.1 e.2) values

/-- Of entries with distinct types each is found. -/
theorem lookup_collect (hd : (entries.map Prod.fst).Nodup) :
    ∀ {values : GoMap UInt8 Bytes},
      (collect values entries).lookup type = some value
        ↔ (type, value) ∈ entries
          ∨ type ∉ entries.map Prod.fst
            ∧ values.lookup type = some value := by
  induction entries with
  | nil => simp [collect]
  | cons e more ih =>
    intro values
    obtain ⟨t, v⟩ := e
    rw [List.map_cons, List.nodup_cons] at hd
    have hstep : collect values ((t, v) :: more)
        = collect (values.insert t v) more := rfl
    rw [hstep, ih hd.2, GoMap.lookup_insert]
    by_cases ht : type = t
    · subst ht
      have hout : (type, value) ∉ more := fun hin =>
        hd.1 (List.mem_map.mpr ⟨_, hin, rfl⟩)
      have hkey : type ∉ more.map Prod.fst := hd.1
      simp only [hout, hkey, List.mem_cons, Prod.mk.injEq, true_and,
        List.map_cons, not_true_eq_false, false_and, or_false,
        false_or, not_false_eq_true, if_pos]
      rw [Option.some.injEq, eq_comm]
    · simp [ht]

theorem Entries.lookup (h : Entries entries) :
    (collect ∅ entries).lookup type = some value
      ↔ (type, value) ∈ entries := by
  rw [lookup_collect h.distinct]
  simp

-- == one entry

theorem ofNat_length (h : Holdable value) :
    (UInt8.ofNat (value.length + 1)).toNat = value.length + 1 :=
  UInt8.toNat_ofNat_of_lt' h.2

/-- An entry that is there is read, unless its type was read before. -/
theorem parseLTVFrom_entry (h : Holdable value) :
    parseLTVFrom (fuel + 1)
        (UInt8.ofNat (value.length + 1) :: type :: (value ++ rest)) values
      = if (values.lookup type).isSome then .error .ltvDuplicate
        else parseLTVFrom fuel rest (values.insert type value) := by
  have hlen := ofNat_length h
  rw [parseLTVFrom, if_neg]
  · have hslice : slice (type :: (value ++ rest)) 1 (value.length + 1)
        = value := by
      simp [slice]
    have hdrop : (type :: (value ++ rest)).drop (value.length + 1)
        = rest := by
      simp
    rw [hlen, hslice, hdrop]
    rfl
  · rw [hlen, UInt8.lt_iff_toNat_lt, hlen]
    have hpos := h.1
    simp only [List.length_cons, List.length_append]
    show ¬ (value.length + 1 < 2 ∨ _)
    omega

/-- Where there is room for an entry, there is an entry. -/
theorem entry_of_length {length : UInt8} (h2 : ¬ length < 2)
    (hroom : ¬ length.toNat > raw.length) :
    ∃ type value rest, raw = type :: (value ++ rest) ∧ Holdable value
      ∧ length = UInt8.ofNat (value.length + 1) := by
  have htwo : 2 ≤ length.toNat := by
    exact Nat.not_lt.mp h2
  cases raw with
  | nil =>
    simp only [List.length_nil] at hroom
    omega
  | cons type raw =>
    simp only [List.length_cons] at hroom
    have hlt := length.toNat_lt
    refine ⟨type, raw.take (length.toNat - 1), raw.drop (length.toNat - 1),
      ?_, ?_, ?_⟩
    · rw [List.take_append_drop]
    · unfold Holdable
      rw [List.length_take]
      omega
    · apply UInt8.toNat_inj.mp
      rw [List.length_take, UInt8.toNat_ofNat_of_lt']
      · omega
      · show _ < 256
        omega

-- == the walk

/-- The fuel suffices because an entry takes more than one byte of it. -/
theorem parseLTVFrom_encode : ∀ {entries : List (UInt8 × Bytes)}
    {fuel : Nat} {values : GoMap UInt8 Bytes}, Entries entries →
    (encodeLTV entries).length ≤ fuel →
    (∀ e ∈ entries, values.lookup e.1 = none) →
    parseLTVFrom fuel (encodeLTV entries) values
      = .ok (collect values entries) := by
  intro entries
  induction entries with
  | nil =>
    intro fuel values _ _ _
    cases fuel with
    | zero | succ fuel => rfl
  | cons e more ih =>
    intro fuel values he hfuel hfresh
    obtain ⟨type, value⟩ := e
    obtain ⟨hhold, hmore⟩ := List.forall_mem_cons.mp he.holdable
    have hd := he.distinct
    rw [List.map_cons, List.nodup_cons] at hd
    simp only [encodeLTV, List.length_cons, List.length_append] at hfuel
    cases fuel with
    | zero => omega
    | succ fuel =>
      have hnone : values.lookup type = none :=
        hfresh _ List.mem_cons_self
      rw [encodeLTV, parseLTVFrom_entry hhold, hnone]
      refine ih ⟨hmore, hd.2⟩ (by omega) fun f hf => ?_
      rw [GoMap.lookup_insert, if_neg]
      · exact hfresh f (List.mem_cons_of_mem _ hf)
      · intro heq
        exact hd.1 (List.mem_map.mpr ⟨f, hf, heq⟩)

/-- A type that is in the map already is in none of the entries to come. -/
theorem Entries.cons (h : Entries entries) (hhold : Holdable value)
    (hfresh : ∀ e ∈ entries,
      (values.insert type value).lookup e.1 = none) :
    Entries ((type, value) :: entries)
      ∧ ∀ e ∈ entries, values.lookup e.1 = none := by
  have hother : ∀ e ∈ entries, e.1 ≠ type
      ∧ values.lookup e.1 = none := by
    intro e he
    have hnone := hfresh e he
    rw [GoMap.lookup_insert] at hnone
    split at hnone
    case isTrue => cases hnone
    case isFalse hne => exact ⟨hne, hnone⟩
  refine ⟨⟨List.forall_mem_cons.mpr ⟨hhold, h.holdable⟩, ?_⟩,
    fun e he => (hother e he).2⟩
  rw [List.map_cons, List.nodup_cons]
  refine ⟨fun hin => ?_, h.distinct⟩
  obtain ⟨e, he, heq⟩ := List.mem_map.mp hin
  exact (hother e he).1 heq

/-- What the walk accepts is a concatenation of entries. -/
theorem parseLTVFrom_ok : ∀ {fuel : Nat} {raw : Bytes}
    {values out : GoMap UInt8 Bytes}, raw.length ≤ fuel →
    parseLTVFrom fuel raw values = .ok out →
    ∃ entries, Entries entries ∧ raw = encodeLTV entries
      ∧ (∀ e ∈ entries, values.lookup e.1 = none)
      ∧ out = collect values entries := by
  intro fuel
  induction fuel with
  | zero =>
    intro raw values out hfuel h
    obtain rfl := List.eq_nil_of_length_eq_zero (Nat.le_zero.mp hfuel)
    cases h
    exact ⟨[], ⟨by simp, List.nodup_nil⟩, rfl, by simp, rfl⟩
  | succ fuel ih =>
    intro raw values out hfuel h
    cases raw with
    | nil =>
      cases h
      exact ⟨[], ⟨by simp, List.nodup_nil⟩, rfl, by simp, rfl⟩
    | cons length raw =>
      by_cases hbad : length < 2 ∨ length.toNat > raw.length
      · rw [parseLTVFrom, if_pos hbad] at h
        cases h
      · obtain ⟨h2, hroom⟩ := not_or.mp hbad
        obtain ⟨type, value, rest, rfl, hhold, rfl⟩ :=
          entry_of_length h2 hroom
        rw [parseLTVFrom_entry hhold] at h
        by_cases hdup : (values.lookup type).isSome = true
        · rw [if_pos hdup] at h
          cases h
        · rw [if_neg hdup] at h
          simp only [List.length_cons, List.length_append] at hfuel
          obtain ⟨entries, hentries, rfl, hfresh, rfl⟩ :=
            ih (by omega) h
          obtain ⟨hall, hold⟩ := hentries.cons hhold hfresh
          refine ⟨(type, value) :: entries, hall, rfl, ?_, rfl⟩
          refine List.forall_mem_cons.mpr ⟨?_, hold⟩
          simpa using hdup

/-- The bytes are a list of entries, within the bound on its length. -/
structure IsLTV (raw : Bytes) (entries : List (UInt8 × Bytes)) :
    Prop where
  encoded : raw = encodeLTV entries
  entries : Entries entries
  nonempty : 0 < raw.length
  bounded : raw.length ≤ 64

/-- The parser accepts the lists of entries, and yields their map. -/
theorem parseLTV_iff :
    parseLTV raw = .ok out
      ↔ ∃ entries, IsLTV raw entries ∧ out = collect ∅ entries := by
  unfold parseLTV
  by_cases hlen : raw.length = 0 ∨ raw.length > 64
  · rw [if_pos hlen]
    constructor
    · intro h
      cases h
    · intro h
      obtain ⟨entries, hltv, -⟩ := h
      have := hltv.nonempty
      have := hltv.bounded
      omega
  · rw [if_neg hlen]
    constructor
    · intro h
      obtain ⟨entries, hentries, heq, -, rfl⟩ :=
        parseLTVFrom_ok (Nat.le_refl _) h
      exact ⟨entries, ⟨heq, hentries, by omega, by omega⟩, rfl⟩
    · intro h
      obtain ⟨entries, hltv, rfl⟩ := h
      rw [hltv.encoded]
      exact parseLTVFrom_encode hltv.entries (Nat.le_refl _) (by simp)

end Callbridge.Bluez
