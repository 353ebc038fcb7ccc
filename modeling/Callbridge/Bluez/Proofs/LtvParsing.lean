/-
`parseLTV` as a parser. A length that reaches past the end of the input
ends the loop before anything is read with it, so every read is within
bounds; and every turn moves on, so the loop ends.

A concatenation of entries can be taken apart in one way only. What comes
out is the map of the entries or, where two have one type, an error; both
are the same for the entries in any other order.
-/
import Callbridge.Bluez.Proofs.Ltv

namespace Callbridge.Bluez

open Lib

variable {entries entries' : List (UInt8 × Bytes)} {raw rest value : Bytes}
  {values out : GoMap UInt8 Bytes} {fuel fuel' offset : Nat}

-- == the loop

/-- More fuel than there are bytes makes no difference. -/
theorem parseLTVFrom_fuel (h : raw.length ≤ fuel) (h' : raw.length ≤ fuel') :
    parseLTVFrom fuel raw values = parseLTVFrom fuel' raw values := by
  induction fuel generalizing fuel' raw values with
  | zero =>
    obtain rfl := List.eq_nil_of_length_eq_zero (Nat.le_zero.mp h)
    cases fuel' with
    | zero | succ fuel' => rfl
  | succ fuel ih =>
    cases raw with
    | nil =>
      cases fuel' with
      | zero | succ fuel' => rfl
    | cons length rest =>
      cases fuel' with
      | zero => simp at h'
      | succ fuel' =>
        have hdrop : (rest.drop length.toNat).length ≤ rest.length := by
          simp
        refine ite_congr rfl (fun _ => rfl) fun _ => ?_
        refine ite_congr rfl (fun _ => rfl) fun _ => ?_
        exact ih (Nat.le_trans hdrop (Nat.le_of_succ_le_succ h))
          (Nat.le_trans hdrop (Nat.le_of_succ_le_succ h'))

/-- What the walk yields from an offset on. -/
def ltvRest (raw : Bytes) (s : Nat × GoMap UInt8 Bytes) :
    Except Lc3Error (GoMap UInt8 Bytes) :=
  parseLTVFrom (raw.length - s.1) (raw.drop s.1) s.2

theorem ltvRest_end : ltvRest raw (raw.length, values) = .ok values := by
  simp [ltvRest, parseLTVFrom]

/-- The walk at an offset, with the reads of the source. -/
theorem ltvRest_eq (h : offset < raw.length) :
    ltvRest raw (offset, values)
      = if (byteAt raw offset).toNat < 2
            ∨ offset + 1 + (byteAt raw offset).toNat > raw.length then
          .error .ltvMalformed
        else if (values.lookup (byteAt raw (offset + 1))).isSome then
          .error .ltvDuplicate
        else ltvRest raw (offset + ((byteAt raw offset).toNat + 1),
          values.insert (byteAt raw (offset + 1))
            (slice raw (offset + 2)
              (offset + 1 + (byteAt raw offset).toNat))) := by
  have hcons : raw.drop offset
      = byteAt raw offset :: raw.drop (offset + 1) := by
    rw [List.drop_eq_getElem_cons h, byteAt, List.getD_eq_getElem?_getD,
      List.getElem?_eq_getElem h]
    rfl
  obtain ⟨fuel, hfuel⟩ : ∃ fuel, raw.length - offset = fuel + 1 :=
    ⟨raw.length - offset - 1, by omega⟩
  unfold ltvRest
  simp only [hcons, hfuel]
  rw [parseLTVFrom, byteAt_drop, slice_drop, List.drop_drop]
  have hbad : (byteAt raw offset < 2
        ∨ (byteAt raw offset).toNat > (raw.drop (offset + 1)).length)
      ↔ ((byteAt raw offset).toNat < 2
        ∨ offset + 1 + (byteAt raw offset).toNat > raw.length) := by
    rw [UInt8.lt_iff_toNat_lt, List.length_drop]
    show ((byteAt raw offset).toNat < 2 ∨ _) ↔ _
    omega
  rw [if_congr hbad rfl rfl]
  refine ite_congr rfl (fun _ => rfl) fun hgood => ?_
  refine ite_congr rfl (fun _ => rfl) fun _ => ?_
  have hshift : offset + 1 + (byteAt raw offset).toNat
      = offset + ((byteAt raw offset).toNat + 1) := by omega
  rw [hshift]
  refine parseLTVFrom_fuel ?_ ?_
  · rw [List.length_drop]
    omega
  · rw [List.length_drop]

/-- A turn reads within the input, and leaves the result as it was. -/
theorem ltvTurn_cases (h : offset ≤ raw.length) :
    ltvTurn raw (offset, values)
        = some (.inr (ltvRest raw (offset, values)))
      ∨ ∃ s', ltvTurn raw (offset, values) = some (.inl s')
        ∧ s'.1 ≤ raw.length ∧ raw.length - s'.1 < raw.length - offset
        ∧ ltvRest raw s' = ltvRest raw (offset, values) := by
  unfold ltvTurn
  by_cases hend : offset < raw.length
  · simp only [if_pos hend, getElem?_eq_byteAt hend, Option.bind_eq_bind,
      Option.bind_some]
    rw [ltvRest_eq hend]
    by_cases hbad : (byteAt raw offset).toNat < 2
        ∨ offset + 1 + (byteAt raw offset).toNat > raw.length
    · left
      rw [if_pos hbad, if_pos hbad]
      rfl
    · rw [if_neg hbad, if_neg hbad,
        getElem?_eq_byteAt (show offset + 1 < raw.length by omega)]
      simp only [Option.bind_some]
      by_cases hdup :
          (values.lookup (byteAt raw (offset + 1))).isSome = true
      · left
        rw [if_pos hdup, if_pos hdup]
        rfl
      · right
        rw [if_neg hdup, if_neg hdup, slice?_eq (by omega) (by omega)]
        refine ⟨_, rfl, ?_, ?_, rfl⟩
        · omega
        · omega
  · obtain rfl : offset = raw.length := by omega
    left
    simp only [if_neg hend, ltvRest_end]

/-- The loop ends, without a panic, with the result of the walk. -/
theorem parseLTVReturns_iff {r : Except Lc3Error (GoMap UInt8 Bytes)} :
    ParseLTVReturns raw r ↔ r = parseLTV raw := by
  unfold ParseLTVReturns parseLTV
  by_cases hlen : raw.length = 0 ∨ raw.length > 64
  · rw [if_pos hlen, if_pos hlen]
  · rw [if_neg hlen, if_neg hlen]
    have hreturns : LoopReturns (ltvTurn raw) (0, ∅)
        (ltvRest raw (0, ∅)) :=
      .of_measure (fun s => s.1 ≤ raw.length) (fun s => raw.length - s.1)
        (ltvRest raw) (fun _ hs => ltvTurn_cases hs) (Nat.zero_le _)
    constructor
    · intro h
      exact h.unique hreturns
    · intro h
      subst h
      exact hreturns

-- == the entries

/-- Entries can be told from their encoding. -/
theorem encodeLTV_injective (h : ∀ e ∈ entries, Holdable e.2)
    (h' : ∀ e ∈ entries', Holdable e.2)
    (heq : encodeLTV entries = encodeLTV entries') : entries = entries' := by
  induction entries generalizing entries' with
  | nil =>
    cases entries' with
    | nil => rfl
    | cons e more => cases heq
  | cons e more ih =>
    cases entries' with
    | nil => cases heq
    | cons e' more' =>
      obtain ⟨type, value⟩ := e
      obtain ⟨type', value'⟩ := e'
      obtain ⟨hhold, hmore⟩ := List.forall_mem_cons.mp h
      obtain ⟨hhold', hmore'⟩ := List.forall_mem_cons.mp h'
      simp only [encodeLTV, List.cons.injEq] at heq
      obtain ⟨hlength, rfl, hrest⟩ := heq
      have hlen : value.length = value'.length := by
        have := congrArg UInt8.toNat hlength
        rw [ofNat_length hhold, ofNat_length hhold'] at this
        exact Nat.succ.inj this
      obtain ⟨rfl, htail⟩ := List.append_inj hrest hlen
      rw [ih hmore hmore' htail]

/-- Of a concatenation of entries only their types can be wrong. -/
theorem parseLTVFrom_entries (h : ∀ e ∈ entries, Holdable e.2) :
    ∀ (fuel : Nat) (values : GoMap UInt8 Bytes),
      parseLTVFrom fuel (encodeLTV entries) values = .error .ltvDuplicate
        ∨ ∃ out, parseLTVFrom fuel (encodeLTV entries) values = .ok out := by
  induction entries with
  | nil =>
    intro fuel values
    cases fuel with
    | zero | succ fuel => exact Or.inr ⟨values, rfl⟩
  | cons e more ih =>
    intro fuel values
    obtain ⟨hhold, hmore⟩ := List.forall_mem_cons.mp h
    cases fuel with
    | zero => exact Or.inr ⟨values, rfl⟩
    | succ fuel =>
      rw [encodeLTV, parseLTVFrom_entry hhold]
      split
      case isTrue => exact Or.inl rfl
      case isFalse => exact ih hmore fuel _

/-- The result for a concatenation of entries, in closed form. -/
theorem parseLTV_encode (h : ∀ e ∈ entries, Holdable e.2) :
    parseLTV (encodeLTV entries)
      = if (encodeLTV entries).length = 0
            ∨ (encodeLTV entries).length > 64 then .error .ltvLength
        else if (entries.map Prod.fst).Nodup then .ok (collect ∅ entries)
        else .error .ltvDuplicate := by
  by_cases hlen : (encodeLTV entries).length = 0
      ∨ (encodeLTV entries).length > 64
  · rw [parseLTV, if_pos hlen, if_pos hlen]
  · rw [if_neg hlen]
    by_cases hd : (entries.map Prod.fst).Nodup
    · rw [if_pos hd]
      exact parseLTV_iff.mpr ⟨entries, ⟨rfl, ⟨h, hd⟩, by omega, by omega⟩,
        rfl⟩
    · rw [if_neg hd]
      rcases parseLTVFrom_entries h (encodeLTV entries).length ∅ with
        hdup | ⟨out, hok⟩
      · rw [parseLTV, if_neg hlen, hdup]
      · -- an accepted list would have distinct types
        have hparse : parseLTV (encodeLTV entries) = .ok out := by
          rw [parseLTV, if_neg hlen, hok]
        obtain ⟨entries', hltv, -⟩ := parseLTV_iff.mp hparse
        have hsame := encodeLTV_injective h hltv.entries.holdable
          hltv.encoded
        rw [hsame] at hd
        exact absurd hltv.entries.distinct hd

-- == any order

theorem length_encodeLTV_perm (h : entries.Perm entries') :
    (encodeLTV entries).length = (encodeLTV entries').length := by
  induction h with
  | nil => rfl
  | cons e _ ih => simp [encodeLTV, ih]
  | swap e e' more =>
    simp only [encodeLTV, List.length_cons, List.length_append]
    omega
  | trans _ _ ih ih' => exact ih.trans ih'

theorem collect_perm (h : entries.Perm entries')
    (hd : (entries.map Prod.fst).Nodup) :
    collect ∅ entries = collect ∅ entries' := by
  have hd' : (entries'.map Prod.fst).Nodup :=
    (h.map Prod.fst).nodup_iff.mp hd
  refine Finmap.ext_lookup fun type => Option.ext fun value => ?_
  rw [lookup_collect hd, lookup_collect hd', h.mem_iff]
  simp

/-- The order of the entries does not matter. -/
theorem parseLTV_perm (h : ∀ e ∈ entries, Holdable e.2)
    (hperm : entries.Perm entries') :
    parseLTV (encodeLTV entries) = parseLTV (encodeLTV entries') := by
  have h' : ∀ e ∈ entries', Holdable e.2 := fun e he =>
    h e (hperm.mem_iff.mpr he)
  have hd := (hperm.map Prod.fst).nodup_iff
  rw [parseLTV_encode h, parseLTV_encode h', length_encodeLTV_perm hperm]
  refine ite_congr rfl (fun _ => rfl) fun _ => ?_
  by_cases hnodup : (entries.map Prod.fst).Nodup
  · rw [if_pos hnodup, if_pos (hd.mp hnodup), collect_perm hperm hnodup]
  · rw [if_neg hnodup, if_neg fun hin => hnodup (hd.mpr hin)]

-- == the theorem

/-- `parseLTV` returns on every input, without a read out of range. It
succeeds on the inputs that are lists of entries, which each are one list
only, with the map of the entries. So the order of entries does not change
what `ParseConfiguration` and `SelectConfigurationForAllocation` return,
a duplicate type among them or not. -/
theorem ltv_parser_exact (raw : Bytes) :
    (∀ r, ParseLTVReturns raw r ↔ r = parseLTV raw)
      ∧ ((∃ out, parseLTV raw = .ok out) ↔ ∃ entries, IsLTV raw entries)
      ∧ (∀ entries, IsLTV raw entries → ∃ out, parseLTV raw = .ok out
        ∧ ∀ type value, out.lookup type = some value
          ↔ (type, value) ∈ entries)
      ∧ (∀ entries entries', IsLTV raw entries → IsLTV raw entries' →
        entries = entries')
      ∧ ∀ entries entries', (∀ e ∈ entries, Holdable e.2) →
        raw = encodeLTV entries → entries.Perm entries' →
        parseConfiguration (encodeLTV entries') = parseConfiguration raw
        ∧ ∀ allocation,
          selectConfigurationForAllocation (encodeLTV entries') allocation
            = selectConfigurationForAllocation raw allocation := by
  refine ⟨fun r => parseLTVReturns_iff, ?_, ?_, ?_, ?_⟩
  · constructor
    · intro h
      obtain ⟨out, hout⟩ := h
      obtain ⟨entries, hltv, -⟩ := parseLTV_iff.mp hout
      exact ⟨entries, hltv⟩
    · intro h
      obtain ⟨entries, hltv⟩ := h
      exact ⟨_, parseLTV_iff.mpr ⟨entries, hltv, rfl⟩⟩
  · intro entries hltv
    refine ⟨_, parseLTV_iff.mpr ⟨entries, hltv, rfl⟩, ?_⟩
    intro type value
    exact hltv.entries.lookup
  · intro entries entries' hltv hltv'
    exact encodeLTV_injective hltv.entries.holdable
      hltv'.entries.holdable (hltv.encoded.symm.trans hltv'.encoded)
  · intro entries entries' hhold hraw hperm
    subst hraw
    have hsame := parseLTV_perm hhold hperm
    refine ⟨?_, fun allocation => ?_⟩
    · unfold parseConfiguration
      rw [hsame]
    · unfold selectConfigurationForAllocation
      rw [hsame]

end Callbridge.Bluez
