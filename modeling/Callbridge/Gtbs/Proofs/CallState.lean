/-
What the Call State parser accepts, exactly, and why the order of the
triples in a value does not matter: the loop returns what a reading that
checks nothing does (`triples`), provided every triple stands by itself
and no index comes twice, and sorting by such an index forgets the order.
-/
import Callbridge.Gtbs.Store

namespace Callbridge.Gtbs

open Lib Protocol

variable {calls : List Call} {value value' : Bytes}

-- == the reading

/-- The value cut in threes. -/
def triples : Bytes → List Call
  | index :: state :: flags :: rest =>
      rawCall index state flags :: triples rest
  | _ => []

/-- A triple that the parser has nothing against. -/
structure Entry (call : Call) : Prop where
  index : call.index ≠ 0
  state : call.state ≤ stateLocallyRemotelyHeld
  flags : call.flags < 8

/-- A value of such triples, no index twice. -/
structure Acceptable (value : Bytes) : Prop where
  length : value.length % 3 = 0
  entry : ∀ call ∈ triples value, Entry call
  distinct : ((triples value).map Call.index).Nodup

theorem length_eq_triples (value : Bytes) :
    value.length = 3 * (triples value).length + value.length % 3 := by
  induction value using triples.induct with
  | case1 index state flags rest ih =>
    rw [triples]
    simp only [List.length_cons]
    omega
  | case2 value hshort =>
    rcases value with _ | ⟨a, _ | ⟨b, _ | ⟨c, rest⟩⟩⟩
    · rfl
    · simp [triples]
    · simp [triples]
    · exact (hshort a b c rest rfl).elim

-- == the loop

theorem flags_known (flags : UInt8) :
    (flags &&& ~~~knownFlags) = 0 ↔ flags < 8 := by
  have h : ∀ n : Fin 256,
      (UInt8.ofFin n &&& ~~~knownFlags) = 0 ↔ UInt8.ofFin n < 8 := by
    decide +kernel
  exact h flags.toFin

/-- An entry passes by itself, and if its index is new. -/
theorem not_entryRefused {seen : List UInt8} {call : Call} :
    ¬ entryRefused seen call = true
      ↔ Entry call ∧ call.index ∉ seen := by
  simp only [entryRefused, Bool.or_eq_true, not_or, beq_iff_eq,
    decide_eq_true_eq, bne_iff_ne, ne_eq, flags_known, Decidable.not_not,
    List.contains_iff_mem, gt_iff_lt,
    UInt8.not_lt (a := stateLocallyRemotelyHeld)]
  constructor
  · rintro ⟨⟨⟨hi, hs⟩, hf⟩, hseen⟩
    exact ⟨⟨hi, hs, hf⟩, hseen⟩
  · rintro ⟨⟨hi, hs, hf⟩, hseen⟩
    exact ⟨⟨⟨hi, hs⟩, hf⟩, hseen⟩

/-- One turn of the loop. -/
theorem parseEntries_cons_iff {seen : List UInt8} {rest : Bytes}
    {index state flags : UInt8} :
    parseEntries seen (index :: state :: flags :: rest) = .ok calls
      ↔ (Entry (rawCall index state flags) ∧ index ∉ seen)
        ∧ ∃ tail, parseEntries (index :: seen) rest = .ok tail
          ∧ calls = rawCall index state flags :: tail := by
  rw [parseEntries]
  by_cases href : entryRefused seen (rawCall index state flags) = true
  · rw [if_pos href]
    have hno := mt not_entryRefused.mpr (not_not.mpr href)
    constructor
    · intro h
      cases h
    · rintro ⟨hyes, -⟩
      exact absurd hyes hno
  · rw [if_neg href]
    have hyes := not_entryRefused.mp href
    cases parseEntries (index :: seen) rest with
    | error e => simp
    | ok tail =>
      constructor
      · intro h
        cases h
        exact ⟨hyes, tail, rfl, rfl⟩
      · rintro ⟨-, tail', htail, rfl⟩
        cases htail
        rfl

/-- The loop reads the triples and returns them, unless one of them does
not stand or an index comes again. -/
theorem parseEntries_iff (value : Bytes) : ∀ {seen calls},
    parseEntries seen value = .ok calls
      ↔ calls = triples value
        ∧ (∀ call ∈ triples value, Entry call ∧ call.index ∉ seen)
        ∧ ((triples value).map Call.index).Nodup := by
  induction value using triples.induct with
  | case1 index state flags rest ih =>
    intro seen calls
    rw [parseEntries_cons_iff, triples]
    simp only [List.forall_mem_cons, List.map_cons, List.nodup_cons]
    constructor
    · rintro ⟨hentry, tail, htail, rfl⟩
      obtain ⟨rfl, hall, hnd⟩ := ih.mp htail
      refine ⟨rfl, ⟨hentry, fun call hcall => ?_⟩, ?_, hnd⟩
      · exact ⟨(hall call hcall).1, fun hmem =>
          (hall call hcall).2 (List.mem_cons_of_mem _ hmem)⟩
      · -- an index that comes again was seen when it came again
        intro hmem
        obtain ⟨call, hcall, hindex⟩ := List.mem_map.mp hmem
        exact (hall call hcall).2 (hindex ▸ List.mem_cons_self)
    · rintro ⟨rfl, ⟨hentry, hall⟩, hfresh, hnd⟩
      refine ⟨hentry, triples rest, ih.mpr ⟨rfl, ?_, hnd⟩, rfl⟩
      intro call hcall
      refine ⟨(hall call hcall).1, fun hmem => ?_⟩
      rcases List.mem_cons.mp hmem with hindex | hmem
      · exact hfresh (List.mem_map.mpr ⟨call, hcall, hindex⟩)
      · exact (hall call hcall).2 hmem
  | case2 value hshort =>
    intro seen calls
    rw [parseEntries, triples]
    · constructor
      · intro h
        cases h
        simp
      · rintro ⟨rfl, -, -⟩
        rfl
    · exact hshort
    · exact hshort

-- == the parser

/-- There are not more than 255 indexes to give, so that the parser's own
bound on the length refuses nothing more. -/
theorem Acceptable.length_le (h : Acceptable value) :
    value.length ≤ 3 * 255 := by
  have hnd : (0 :: (triples value).map Call.index).Nodup := by
    rw [List.nodup_cons]
    refine ⟨fun hmem => ?_, h.distinct⟩
    obtain ⟨call, hcall, hindex⟩ := List.mem_map.mp hmem
    exact (h.entry call hcall).index hindex
  have hnat := hnd.map (f := UInt8.toNat) fun _ _ => UInt8.toNat_inj.mp
  have hsub : (0 :: (triples value).map Call.index).map UInt8.toNat
      ⊆ List.range 256 := by
    intro n hn
    obtain ⟨index, -, rfl⟩ := List.mem_map.mp hn
    exact List.mem_range.mpr index.toNat_lt
  have hlen := (List.subperm_of_subset hnat hsub).length_le
  simp only [List.length_map, List.length_cons, List.length_range] at hlen
  have := length_eq_triples value
  have := h.length
  omega

theorem sortCalls_perm (calls : List Call) :
    (sortCalls calls).Perm calls :=
  List.perm_insertionSort _ calls

theorem sortCalls_pairwise (calls : List Call) :
    (sortCalls calls).Pairwise fun a b => a.index ≤ b.index := by
  exact List.pairwise_insertionSort _ calls

/-- The calls in strictly ascending index order. -/
def ByIndex (calls : List Call) : Prop :=
  calls.Pairwise fun a b => a.index < b.index

theorem sortCalls_byIndex (hnd : (calls.map Call.index).Nodup) :
    ByIndex (sortCalls calls) := by
  have hne : ((sortCalls calls).map Call.index).Nodup :=
    ((sortCalls_perm calls).map _).nodup_iff.mpr hnd
  rw [List.Nodup, List.pairwise_map] at hne
  exact (sortCalls_pairwise calls).imp₂
    (fun _ _ => UInt8.lt_of_le_of_ne) hne

/-- There is one way to list calls in ascending order. -/
theorem ByIndex.unique {calls' : List Call} (h : ByIndex calls)
    (h' : ByIndex calls') (hperm : calls.Perm calls') : calls = calls' :=
  hperm.eq_of_pairwise
    (fun _ _ _ _ hlt hgt => absurd hlt (UInt8.lt_asymm hgt)) h h'

/-- The parser accepts these values, sorted by index. -/
theorem parseCallState_iff :
    parseCallState value = .ok calls
      ↔ Acceptable value ∧ calls = sortCalls (triples value) := by
  unfold parseCallState
  constructor
  · intro h
    by_cases hlen : value.length % 3 ≠ 0 ∨ value.length > 3 * 255
    · rw [if_pos hlen] at h
      cases h
    · rw [if_neg hlen] at h
      cases hloop : parseEntries [] value with
      | error e =>
        rw [hloop] at h
        cases h
      | ok entries =>
        rw [hloop] at h
        cases h
        obtain ⟨rfl, hall, hnd⟩ := (parseEntries_iff value).mp hloop
        refine ⟨⟨?_, fun call hcall => (hall call hcall).1, hnd⟩, rfl⟩
        omega
  · rintro ⟨hacc, rfl⟩
    have hok : parseEntries [] value = .ok (triples value) :=
      (parseEntries_iff value).mpr ⟨rfl,
        fun c hc => ⟨hacc.entry c hc, List.not_mem_nil⟩, hacc.distinct⟩
    have hlen := hacc.length
    have hle := hacc.length_le
    rw [if_neg (by omega), hok]

-- == the order of the triples

/-- Two values of whole triples, the same ones in some other order. -/
structure SameTriples (value value' : Bytes) : Prop where
  length : value.length % 3 = 0
  length' : value'.length % 3 = 0
  perm : (triples value).Perm (triples value')

theorem SameTriples.symm (h : SameTriples value value') :
    SameTriples value' value :=
  ⟨h.length', h.length, h.perm.symm⟩

theorem SameTriples.length_eq (h : SameTriples value value') :
    value.length = value'.length := by
  rw [length_eq_triples value, length_eq_triples value', h.length,
    h.length', h.perm.length_eq]

theorem SameTriples.acceptable (h : SameTriples value value')
    (hacc : Acceptable value) :
    Acceptable value' where
  length := h.length'
  entry call hcall := hacc.entry call (h.perm.mem_iff.mpr hcall)
  distinct := (h.perm.map Call.index).nodup_iff.mp hacc.distinct

/-- Whatever the loop does not accept, it refuses for an entry. -/
theorem parseEntries_error (seen : List UInt8) (value : Bytes)
    {e : StoreError} (h : parseEntries seen value = .error e) :
    e = .callStateEntry := by
  induction seen, value using parseEntries.induct with
  | case1 seen index state flags rest href =>
    rw [parseEntries, if_pos href] at h
    cases h
    rfl
  | case2 seen index state flags rest href e' hrest ih =>
    rw [parseEntries, if_neg href, hrest] at h
    cases h
    exact ih hrest
  | case3 seen index state flags rest href tail hrest ih =>
    rw [parseEntries, if_neg href, hrest] at h
    cases h
  | case4 value seen hshort =>
    rw [parseEntries] at h
    · cases h
    · exact hshort

/-- Every other value is refused, by its length or an entry. -/
theorem parseCallState_refused (h : ¬ Acceptable value) :
    parseCallState value = .error
      (if value.length % 3 ≠ 0 ∨ value.length > 3 * 255
        then .callStateLength else .callStateEntry) := by
  cases hparse : parseCallState value with
  | ok calls => exact absurd (parseCallState_iff.mp hparse).1 h
  | error e =>
    congr 1
    unfold parseCallState at hparse
    split at hparse
    case isTrue hlen =>
      cases hparse
      rw [if_pos hlen]
    case isFalse hlen =>
      rw [if_neg hlen]
      cases hloop : parseEntries [] value with
      | error e' =>
        rw [hloop] at hparse
        cases hparse
        exact parseEntries_error _ _ hloop
      | ok calls =>
        rw [hloop] at hparse
        cases hparse

/-- The order of the triples does not matter. -/
theorem SameTriples.parse (h : SameTriples value value') :
    parseCallState value = parseCallState value' := by
  by_cases hacc : Acceptable value
  · have hacc' := h.acceptable hacc
    rw [parseCallState_iff.mpr ⟨hacc, rfl⟩,
      parseCallState_iff.mpr ⟨hacc', rfl⟩]
    congr 1
    apply (sortCalls_byIndex hacc.distinct).unique
      (sortCalls_byIndex hacc'.distinct)
    exact ((sortCalls_perm _).trans h.perm).trans (sortCalls_perm _).symm
  · have hacc' : ¬ Acceptable value' := mt h.symm.acceptable hacc
    rw [parseCallState_refused hacc, parseCallState_refused hacc',
      h.length_eq]

/-- The parser accepts the acceptable values and returns their triples,
once each and in ascending order, and two values of the same triples do
the same to every store. -/
theorem call_state_exact (value : Bytes) :
    ((∃ calls, parseCallState value = .ok calls) ↔ Acceptable value)
      ∧ (∀ calls, parseCallState value = .ok calls →
          calls.Perm (triples value) ∧ ByIndex calls)
      ∧ ∀ (s : Store) (value' : Bytes), SameTriples value value' →
          s.apply value = s.apply value' := by
  refine ⟨⟨?_, ?_⟩, ?_, ?_⟩
  · rintro ⟨calls, hparse⟩
    exact (parseCallState_iff.mp hparse).1
  · intro hacc
    exact ⟨_, parseCallState_iff.mpr ⟨hacc, rfl⟩⟩
  · intro calls hparse
    obtain ⟨hacc, rfl⟩ := parseCallState_iff.mp hparse
    exact ⟨sortCalls_perm _, sortCalls_byIndex hacc.distinct⟩
  · intro s value' hsame
    unfold Store.apply
    rw [hsame.parse]

end Callbridge.Gtbs
