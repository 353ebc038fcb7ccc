/-
Go maps, as Mathlib's finite maps.

A Go map is a finite partial function whose `range` loop visits the
entries in an order the language leaves open. `Finmap` is exactly that:
association lists up to reordering, extensional in `lookup`. This
file adds what Go programs do beyond lookup, insert and delete.
-/
import Mathlib.Data.Finmap
import Mathlib.Data.List.Sort
import Mathlib.Data.Finset.Card

namespace Callbridge.Lib

/-- A Go `map[κ]ν`. -/
abbrev GoMap (κ ν : Type) := Finmap fun _ : κ => ν

namespace GoMap

variable {κ ν : Type} {k : κ} {v : ν} {l : List (κ × ν)}

-- == lookup

section Lookup

variable [DecidableEq κ]

/-- Lookup after an assignment, at any key. -/
theorem lookup_insert (m : GoMap κ ν) (k k' : κ) (v : ν) :
    (m.insert k v).lookup k' = if k' = k then some v else m.lookup k' := by
  by_cases h : k' = k
  · subst h
    rw [if_pos rfl]
    exact Finmap.lookup_insert m
  · rw [if_neg h]
    exact Finmap.lookup_insert_of_ne m h

/-- Lookup after a delete, at any key. -/
theorem lookup_erase (m : GoMap κ ν) (k k' : κ) :
    (m.erase k).lookup k' = if k' = k then none else m.lookup k' := by
  by_cases h : k' = k
  · subst h
    rw [if_pos rfl]
    exact Finmap.lookup_erase _ m
  · rw [if_neg h]
    exact Finmap.lookup_erase_ne h

/-- Present entries are the members of the entry multiset. -/
theorem lookup_eq_some {m : GoMap κ ν} :
    m.lookup k = some v ↔ (⟨k, v⟩ : Sigma fun _ : κ => ν) ∈ m.entries :=
  Finmap.lookup_eq_some_iff

end Lookup

-- == filter

/-- The entries a `range` loop keeps when it deletes those that fail
`p`. -/
def filter (p : κ → ν → Bool) (m : GoMap κ ν) : GoMap κ ν where
  entries := m.entries.filter fun e => p e.1 e.2
  nodupKeys := by
    obtain ⟨⟨l⟩, h⟩ := m
    exact List.NodupKeys.sublist List.filter_sublist h

theorem lookup_filter [DecidableEq κ] (p : κ → ν → Bool) (m : GoMap κ ν)
    (k : κ) :
    (m.filter p).lookup k = (m.lookup k).filter (p k) := by
  apply Option.ext
  intro v
  rw [lookup_eq_some, Option.filter_eq_some_iff, lookup_eq_some]
  exact Multiset.mem_filter

-- == gather

section Gather

variable {τ : Type}

/-- What a `range` loop collects from the values, each entry once. -/
def gather (f : ν → τ) (m : GoMap κ ν) : Multiset τ :=
  m.entries.map fun e => f e.2

theorem gather_empty (f : ν → τ) : (∅ : GoMap κ ν).gather f = 0 := rfl

variable [DecidableEq κ]

theorem mem_gather {f : ν → τ} {m : GoMap κ ν} {t : τ} :
    t ∈ m.gather f ↔ ∃ k v, m.lookup k = some v ∧ f v = t := by
  unfold gather
  rw [Multiset.mem_map]
  constructor
  · rintro ⟨⟨k, v⟩, hmem, he⟩
    exact ⟨k, v, lookup_eq_some.mpr hmem, he⟩
  · rintro ⟨k, v, hl, he⟩
    exact ⟨⟨k, v⟩, lookup_eq_some.mp hl, he⟩

theorem gather_insert (f : ν → τ) {m : GoMap κ ν} (v : ν)
    (h : m.lookup k = none) :
    gather f (m.insert k v) = f v ::ₘ m.gather f := by
  unfold gather
  rw [Finmap.entries_insert_of_notMem (Finmap.lookup_eq_none.mp h),
    Multiset.map_cons]

theorem erase_of_none {m : GoMap κ ν} (h : m.lookup k = none) :
    m.erase k = m := by
  refine Finmap.ext_lookup fun k' => ?_
  rw [lookup_erase]
  split
  case isTrue hk => rw [hk, h]
  case isFalse => rfl

theorem gather_erase (f : ν → τ) {m : GoMap κ ν} (h : m.lookup k = some v) :
    m.gather f = f v ::ₘ gather f (m.erase k) := by
  have hback : m = (m.erase k).insert k v := by
    refine Finmap.ext_lookup fun k' => ?_
    rw [lookup_insert, lookup_erase]
    split
    case isTrue hk => rw [hk, h]
    case isFalse => rfl
  have hnone : (m.erase k).lookup k = none := by
    rw [lookup_erase, if_pos rfl]
  rw [← gather_insert f v hnone, ← hback]

end Gather

-- == iteration orders

/-- `l` lists the entries of `m`, each once, in some order: one of the
orders a `range` loop may visit them in. -/
def Order (m : GoMap κ ν) (l : List (κ × ν)) : Prop :=
  ((l.map fun e => (⟨e.1, e.2⟩ : Sigma fun _ : κ => ν) : List _) :
    Multiset (Sigma fun _ : κ => ν)) = m.entries

instance [DecidableEq κ] [DecidableEq ν] (m : GoMap κ ν)
    (l : List (κ × ν)) : Decidable (m.Order l) :=
  inferInstanceAs (Decidable (_ = _))

/-- An iteration order visits exactly the entries. -/
theorem Order.mem_iff [DecidableEq κ] {m : GoMap κ ν} (h : m.Order l) :
    (k, v) ∈ l ↔ m.lookup k = some v := by
  rw [lookup_eq_some, ← h, Multiset.mem_coe, List.mem_map]
  constructor
  · intro hm
    exact ⟨(k, v), hm, rfl⟩
  · rintro ⟨⟨k', v'⟩, hm, he⟩
    cases he
    exact hm

/-- Every iteration order collects the same. -/
theorem Order.gather_eq {τ : Type} [DecidableEq κ] (f : ν → τ) {m : GoMap κ ν}
    (h : m.Order l) :
    m.gather f = ((l.map fun e => f e.2 : List τ) : Multiset τ) := by
  unfold gather
  rw [← h, Multiset.map_coe, List.map_map]
  rfl

/-- An iteration order visits no key twice. -/
theorem Order.nodup_keys {m : GoMap κ ν} (h : m.Order l) :
    (l.map Prod.fst).Nodup := by
  have hkeys := m.nodupKeys
  rw [← h, Multiset.coe_nodupKeys] at hkeys
  have hmap : (l.map fun e => (⟨e.1, e.2⟩ : Sigma fun _ : κ => ν)).map
      Sigma.fst = l.map Prod.fst := by
    rw [List.map_map]
    rfl
  rw [← hmap]
  exact hkeys

/-- A `range` loop that collects the keys of some values ends with `k`
alone when `k` is the only such key, whatever the order. -/
theorem Order.only_iff [DecidableEq κ] {m : GoMap κ ν} (h : m.Order l)
    {p : ν → Bool} :
    (l.filter fun e => p e.2).map Prod.fst = [k]
      ↔ ∀ k', (∃ v, m.lookup k' = some v ∧ p v = true) ↔ k' = k := by
  have hmem : ∀ k', k' ∈ (l.filter fun e => p e.2).map Prod.fst
      ↔ ∃ v, m.lookup k' = some v ∧ p v = true := by
    intro k'
    rw [List.mem_map]
    constructor
    · rintro ⟨⟨_, v⟩, he, rfl⟩
      obtain ⟨hl, hp⟩ := List.mem_filter.mp he
      exact ⟨v, h.mem_iff.mp hl, hp⟩
    · rintro ⟨v, hv, hp⟩
      exact ⟨(k', v), List.mem_filter.mpr ⟨h.mem_iff.mpr hv, hp⟩, rfl⟩
  simp only [← hmem]
  constructor
  · intro heq k'
    rw [heq, List.mem_singleton]
  · intro honly
    have hnodup : ((l.filter fun e => p e.2).map Prod.fst).Nodup :=
      h.nodup_keys.sublist (List.filter_sublist.map _)
    apply List.perm_singleton.mp
    apply (List.perm_ext_iff_of_nodup hnodup (List.nodup_singleton k)).mpr
    intro k'
    rw [honly, List.mem_singleton]

/-- `len(m)`. -/
def len (m : GoMap κ ν) : Nat := m.keys.card

theorem len_eq_card (m : GoMap κ ν) : m.len = Multiset.card m.entries := by
  show Multiset.card (Multiset.map Sigma.fst m.entries) = _
  rw [Multiset.card_map]

/-- Every iteration order has `len` entries. -/
theorem Order.length_eq {m : GoMap κ ν} (h : m.Order l) :
    l.length = m.len := by
  rw [len_eq_card, ← h, Multiset.coe_card, List.length_map]

/-- A map of one entry has one iteration order. -/
theorem Order.of_len_one [DecidableEq κ] {m : GoMap κ ν} (h : m.Order l)
    (hlen : m.len = 1) :
    ∃ k v, l = [(k, v)]
      ∧ ∀ k' v', m.lookup k' = some v' ↔ k' = k ∧ v' = v := by
  have hl : l.length = 1 := by rw [h.length_eq, hlen]
  obtain ⟨⟨k, v⟩, rfl⟩ := List.length_eq_one_iff.mp hl
  refine ⟨k, v, rfl, fun k' v' => ?_⟩
  rw [← h.mem_iff]
  simp

-- == entering once

section EnterOnce

variable {τ : Type} [DecidableEq κ] (key : τ → κ)

/-- A loop that enters every value under its key and stops at the first
key that is taken. -/
def enterOnce : GoMap κ τ → List τ → Except κ (GoMap κ τ)
  | m, [] => .ok m
  | m, t :: ts =>
      if (m.lookup (key t)).isSome then .error (key t)
      else enterOnce (m.insert (key t) t) ts

variable {key} {m m' : GoMap κ τ} {ts : List τ}

/-- Inserting at a free key adds one entry. -/
theorem lookup_insert_free {t s : τ} (h : m.lookup (key t) = none) :
    (m.insert (key t) t).lookup k = some s
      ↔ (s = t ∧ key t = k) ∨ m.lookup k = some s := by
  rw [lookup_insert]
  by_cases hk : k = key t
  · rw [if_pos hk, hk, h]
    constructor
    · intro hs
      exact Or.inl ⟨(Option.some.inj hs).symm, rfl⟩
    · intro hs
      rcases hs with ⟨rfl, -⟩ | hs
      · rfl
      · cases hs
  · rw [if_neg hk]
    constructor
    · exact Or.inr
    · intro hs
      rcases hs with ⟨-, heq⟩ | hs
      · exact absurd heq.symm hk
      · exact hs

/-- The loop ends well when the keys are all different and free, and then
holds what was there and the values, each under its key. -/
theorem enterOnce_eq_ok : enterOnce key m ts = .ok m' ↔
    (ts.map key).Nodup ∧ (∀ t ∈ ts, m.lookup (key t) = none)
      ∧ ∀ k t, m'.lookup k = some t
          ↔ (t ∈ ts ∧ key t = k) ∨ m.lookup k = some t := by
  -- on the list, for every map built so far
  induction ts generalizing m with
  | nil =>
    constructor
    · intro h
      cases h
      simp
    · rintro ⟨-, -, hlookup⟩
      have hm : m = m' := by
        refine Finmap.ext_lookup fun k => Option.ext fun t => ?_
        rw [hlookup]
        simp
      rw [hm]
      rfl
  | cons t ts ih =>
    by_cases hfree : m.lookup (key t) = none
    · have hstep : enterOnce key m (t :: ts)
          = enterOnce key (m.insert (key t) t) ts := by
        simp [enterOnce, hfree]
      -- free after the insertion: free before, and another key
      have hnone : ∀ s, (m.insert (key t) t).lookup (key s) = none
          ↔ key s ≠ key t ∧ m.lookup (key s) = none := by
        intro s
        rw [lookup_insert]
        by_cases hs : key s = key t <;> simp [hs]
      rw [hstep, ih]
      simp only [hnone, lookup_insert_free hfree, List.map_cons,
        List.nodup_cons, List.mem_map, List.mem_cons]
      constructor
      · rintro ⟨hnodup, hnew, hlookup⟩
        refine ⟨⟨?_, hnodup⟩, ?_, ?_⟩
        · rintro ⟨s, hs, hkey⟩
          exact (hnew s hs).1 hkey
        · rintro s (rfl | hs)
          · exact hfree
          · exact (hnew s hs).2
        · intro k s
          grind
      · rintro ⟨⟨hfresh, hnodup⟩, hnew, hlookup⟩
        refine ⟨hnodup, ?_, ?_⟩
        · intro s hs
          exact ⟨fun hkey => hfresh ⟨s, hs, hkey⟩, hnew s (Or.inr hs)⟩
        · intro k s
          grind
    · have hstop : enterOnce key m (t :: ts) = .error (key t) := by
        simp [enterOnce, Option.isSome_iff_ne_none, hfree]
      rw [hstop]
      constructor
      · intro h
        cases h
      · rintro ⟨-, hnew, -⟩
        exact absurd (hnew t List.mem_cons_self) hfree

end EnterOnce

-- == ascending entries

section Sorted

variable [LE κ] [DecidableLE κ] [Std.IsLinearOrder κ]

/-- The entries of an association list in ascending key order. -/
def sortEntries (l : List (Sigma fun _ : κ => ν)) :
    List (Sigma fun _ : κ => ν) :=
  l.insertionSort fun e f => e.1 ≤ f.1

theorem sortEntries_pairwise (l : List (Sigma fun _ : κ => ν)) :
    (sortEntries l).Pairwise fun e f => e.1 ≤ f.1 := by
  exact List.pairwise_insertionSort _ l

/-- Sorting by key forgets the order a duplicate-free list came in. -/
theorem sortEntries_perm {l l' : List (Sigma fun _ : κ => ν)}
    (hl : l.NodupKeys) (hp : l.Perm l') : sortEntries l = sortEntries l' := by
  have hperm : (sortEntries l).Perm (sortEntries l') :=
    ((List.perm_insertionSort _ l).trans hp).trans
      (List.perm_insertionSort _ l').symm
  refine hperm.eq_of_pairwise ?_ (sortEntries_pairwise l)
    (sortEntries_pairwise l')
  intro e f he hf hle hge
  -- equal keys in a duplicate-free list are the same entry
  have hel : e ∈ l := (List.mem_insertionSort _).mp he
  have hfl : f ∈ l := hp.mem_iff.mpr ((List.mem_insertionSort _).mp hf)
  exact hl.eq_of_fst_eq hel hfl (Std.le_antisymm hle hge)

/-- The entries in ascending key order. -/
def sorted (m : GoMap κ ν) : List (κ × ν) :=
  Finmap.liftOn m (fun a => (sortEntries a.entries).map fun e => (e.1, e.2))
    fun a _ h => by rw [sortEntries_perm a.nodupKeys h]

/-- Ascending is one of the orders of a map. -/
theorem sorted_order (m : GoMap κ ν) : m.Order m.sorted := by
  refine Finmap.induction_on m fun a => ?_
  show ((((sortEntries a.entries).map fun e => (e.1, e.2)).map
    fun e => (⟨e.1, e.2⟩ : Sigma fun _ : κ => ν) : List _) :
    Multiset (Sigma fun _ : κ => ν)) = a.entries
  rw [List.map_map]
  have hid : ((fun e : κ × ν => (⟨e.1, e.2⟩ : Sigma fun _ : κ => ν)) ∘
      fun e : Sigma (fun _ : κ => ν) => (e.1, e.2)) = id := by
    funext e
    rfl
  rw [hid, List.map_id]
  exact Multiset.coe_eq_coe.mpr (List.perm_insertionSort _ _)

/-- A `range` loop may come upon any of the entries first. -/
theorem exists_order_cons [DecidableEq κ] {m : GoMap κ ν}
    (h : m.lookup k = some v) : ∃ l, m.Order ((k, v) :: l) := by
  have hmem := (sorted_order m).mem_iff.mpr h
  obtain ⟨before, after, hsplit⟩ := List.append_of_mem hmem
  refine ⟨before ++ after, ?_⟩
  have hperm : m.sorted.Perm ((k, v) :: (before ++ after)) := by
    rw [hsplit]
    exact List.perm_middle
  rw [Order, ← sorted_order m]
  exact Multiset.coe_eq_coe.mpr (hperm.symm.map _)

theorem mem_sorted [DecidableEq κ] {m : GoMap κ ν} :
    (k, v) ∈ m.sorted ↔ m.lookup k = some v :=
  m.sorted_order.mem_iff

/-- The keys of `sorted` ascend, no two alike. -/
theorem sorted_ascending (m : GoMap κ ν) :
    m.sorted.Pairwise fun e f => e.1 ≤ f.1 ∧ e.1 ≠ f.1 := by
  refine Finmap.induction_on m fun a => ?_
  show ((sortEntries a.entries).map fun e => (e.1, e.2)).Pairwise _
  rw [List.pairwise_map]
  refine (sortEntries_pairwise a.entries).and ?_
  have hperm : (sortEntries a.entries).Perm a.entries :=
    List.perm_insertionSort _ _
  have hnodup : ((sortEntries a.entries).map Sigma.fst).Nodup :=
    (hperm.map Sigma.fst).nodup_iff.mpr a.nodupKeys
  exact List.pairwise_map.mp hnodup

theorem sorted_length (m : GoMap κ ν) : m.sorted.length = m.len :=
  m.sorted_order.length_eq

end Sorted

end GoMap

end Callbridge.Lib
