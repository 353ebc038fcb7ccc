/-
A roster: the members of a set in the order they entered, with the set
kept beside the order for lookup. Entering appends a newcomer to both, and
a roster that has outgrown its limit evicts from the front.

`Ordered` says that the two describe the same members, each once. `Within`
is the bookkeeping of eviction: everybody behind a member entered since,
so it is evicted only after as many others entered as there are places.
-/
import Mathlib.Data.Finset.Card
import Mathlib.Data.Finset.Dedup
import Mathlib.Data.Finset.SDiff

namespace Callbridge.Lib

structure Roster (α : Type) where
  order : List α
  members : Finset α

namespace Roster

variable {α : Type} [DecidableEq α] {r : Roster α} {a b : α} {l : List α}
  {limit : Nat} {since : Finset α}

def empty : Roster α := ⟨[], ∅⟩

def enter (r : Roster α) (a : α) : Roster α :=
  if a ∈ r.members then r else ⟨r.order ++ [a], insert a r.members⟩

def enterAll (r : Roster α) (l : List α) : Roster α := l.foldl enter r

/-- Drop the first `n`. -/
def evict (r : Roster α) (n : Nat) : Roster α :=
  ⟨r.order.drop n, (r.order.take n).foldl Finset.erase r.members⟩

/-- Drop as many from the front as exceed the limit. -/
def trim (limit : Nat) (r : Roster α) : Roster α :=
  r.evict (r.order.length - limit)

/-- The order lists the members, each once. -/
structure Ordered (r : Roster α) : Prop where
  nodup : r.order.Nodup
  members_eq : r.members = r.order.toFinset

-- == what the order becomes

theorem Ordered.mem_iff (h : r.Ordered) : a ∈ r.members ↔ a ∈ r.order := by
  rw [h.members_eq, List.mem_toFinset]

theorem Ordered.ext {r' : Roster α} (h : r.Ordered) (h' : r'.Ordered)
    (horder : r.order = r'.order) : r = r' := by
  have hmembers : r.members = r'.members := by
    rw [h.members_eq, h'.members_eq, horder]
  cases r
  cases r'
  simp_all

theorem ordered_empty : (empty : Roster α).Ordered := ⟨List.nodup_nil, rfl⟩

theorem enter_of_mem (h : a ∈ r.members) : r.enter a = r := if_pos h

theorem enter_of_not_mem (h : a ∉ r.members) :
    r.enter a = ⟨r.order ++ [a], insert a r.members⟩ := if_neg h

theorem Ordered.enter (h : r.Ordered) (a : α) : (r.enter a).Ordered := by
  by_cases hmem : a ∈ r.members
  · rw [enter_of_mem hmem]
    exact h
  · rw [enter_of_not_mem hmem]
    have hnot : a ∉ r.order := fun ha => hmem (h.mem_iff.mpr ha)
    constructor
    · apply List.nodup_append.mpr
      refine ⟨h.nodup, List.nodup_singleton a, ?_⟩
      rintro b hb c hc rfl
      rw [List.mem_singleton] at hc
      exact hnot (hc ▸ hb)
    · ext b
      simp [h.members_eq]

theorem Ordered.enterAll (h : r.Ordered) (l : List α) :
    (r.enterAll l).Ordered := by
  induction l generalizing r with
  | nil => exact h
  | cons a l ih => exact ih (h.enter a)

theorem foldl_erase (l : List α) (s : Finset α) :
    l.foldl Finset.erase s = s \ l.toFinset := by
  induction l generalizing s with
  | nil => simp
  | cons a l ih =>
    rw [List.foldl_cons, ih]
    ext b
    simp
    tauto

/-- Eviction takes the same members from both. -/
theorem Ordered.evict (h : r.Ordered) (n : Nat) : (r.evict n).Ordered := by
  constructor
  · exact h.nodup.sublist (List.drop_sublist n r.order)
  · -- what is not taken from the front is left behind it, and nobody is
    -- in both parts
    have hsplit := List.take_append_drop n r.order
    have hnodup := h.nodup
    rw [← hsplit, List.nodup_append] at hnodup
    have hdisjoint := hnodup.2.2
    show (r.order.take n).foldl Finset.erase r.members
      = (r.order.drop n).toFinset
    rw [foldl_erase, h.members_eq]
    ext b
    rw [Finset.mem_sdiff, List.mem_toFinset, List.mem_toFinset,
      List.mem_toFinset]
    constructor
    · rintro ⟨hb, hnot⟩
      rw [← hsplit, List.mem_append] at hb
      exact hb.resolve_left hnot
    · intro hb
      exact ⟨List.mem_of_mem_drop hb, fun htake =>
        hdisjoint b htake b hb rfl⟩

theorem Ordered.trim (h : r.Ordered) (limit : Nat) :
    (r.trim limit).Ordered :=
  h.evict _

theorem length_trim_le (limit : Nat) (r : Roster α) :
    (r.trim limit).order.length ≤ limit := by
  simp only [Roster.trim, Roster.evict, List.length_drop]
  omega

theorem mem_of_mem_trim (h : a ∈ (r.trim limit).order) :
    a ∈ r.order :=
  List.mem_of_mem_drop h

theorem trim_of_le (h : r.order.length ≤ limit) :
    r.trim limit = r := by
  have hzero : r.order.length - limit = 0 := by omega
  simp only [Roster.trim, hzero]
  rfl

theorem length_enter_le (r : Roster α) (a : α) :
    (r.enter a).order.length ≤ r.order.length + 1 := by
  unfold Roster.enter
  split
  · omega
  · simp

-- == entering

/-- Who is on the roster after a batch entered. -/
theorem Ordered.mem_enterAll (h : r.Ordered) :
    b ∈ (r.enterAll l).order ↔ b ∈ r.order ∨ b ∈ l := by
  induction l generalizing r with
  | nil => simp [Roster.enterAll]
  | cons a l ih =>
    have hstep : b ∈ (r.enter a).order ↔ b ∈ r.order ∨ b = a := by
      by_cases hmem : a ∈ r.members
      · rw [enter_of_mem hmem]
        constructor
        · exact Or.inl
        · rintro (hb | rfl)
          · exact hb
          · exact h.mem_iff.mp hmem
      · rw [enter_of_not_mem hmem]
        simp
    show b ∈ ((r.enter a).enterAll l).order ↔ _
    rw [ih (h.enter a), hstep, List.mem_cons, or_assoc]

/-- A batch is appended: those of it that were not there. -/
theorem enterAll_order (r : Roster α) (l : List α) :
    ∃ new, (r.enterAll l).order = r.order ++ new ∧ ∀ b ∈ new, b ∈ l := by
  induction l generalizing r with
  | nil => exact ⟨[], by simp [Roster.enterAll], by simp⟩
  | cons a l ih =>
    obtain ⟨new, horder, hnew⟩ := ih (r.enter a)
    have htail : ∀ b ∈ new, b ∈ a :: l := fun b hb =>
      List.mem_cons_of_mem a (hnew b hb)
    by_cases hmem : a ∈ r.members
    · refine ⟨new, ?_, htail⟩
      rw [enter_of_mem hmem] at horder
      show ((r.enter a).enterAll l).order = _
      rw [enter_of_mem hmem, horder]
    · refine ⟨a :: new, ?_, ?_⟩
      · show ((r.enter a).enterAll l).order = _
        rw [horder, enter_of_not_mem hmem]
        simp
      · intro b hb
        rcases List.mem_cons.mp hb with rfl | hb
        · exact List.mem_cons_self
        · exact htail b hb

/-- What a batch appends was not there. -/
theorem Ordered.not_mem_of_enterAll (h : r.Ordered) {new : List α}
    (horder : (r.enterAll l).order = r.order ++ new) (hb : b ∈ new) :
    b ∉ r.members := by
  have hnodup := (h.enterAll l).nodup
  rw [horder, List.nodup_append] at hnodup
  intro hmem
  exact hnodup.2.2 b (h.mem_iff.mp hmem) b hb rfl

theorem length_enterAll_le (r : Roster α) (l : List α) :
    (r.enterAll l).order.length ≤ r.order.length + l.length := by
  induction l generalizing r with
  | nil => simp [Roster.enterAll]
  | cons a l ih =>
    have hrest := ih (r.enter a)
    have hfirst := length_enter_le r a
    show ((r.enter a).enterAll l).order.length ≤ _
    rw [List.length_cons]
    omega

/-- A list without duplicates enters an empty roster as it is. -/
theorem enterAll_order_of_nodup {pre : List α} (h : (pre ++ l).Nodup)
    (hr : r.Ordered) (hpre : r.order = pre) :
    (r.enterAll l).order = pre ++ l := by
  induction l generalizing r pre with
  | nil => simpa [Roster.enterAll] using hpre
  | cons a l ih =>
    have hnot : a ∉ r.members := by
      rw [hr.mem_iff, hpre]
      intro ha
      exact (List.nodup_append.mp h).2.2 a ha a List.mem_cons_self rfl
    have hnext : (r.enter a).order = pre ++ [a] := by
      rw [enter_of_not_mem hnot, hpre]
    have hlist : pre ++ a :: l = (pre ++ [a]) ++ l := by simp
    rw [hlist] at h ⊢
    exact ih h (hr.enter a) hnext

/-- What a batch appends, exactly: the newcomers of it, each once. -/
theorem Ordered.enterAll_newcomers (h : r.Ordered) (l : List α) :
    ∃ new, (r.enterAll l).order = r.order ++ new ∧ new.Nodup
      ∧ ∀ b, b ∈ new ↔ b ∈ l ∧ b ∉ r.members := by
  obtain ⟨new, horder, hnew⟩ := enterAll_order r l
  have hnodup := (h.enterAll l).nodup
  rw [horder, List.nodup_append] at hnodup
  refine ⟨new, horder, hnodup.2.1, fun b => ?_⟩
  constructor
  · intro hb
    exact ⟨hnew b hb, h.not_mem_of_enterAll horder hb⟩
  · intro hb
    have hmem : b ∈ (r.enterAll l).order := h.mem_enterAll.mpr (Or.inr hb.1)
    rw [horder, List.mem_append] at hmem
    exact hmem.resolve_left fun hold => hb.2 (h.mem_iff.mpr hold)

-- == eviction

/-- How many a batch pushes out of a roster with that many places. -/
def overflow (r : Roster α) (l : List α) (limit : Nat) : Nat :=
  r.order.length + (l.toFinset \ r.members).card - limit

/-- A batch that has a place for each of its members pushes out who is in
front, and nobody of its newcomers. -/
theorem Ordered.trim_enterAll (h : r.Ordered) (hl : l.length ≤ limit) :
    ∃ new, ((r.enterAll l).trim limit).order
        = r.order.drop (r.overflow l limit) ++ new
      ∧ ∀ b, b ∈ new ↔ b ∈ l ∧ b ∉ r.members := by
  obtain ⟨new, horder, hnodup, hnew⟩ := h.enterAll_newcomers l
  have hset : new.toFinset = l.toFinset \ r.members := by
    ext b
    rw [List.mem_toFinset, hnew b, Finset.mem_sdiff, List.mem_toFinset]
  have hcount : (l.toFinset \ r.members).card = new.length := by
    rw [← hset, List.toFinset_card_of_nodup hnodup]
  have hfew : new.length ≤ limit := by
    rw [← hcount]
    exact Nat.le_trans (Finset.card_le_card Finset.sdiff_subset)
      (Nat.le_trans (List.toFinset_card_le l) hl)
  refine ⟨new, ?_, hnew⟩
  simp only [Roster.trim, Roster.evict, horder, Roster.overflow, hcount,
    List.length_append]
  rw [List.drop_append_of_le_length (by omega)]

/-- Who of the batch is on the roster after it: all but those who were
among the ones pushed out. -/
theorem Ordered.mem_trim_enterAll (h : r.Ordered) (hl : l.length ≤ limit)
    (hb : b ∈ l) :
    b ∈ ((r.enterAll l).trim limit).order
      ↔ b ∉ r.order.take (r.overflow l limit) := by
  obtain ⟨new, horder, hnew⟩ := h.trim_enterAll hl
  have hsplit := List.take_append_drop (r.overflow l limit) r.order
  rw [horder, List.mem_append]
  by_cases hmem : b ∈ r.members
  · have hin := h.mem_iff.mp hmem
    have hnodup := h.nodup
    rw [← hsplit, List.mem_append] at hin
    rw [← hsplit, List.nodup_append] at hnodup
    constructor
    · intro hleft htake
      rcases hleft with hdrop | hlate
      · exact hnodup.2.2 b htake b hdrop rfl
      · exact ((hnew b).mp hlate).2 hmem
    · intro htake
      exact Or.inl (hin.resolve_left htake)
  · refine iff_of_true (Or.inr ((hnew b).mpr ⟨hb, hmem⟩)) fun htake => ?_
    exact hmem (h.mem_iff.mpr (List.mem_of_mem_take htake))

/-- Everybody behind `a` on the order is in `since`. -/
def Within (a : α) (since : Finset α) (order : List α) : Prop :=
  ∃ pre post, order = pre ++ a :: post ∧ ∀ b ∈ post, b ∈ since

omit [DecidableEq α] in
theorem Within.mem (h : Within a since l) : a ∈ l := by
  obtain ⟨pre, post, rfl, -⟩ := h
  simp

omit [DecidableEq α] in
theorem within_last (l : List α) : Within a ∅ (l ++ [a]) :=
  ⟨l, [], rfl, by simp⟩

omit [DecidableEq α] in
theorem Within.mono {since' : Finset α} (h : Within a since l)
    (hsub : since ⊆ since') : Within a since' l := by
  obtain ⟨pre, post, rfl, hpost⟩ := h
  exact ⟨pre, post, rfl, fun b hb => hsub (hpost b hb)⟩

theorem Within.append {new : Finset α} (h : Within a since l) {extra : List α}
    (hextra : ∀ b ∈ extra, b ∈ new) :
    Within a (since ∪ new) (l ++ extra) := by
  obtain ⟨pre, post, rfl, hpost⟩ := h
  refine ⟨pre, post ++ extra, by simp, ?_⟩
  intro b hb
  rw [Finset.mem_union]
  rcases List.mem_append.mp hb with hb | hb
  · exact Or.inl (hpost b hb)
  · exact Or.inr (hextra b hb)

/-- Dropping from the front keeps `a`, or leaves only members that
entered since. -/
theorem Within.drop (h : Within a since l) (hnodup : l.Nodup) (n : Nat) :
    Within a since (l.drop n)
      ∨ (l.drop n).length ≤ (since.erase a).card := by
  obtain ⟨pre, post, rfl, hpost⟩ := h
  by_cases hn : n ≤ pre.length
  · left
    refine ⟨pre.drop n, post, ?_, hpost⟩
    rw [List.drop_append_of_le_length hn]
  · right
    -- the drop reaches past `a`, so what is left is part of `post`
    obtain ⟨k, hk⟩ : ∃ k, n = pre.length + (k + 1) :=
      ⟨n - pre.length - 1, by omega⟩
    have hleft : (pre ++ a :: post).drop n = post.drop k := by
      rw [hk, List.drop_append]
      simp
    have hparts := (List.nodup_append.mp hnodup).2.1
    rw [List.nodup_cons] at hparts
    rw [hleft]
    calc (post.drop k).length
        ≤ post.length := by simp
      _ = post.toFinset.card := (List.toFinset_card_of_nodup hparts.2).symm
      _ ≤ (since.erase a).card := by
          apply Finset.card_le_card
          intro b hb
          rw [List.mem_toFinset] at hb
          rw [Finset.mem_erase]
          exact ⟨fun hba => hparts.1 (hba ▸ hb), hpost b hb⟩

/-- Trimming keeps `a`, or as many entered since as there are places. -/
theorem Within.trim (h : Within a since r.order) (hr : r.Ordered)
    (limit : Nat) :
    Within a since (r.trim limit).order ∨ limit ≤ (since.erase a).card := by
  by_cases hfits : r.order.length ≤ limit
  · left
    rw [trim_of_le hfits]
    exact h
  · rcases h.drop hr.nodup (r.order.length - limit) with hstays | hgone
    · exact Or.inl hstays
    · right
      rw [List.length_drop] at hgone
      omega

end Roster

end Callbridge.Lib
