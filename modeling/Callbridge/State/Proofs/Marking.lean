/-
What a batch of handles leaves seen.

`MarkSeenMany` appends the handles it has not seen and drops from the
front what exceeds the bound. A handle of the batch that was seen before
keeps its old place, so the call that marks it may drop it. Every other
handle of the batch is seen after it.
-/
import Callbridge.State.Proofs.Reopen

namespace Callbridge.State

open Lib

variable {s : Store} {handles : List Bytes} {fault : Option SaveFault}
  {l : List Bytes}

-- == the batch

/-- How many handles the new ones of a batch push out. -/
def Store.pushedOut (s : Store) (handles : List Bytes) : Nat :=
  s.roster.overflow handles maximumSeenHandles

theorem enterAll_of_seen {r : Roster Bytes}
    (h : ∀ b ∈ handles, b ∈ r.members) :
    r.enterAll handles = r := by
  induction handles with
  | nil => rfl
  | cons b handles ih =>
    obtain ⟨hb, hrest⟩ := List.forall_mem_cons.mp h
    show (r.enter b).enterAll handles = r
    rw [Roster.enter_of_mem hb, ih hrest]

theorem marked_of_seen (hs : Sound s) (h : ∀ b ∈ handles, b ∈ s.seen) :
    s.marked handles = s := by
  rw [Store.marked, enterAll_of_seen (r := s.roster) h,
    Roster.trim_of_le hs.seenBound, setRoster_self]

/-- A call that succeeds leaves the marked store. -/
theorem markSeenMany_store (hs : Sound s)
    (hok : (s.markSeenMany handles fault).result = .ok ()) :
    (s.markSeenMany handles fault).store = s.marked handles := by
  unfold Store.markSeenMany at hok ⊢
  by_cases hnil : handles = []
  · rw [if_pos hnil]
    exact (marked_of_seen hs (by simp [hnil])).symm
  · rw [if_neg hnil] at hok ⊢
    by_cases hvalid : (!handles.all validHandle) = true
    · rw [if_pos hvalid] at hok
      cases hok
    · rw [if_neg hvalid] at hok ⊢
      by_cases hall : (handles.all fun handle => handle ∈ s.seen) = true
      · rw [if_pos hall]
        exact (marked_of_seen hs (by simpa using hall)).symm
      · rw [if_neg hall] at hok ⊢
        unfold Store.commit at hok ⊢
        cases hsave : (s.marked handles).saveLocked fault with
        | ok f => rfl
        | error e =>
          rw [hsave] at hok
          cases hok

-- == what it leaves

theorem hasSeen_marked (hs : Sound s)
    (hlen : handles.length ≤ maximumSeenHandles) {h : Bytes}
    (hh : h ∈ handles) :
    (s.marked handles).hasSeen h = true
      ↔ h ∉ s.data.seenHandles.take (s.pushedOut handles) := by
  have hordered := (hs.ordered.enterAll handles).trim maximumSeenHandles
  rw [Store.hasSeen, decide_eq_true_eq, Store.marked, setRoster_seen,
    hordered.mem_iff]
  exact hs.ordered.mem_trim_enterAll hlen hh

/-- Where a list without duplicates is cut, everything in front of the cut
comes before everything behind it. -/
theorem idxOf_lt_of_append {front back : List Bytes} {a b : Bytes}
    (hl : l = front ++ back) (hnodup : l.Nodup) (ha : a ∈ front)
    (hb : b ∈ back) : l.idxOf a < l.idxOf b := by
  subst hl
  have hnot : b ∉ front := fun hin =>
    (List.nodup_append.mp hnodup).2.2 b hin b hb rfl
  rw [List.idxOf_append_of_mem ha, List.idxOf_append_of_notMem hnot]
  exact Nat.lt_add_right _ (List.idxOf_lt_length_iff.mpr ha)

/-- The list a batch makes, before and after it is cut. -/
theorem marked_order (hs : Sound s) (handles : List Bytes) :
    ∃ new, (∀ h, h ∈ new ↔ h ∈ handles ∧ h ∉ s.seen)
      ∧ (s.data.seenHandles ++ new).Nodup
      ∧ ∃ dropped, s.data.seenHandles ++ new
        = dropped ++ (s.marked handles).data.seenHandles := by
  obtain ⟨new, horder, -, hnew⟩ := hs.ordered.enterAll_newcomers handles
  have hnodup := (hs.ordered.enterAll handles).nodup
  rw [horder] at hnodup
  refine ⟨new, hnew, hnodup, ?_⟩
  rw [Store.marked, setRoster_seenHandles]
  simp only [Roster.trim, Roster.evict, horder]
  exact ⟨_, (List.take_append_drop _ _).symm⟩

-- == the theorem

section Runs

variable {sha256 : Bytes → Bytes} {disk : Disk} {k : Keeper}
  {tr : List (Trans Keeper KeeperAct KeeperEvent)}

/-- Of every store that a run of its keeper can have, and every batch of
at most 4096 handles whose marking succeeds, as it does for valid ones
only: the handles of the batch are seen afterwards exactly if none of them
was among those that the new ones push out; and a handle that is dropped
from the list stood, with the new ones behind the old, before every handle
that is kept. -/
theorem marked_handles_seen_iff
    (hrun : Exec (keeperStep sha256) ⟨disk, none⟩ tr k)
    (hstore : k.store = some s)
    (hlen : handles.length ≤ maximumSeenHandles)
    (hok : (s.markSeenMany handles fault).result = .ok ()) :
    ((∀ h ∈ handles, (s.markSeenMany handles fault).store.hasSeen h = true)
        ↔ ∀ h ∈ handles,
          h ∉ s.data.seenHandles.take (s.pushedOut handles))
      ∧ ∃ new, (∀ h, h ∈ new ↔ h ∈ handles ∧ h ∉ s.seen)
        ∧ ∀ old ∈ s.data.seenHandles,
          old ∉ (s.markSeenMany handles fault).store.data.seenHandles →
          ∀ kept ∈ (s.markSeenMany handles fault).store.data.seenHandles,
            (s.data.seenHandles ++ new).idxOf old
              < (s.data.seenHandles ++ new).idxOf kept := by
  have hs := keeper_sound hrun s hstore
  rw [markSeenMany_store hs hok]
  constructor
  · exact forall₂_congr fun h hh => hasSeen_marked hs hlen hh
  · obtain ⟨new, hnew, hnodup, dropped, hcut⟩ := marked_order hs handles
    refine ⟨new, hnew, ?_⟩
    intro old hold hgone kept hkept
    have hfront : old ∈ dropped := by
      have hin : old ∈ s.data.seenHandles ++ new :=
        List.mem_append_left _ hold
      rw [hcut, List.mem_append] at hin
      exact hin.resolve_right hgone
    exact idxOf_lt_of_append hcut hnodup hfront hkept

/-- One handle in an empty store. -/
theorem marked_handles_seen_first :
    ∃ tr k s, Exec (keeperStep id) ⟨.absent, none⟩ tr k
      ∧ k.store = some s
      ∧ (s.markSeenMany [[0x31, 0x46]] none).result = .ok ()
      ∧ (s.markSeenMany [[0x31, 0x46]] none).store.hasSeen [0x31, 0x46]
        = true := by
  obtain ⟨tr, k, hrun, hstore⟩ := exec_of_decide (keeperStep id)
    ⟨.absent, none⟩ [.start noLegacy none]
    (fun _ k => k.store = some freshStore) (by decide +kernel)
  have hok : (freshStore.markSeenMany [[0x31, 0x46]] none).result
      = .ok () := rfl
  refine ⟨tr, k, freshStore, hrun, hstore, hok, ?_⟩
  refine (marked_handles_seen_iff hrun hstore (by decide) hok).1.mpr ?_ _
    List.mem_cons_self
  intro h _ htake
  cases (List.mem_of_mem_take htake)

end Runs

-- == a full store

/-- The handle of three hexadecimal digits. -/
def threeDigits (i : Nat) : Bytes :=
  [hexChar (UInt8.ofNat (i / 256)), hexChar (UInt8.ofNat (i / 16 % 16)),
   hexChar (UInt8.ofNat (i % 16))]

theorem hexChar_injective {a b : Nat} (ha : a < 16) (hb : b < 16)
    (h : hexChar (UInt8.ofNat a) = hexChar (UInt8.ofNat b)) : a = b := by
  have hall : ∀ a b : Fin 16, hexChar (UInt8.ofNat a.val)
      = hexChar (UInt8.ofNat b.val) → a.val = b.val := by decide
  exact hall ⟨a, ha⟩ ⟨b, hb⟩ h

theorem isHexDigit_hexChar {a : Nat} (ha : a < 16) :
    isHexDigit (hexChar (UInt8.ofNat a)) = true := by
  have hall : ∀ a : Fin 16, isHexDigit (hexChar (UInt8.ofNat a.val))
      = true := by decide
  exact hall ⟨a, ha⟩

theorem threeDigits_injective {i j : Nat} (hi : i < 4096) (hj : j < 4096)
    (h : threeDigits i = threeDigits j) : i = j := by
  simp only [threeDigits, List.cons.injEq, and_true] at h
  obtain ⟨h₁, h₂, h₃⟩ := h
  have e₁ := hexChar_injective (by omega) (by omega) h₁
  have e₂ := hexChar_injective (by omega) (by omega) h₂
  have e₃ := hexChar_injective (by omega) (by omega) h₃
  omega

theorem validHandle_threeDigits {i : Nat} (hi : i < 4096) :
    validHandle (threeDigits i) = true := by
  simp only [validHandle, threeDigits, List.all_cons, List.all_nil,
    isHexDigit_hexChar (show i / 256 < 16 by omega),
    isHexDigit_hexChar (show i / 16 % 16 < 16 by omega),
    isHexDigit_hexChar (show i % 16 < 16 by omega)]
  rfl

/-- There are as many valid handles as a store holds, of three digits. -/
theorem exists_handles {n : Nat} (hn : n ≤ 4096) :
    ∃ l : List Bytes, l.length = n ∧ l.Nodup
      ∧ ∀ h ∈ l, validHandle h = true ∧ h.length = 3 := by
  have hlt : ∀ i ∈ List.range n, i < 4096 := fun i hi =>
    Nat.lt_of_lt_of_le (List.mem_range.mp hi) hn
  refine ⟨(List.range n).map threeDigits, ?_, ?_, ?_⟩
  · rw [List.length_map, List.length_range]
  · exact List.nodup_range.map_on fun i hi j hj =>
      threeDigits_injective (hlt i hi) (hlt j hj)
  · intro h hh
    obtain ⟨i, hi, rfl⟩ := List.mem_map.mp hh
    exact ⟨validHandle_threeDigits (hlt i hi), rfl⟩

/-- The store with these handles. -/
def storeOf (l : List Bytes) : Store :=
  ⟨⟨stateVersion, true, l, []⟩, l.toFinset⟩

theorem sound_storeOf (hlen : l.length ≤ 4096) (hnodup : l.Nodup)
    (hvalid : ∀ h ∈ l, validHandle h = true) :
    Sound (storeOf l) where
  version := rfl
  ordered := ⟨hnodup, rfl⟩
  handles := hvalid
  seenBound := hlen
  items item hitem := by cases hitem
  outboundBound := Nat.zero_le _

/-- One new handle pushes out one of a full store. -/
theorem pushedOut_full {old new : Bytes} (hlen : l.length = 4096)
    (hold : old ∈ l) (hnew : new ∉ l) :
    (storeOf l).pushedOut [old, new] = 1 := by
  have hset : [old, new].toFinset \ l.toFinset = {new} := by
    ext h
    rw [Finset.mem_sdiff, List.mem_toFinset, List.mem_toFinset,
      Finset.mem_singleton]
    constructor
    · intro hh
      obtain ⟨hin, hnot⟩ := hh
      rcases List.mem_cons.mp hin with rfl | hin
      · exact absurd hold hnot
      · exact List.mem_singleton.mp hin
    · rintro rfl
      exact ⟨by simp, hnew⟩
  show l.length + ([old, new].toFinset \ l.toFinset).card - 4096 = 1
  rw [hlen, hset, Finset.card_singleton]

/-- A batch of the oldest handle of a full store and a new one succeeds,
and the oldest handle is not seen afterwards. -/
theorem marked_handle_pushed_out :
    ∃ disk tr k s old new, Exec (keeperStep id) ⟨disk, none⟩ tr k
      ∧ k.store = some s
      ∧ (∀ h ∈ [old, new], validHandle h = true)
      ∧ (s.markSeenMany [old, new] none).result = .ok ()
      ∧ (s.markSeenMany [old, new] none).store.hasSeen old = false := by
  obtain ⟨l, hlen, hnodup, hl⟩ := exists_handles (Nat.le_refl 4096)
  have hsound : Sound (storeOf l) :=
    sound_storeOf (Nat.le_of_eq hlen) hnodup fun h hh => (hl h hh).1
  have hload : load (.file (stateFile (storeOf l).data))
      = .ok (storeOf l) :=
    hsound.load_self (by intro item hitem; cases hitem)
  have hstart : keeperStep id ⟨.file (stateFile (storeOf l).data), none⟩
      (.start noLegacy none)
      = some (⟨.file (stateFile (storeOf l).data), some (storeOf l)⟩,
        []) := by
    simp [keeperStep, openStore, hload, Disk.after]
  -- a full store; mark its oldest handle again with a new one
  obtain ⟨old, rest, rfl⟩ : ∃ old rest, l = old :: rest := by
    cases l with
    | nil => cases hlen
    | cons old rest => exact ⟨old, rest, rfl⟩
  have hnew : [0x30] ∉ old :: rest := fun hin => by
    cases (hl _ hin).2
  have hvalid : ∀ h ∈ [old, [0x30]], validHandle h = true := by
    intro h hh
    rcases List.mem_cons.mp hh with rfl | hh
    · exact (hl _ List.mem_cons_self).1
    · rw [List.mem_singleton.mp hh]
      decide
  have hok : ((storeOf (old :: rest)).markSeenMany [old, [0x30]]
      none).result = .ok () := by
    have hall : [old, [0x30]].all validHandle = true :=
      List.all_eq_true.mpr hvalid
    have hunseen : ¬ ([old, [0x30]].all
        fun handle => handle ∈ (storeOf (old :: rest)).seen) = true := by
      rw [List.all_eq_true]
      intro h
      have hone := of_decide_eq_true (h [0x30] (by simp))
      exact hnew (List.mem_toFinset.mp hone)
    unfold Store.markSeenMany
    rw [if_neg (List.cons_ne_nil _ _), hall, if_neg (by decide),
      if_neg hunseen]
    rfl
  refine ⟨_, _, _, storeOf (old :: rest), old, [0x30],
    Exec.single hstart, rfl, hvalid, hok, ?_⟩
  rw [markSeenMany_store hsound hok, ← Bool.not_eq_true]
  intro hseen
  have hshort : [old, [0x30]].length ≤ maximumSeenHandles :=
    show 2 ≤ 4096 by decide
  -- the new handle takes the place of the oldest
  refine (hasSeen_marked hsound hshort List.mem_cons_self).mp hseen ?_
  rw [pushedOut_full hlen List.mem_cons_self hnew]
  exact List.mem_cons_self

end Callbridge.State
