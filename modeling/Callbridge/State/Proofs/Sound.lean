/-
What holds of every store (`Sound`): the list of seen handles and the set
beside it name the same handles, each once, all of them valid, and the two
bounds are kept. The operations keep it, and opening a store establishes
it, from any file or any legacy files. `Window` is the loop invariant of
the legacy import.
-/
import Callbridge.State.Proofs.StoreMoves

namespace Callbridge.State

open Lib

variable {s s' : Store} {op : StoreOp} {fault : Option SaveFault}
  {d : DiskState} {queue : List Outbound}

structure Sound (s : Store) : Prop where
  version : s.data.version = stateVersion
  ordered : s.roster.Ordered
  handles : ∀ h ∈ s.data.seenHandles, validHandle h = true
  seenBound : s.data.seenHandles.length ≤ maximumSeenHandles
  items : ∀ item ∈ s.data.outbound, validOutbound item = true
  outboundBound : s.data.outbound.length ≤ maximumOutbound

theorem Sound.mem_seen (hs : Sound s) {h : Bytes}
    (hmem : h ∈ s.data.seenHandles) : h ∈ s.seen :=
  hs.ordered.mem_iff.mpr hmem

-- == operations

/-- After a batch the list holds nothing but what it held and the batch. -/
theorem mem_marked (hs : s.roster.Ordered) {handles : List Bytes}
    {h : Bytes} (hmem : h ∈ (s.marked handles).data.seenHandles) :
    h ∈ s.data.seenHandles ∨ h ∈ handles := by
  rw [Store.marked, setRoster_seenHandles] at hmem
  exact hs.mem_enterAll.mp (Roster.mem_of_mem_trim hmem)

/-- Marking keeps the list and the set together. -/
theorem Sound.marked (hs : Sound s) {handles : List Bytes}
    (hvalid : ∀ h ∈ handles, validHandle h = true) :
    Sound (s.marked handles) where
  version := by
    rw [Store.marked, setRoster_version]
    exact hs.version
  ordered := by
    rw [Store.marked, setRoster_roster]
    exact (hs.ordered.enterAll handles).trim _
  handles h hmem := by
    rcases mem_marked hs.ordered hmem with hold | hnew
    · exact hs.handles h hold
    · exact hvalid h hnew
  seenBound := by
    rw [Store.marked, setRoster_seenHandles]
    exact Roster.length_trim_le _ _
  items := by
    rw [Store.marked, setRoster_outbound]
    exact hs.items
  outboundBound := by
    rw [Store.marked, setRoster_outbound]
    exact hs.outboundBound

/-- A store with another queue is as sound as the queue. -/
theorem Sound.setOutbound (hs : Sound s)
    (hitems : ∀ item ∈ queue, validOutbound item = true)
    (hbound : queue.length ≤ maximumOutbound) :
    Sound (s.setOutbound queue) :=
  ⟨hs.version, hs.ordered, hs.handles, hs.seenBound, hitems, hbound⟩

/-- Every change keeps the store sound. -/
theorem Sound.change (hs : Sound s) (h : Change s op s') : Sound s' := by
  cases h with
  | initialized _ =>
    exact ⟨hs.version, hs.ordered, hs.handles, hs.seenBound, hs.items,
      hs.outboundBound⟩
  | marked _ hvalid _ => exact hs.marked hvalid
  | @added item hvalid hroom =>
    apply hs.setOutbound
    · intro i hi
      rcases List.mem_append.mp hi with hi | hi
      · exact hs.items i hi
      · rw [List.mem_singleton] at hi
        exact hi ▸ hvalid
    · simp only [List.length_append, List.length_singleton]
      omega
  | @taken item rest hqueue =>
    have hbound := hs.outboundBound
    rw [hqueue, List.length_cons] at hbound
    apply hs.setOutbound
    · intro i hi
      apply hs.items i
      rw [hqueue]
      exact List.mem_cons_of_mem item hi
    · omega

/-- Whatever a call comes to, the store stays sound. -/
theorem Sound.move {o : Outcome Unit} (hs : Sound s)
    (h : StoreMove s op fault o) : Sound o.store := by
  cases h with
  | refused _ _ | idle _ => exact hs
  | saved hchange _ | stuck _ hchange _ => exact hs.change hchange

-- == opening

/-- The bounds and items a state must have before its set is rebuilt. -/
structure Loadable (d : DiskState) : Prop where
  version : d.version = stateVersion
  seenBound : d.seenHandles.length ≤ maximumSeenHandles
  items : ∀ item ∈ d.outbound, validOutbound item = true
  outboundBound : d.outbound.length ≤ maximumOutbound

/-- What `load` accepts is sound. -/
theorem Loadable.sound (hd : Loadable d) : Sound (rebuildSeen d) := by
  have hordered : (Roster.empty.enterAll
      (d.seenHandles.filter validHandle)).Ordered :=
    Roster.ordered_empty.enterAll _
  constructor
  case version => exact hd.version
  case ordered => exact hordered
  case handles =>
    intro h hmem
    have hfiltered := Roster.ordered_empty.mem_enterAll.mp hmem
    simp only [Roster.empty, List.not_mem_nil, false_or,
      List.mem_filter] at hfiltered
    exact hfiltered.2
  case seenBound =>
    have hlen := Roster.length_enterAll_le Roster.empty
      (d.seenHandles.filter validHandle)
    have hfilter := List.length_filter_le validHandle d.seenHandles
    have hbound := hd.seenBound
    have hempty : (Roster.empty : Roster Bytes).order.length = 0 := rfl
    show (Roster.empty.enterAll _).order.length ≤ _
    omega
  case items => exact hd.items
  case outboundBound => exact hd.outboundBound

/-- What `load` requires of a file. -/
theorem load_ok {disk : Disk} (h : load disk = .ok s) :
    ∃ d : Document, Loadable d.val ∧ s = rebuildSeen d.val := by
  cases disk with
  | absent | unreadable => cases h
  | file f =>
    simp only [load, bind_eq_ok, check_eq_ok, require_eq_ok, pure,
      Except.pure, Except.ok.injEq, Bool.and_eq_true, beq_iff_eq,
      decide_eq_true_eq, List.all_eq_true] at h
    obtain ⟨-, -, -, -, d, -, -, -, -, ⟨⟨hversion, hseen⟩, hqueue⟩, -,
      hitems, hs⟩ := h
    exact ⟨d, ⟨hversion, hseen, hitems, hqueue⟩, hs.symm⟩

-- == legacy

/-- The legacy window: ordered, valid and within the bound. -/
structure Window (r : Roster Bytes) : Prop where
  ordered : r.Ordered
  handles : ∀ h ∈ r.order, validHandle h = true
  bound : r.order.length ≤ maximumSeenHandles

/-- A handle enters the window, or moves nothing. -/
theorem Window.add {r : Roster Bytes} (hr : Window r) (h : Bytes) :
    Window (addLegacy r h) := by
  unfold addLegacy
  split
  · exact hr
  case isFalse hvalid =>
    split
    · exact hr
    case isFalse hnew =>
      have hentered := hr.ordered.enter h
      have hhandles : ∀ k ∈ (r.enter h).order, validHandle k = true := by
        rw [Roster.enter_of_not_mem hnew]
        intro k hk
        rcases List.mem_append.mp hk with hk | hk
        · exact hr.handles k hk
        · rw [List.mem_singleton] at hk
          simpa [hk] using hvalid
      have hlen := Roster.length_enter_le r h
      have hbound := hr.bound
      show Window (if _ then (r.enter h).evict 1 else r.enter h)
      split
      · refine ⟨hentered.evict 1, ?_, ?_⟩
        · exact fun k hk => hhandles k (List.mem_of_mem_drop hk)
        · simp only [Roster.evict, List.length_drop]
          omega
      · refine ⟨hentered, hhandles, ?_⟩
        omega

theorem window_addAll {r : Roster Bytes} (hr : Window r)
    (handles : List Bytes) : Window (handles.foldl addLegacy r) := by
  induction handles generalizing r with
  | nil => exact hr
  | cons h handles ih => exact ih (hr.add h)

theorem window_empty : Window Roster.empty :=
  ⟨Roster.ordered_empty, by simp [Roster.empty], by simp [Roster.empty]⟩

section Queue

variable (sha256 : Bytes → Bytes)

/-- The queue grows by at most one item at a time, and only below the
bound. -/
theorem length_legacyQueue_le (index : Nat) (rows : List QueueRow)
    (h : queue.length ≤ maximumOutbound) :
    (legacyQueue sha256 index rows queue).length ≤ maximumOutbound := by
  induction rows generalizing index queue with
  | nil => exact h
  | cons row rows ih =>
    unfold legacyQueue
    split
    · apply ih
      have hone : (legacyItem sha256 index row).toList.length ≤ 1 := by
        cases legacyItem sha256 index row <;> simp
      simp only [List.length_append]
      omega
    · exact h

/-- Every item of the imported queue is one some row gave. -/
theorem legacyQueue_induction {P : Outbound → Prop}
    (hitem : ∀ index row item, legacyItem sha256 index row = some item →
      P item) (index : Nat) (rows : List QueueRow)
    (h : ∀ item ∈ queue, P item) :
    ∀ item ∈ legacyQueue sha256 index rows queue, P item := by
  induction rows generalizing index queue with
  | nil => exact h
  | cons row rows ih =>
    unfold legacyQueue
    split
    · apply ih
      intro item hmem
      rcases List.mem_append.mp hmem with hmem | hmem
      · exact h item hmem
      · rw [Option.mem_toList] at hmem
        exact hitem index row item hmem
    · exact h

theorem legacyItem_valid {index : Nat} {row : QueueRow} {item : Outbound}
    (h : legacyItem sha256 index row = some item) :
    validOutbound item = true := by
  unfold legacyItem at h
  split at h
  · cases h
  · simp only [Option.ite_none_right_eq_some, Option.some.injEq] at h
    exact h.2 ▸ h.1

/-- What an import yields, whatever the legacy files hold. -/
theorem importLegacy_ok {legacy : LegacyFiles}
    (h : importLegacy sha256 legacy = .ok d) :
    Loadable d ∧ ∃ rows, d.outbound = legacyQueue sha256 0 rows [] := by
  simp only [importLegacy, bind_eq_ok, pure, Except.pure,
    Except.ok.injEq] at h
  obtain ⟨seenFile, -, messageLog, -, forwardState, -, outboundQueue, -,
    rfl⟩ := h
  constructor
  · constructor
    · rfl
    · exact (window_addAll window_empty _).bound
    · exact legacyQueue_induction sha256
        (fun _ _ _ => legacyItem_valid sha256) _ _ (by simp)
    · exact length_legacyQueue_le sha256 _ _ (by simp)
  · exact ⟨_, rfl⟩

/-- `Open` loads a file, or imports and saves where there is none. -/
theorem openStore_ok {disk : Disk} {legacy : LegacyFiles}
    {imported : Bool} {written : Option StateFile}
    (h : openStore sha256 disk legacy fault = .ok (s, imported, written)) :
    (load disk = .ok s ∧ written = none)
      ∨ ∃ d f, load disk = .error .notExist
        ∧ importLegacy sha256 legacy = .ok d ∧ s = rebuildSeen d
        ∧ s.saveLocked fault = .ok f ∧ written = some f := by
  unfold openStore at h
  split at h
  case h_1 s₁ hload =>
    obtain ⟨rfl, -, rfl⟩ := h
    exact Or.inl ⟨hload, rfl⟩
  case h_2 hload =>
    simp only [bind_eq_ok, pure, Except.pure, Except.ok.injEq,
      Prod.mk.injEq] at h
    obtain ⟨d, himport, f, hsave, rfl, -, rfl⟩ := h
    exact Or.inr ⟨d, f, hload, himport, rfl, hsave, rfl⟩
  case h_3 => cases h

end Queue

end Callbridge.State
