/-
What a call of a store operation can do, said once.

A call is refused, finds nothing to do, saves a changed store, or changes
the store and fails to save it without taking the change back.
`StoreMove.of_exec` sorts every call into the four, and only
`SetInitialized` ever lands in the last: any other failed call leaves the
store as it was.
-/
import Callbridge.State.Store

namespace Callbridge.State

open Lib

variable {s s' : Store} {op : StoreOp} {fault : Option SaveFault}
  {e : StoreError} {f : StateFile}

-- == changes

/-- The handles an operation marks. -/
def StoreOp.marks : StoreOp → Option (List Bytes)
  | .markSeen handle => some [handle]
  | .markSeenMany handles => some handles
  | .setInitialized | .addOutbound _ | .takeOutbound => none

/-- The store an operation makes of a store and then saves. -/
inductive Change (s : Store) : StoreOp → Store → Prop
  | initialized (hnot : s.data.initialized = false) :
      Change s .setInitialized
        { s with data := { s.data with initialized := true } }
  | marked {op : StoreOp} {handles : List Bytes}
      (hop : op.marks = some handles)
      (hvalid : ∀ h ∈ handles, validHandle h = true)
      (hnew : ∃ h ∈ handles, h ∉ s.seen) :
      Change s op (s.marked handles)
  | added {item : Outbound} (hvalid : validOutbound item = true)
      (hroom : s.data.outbound.length < maximumOutbound) :
      Change s (.addOutbound item)
        (s.setOutbound (s.data.outbound ++ [item]))
  | taken {item : Outbound} {rest : List Outbound}
      (hqueue : s.data.outbound = item :: rest) :
      Change s .takeOutbound (s.setOutbound rest)

/-- What a call can come to. -/
inductive StoreMove (s : Store) (op : StoreOp) (fault : Option SaveFault) :
    Outcome Unit → Prop
  | refused (e : StoreError) (hop : op ≠ .setInitialized) :
      StoreMove s op fault ⟨.error e, s, none⟩
  | idle (hseen : ∀ handles, op.marks = some handles →
        ∀ h ∈ handles, h ∈ s.seen) :
      StoreMove s op fault ⟨.ok (), s, none⟩
  | saved {s' : Store} {f : StateFile} (hchange : Change s op s')
      (hsave : s'.saveLocked fault = .ok f) :
      StoreMove s op fault ⟨.ok (), s', some f⟩
  | stuck {s' : Store} {e : StoreError} (hop : op = .setInitialized)
      (hchange : Change s op s')
      (hsave : s'.saveLocked fault = .error e) :
      StoreMove s op fault ⟨.error e, s', none⟩

-- == saving and undoing

/-- A commit saves, or undoes and reports. -/
theorem commit_cases {ρ : Type} (s : Store) (fault : Option SaveFault)
    (undo : Store → Store) (r : ρ) :
    (∃ f, s.saveLocked fault = .ok f
        ∧ s.commit fault undo r = ⟨.ok r, s, some f⟩)
      ∨ ∃ e, s.saveLocked fault = .error e
        ∧ s.commit fault undo r = ⟨.error e, undo s, none⟩ := by
  unfold Store.commit
  cases hsave : s.saveLocked fault with
  | ok f => exact Or.inl ⟨f, rfl, rfl⟩
  | error e => exact Or.inr ⟨e, rfl, rfl⟩

@[simp] theorem setOutbound_self (s : Store) :
    s.setOutbound s.data.outbound = s := rfl

@[simp] theorem setOutbound_setOutbound (s : Store) (q q' : List Outbound) :
    (s.setOutbound q).setOutbound q' = s.setOutbound q' := rfl

@[simp] theorem setOutbound_outbound (s : Store) (q : List Outbound) :
    (s.setOutbound q).data.outbound = q := rfl

@[simp] theorem setRoster_self (s : Store) : s.setRoster s.roster = s := rfl

@[simp] theorem setRoster_setRoster (s : Store) (r r' : Roster Bytes) :
    (s.setRoster r).setRoster r' = s.setRoster r' := rfl

@[simp] theorem setRoster_roster (s : Store) (r : Roster Bytes) :
    (s.setRoster r).roster = r := rfl

@[simp] theorem setRoster_seenHandles (s : Store) (r : Roster Bytes) :
    (s.setRoster r).data.seenHandles = r.order := rfl

@[simp] theorem setRoster_seen (s : Store) (r : Roster Bytes) :
    (s.setRoster r).seen = r.members := rfl

@[simp] theorem setRoster_outbound (s : Store) (r : Roster Bytes) :
    (s.setRoster r).data.outbound = s.data.outbound := rfl

@[simp] theorem setRoster_version (s : Store) (r : Roster Bytes) :
    (s.setRoster r).data.version = s.data.version := rfl

/-- The old list and set, put back. -/
theorem marked_setRoster (s : Store) (handles : List Bytes) :
    (s.marked handles).setRoster s.roster = s := by
  unfold Store.marked
  rw [setRoster_setRoster, setRoster_self]

/-- A commit that is undone to the store it started from. -/
theorem StoreMove.of_commit {undo : Store → Store}
    (hop : op ≠ .setInitialized) (hchange : Change s op s')
    (hundo : undo s' = s) :
    StoreMove s op fault (s'.commit fault undo ()) := by
  obtain ⟨f, hsave, ho⟩ | ⟨e, -, ho⟩ := commit_cases s' fault undo ()
  · rw [ho]
    exact .saved hchange hsave
  · rw [ho, hundo]
    exact .refused e hop

-- == the inversion

/-- `SetInitialized` keeps the flag it could not save. -/
theorem StoreMove.of_setInitialized (s : Store)
    (fault : Option SaveFault) :
    StoreMove s .setInitialized fault (s.setInitialized fault) := by
  unfold Store.setInitialized
  split
  · apply StoreMove.idle
    rintro handles hmarks
    cases hmarks
  case isFalse hnot =>
    have hchange : Change s .setInitialized
        { s with data := { s.data with initialized := true } } :=
      Change.initialized (Bool.eq_false_iff.mpr hnot)
    obtain ⟨f, hsave, ho⟩ | ⟨e, hsave, ho⟩ := commit_cases
      { s with data := { s.data with initialized := true } } fault id ()
    · simp only [ho]
      exact .saved hchange hsave
    · simp only [ho]
      exact .stuck rfl hchange hsave

/-- Marking takes back what it could not save. -/
theorem StoreMove.of_markSeenMany {handles : List Bytes}
    (hop : op.marks = some handles) :
    StoreMove s op fault (s.markSeenMany handles fault) := by
  have hne : op ≠ .setInitialized := by
    rintro rfl
    cases hop
  have hidle : (∀ h ∈ handles, h ∈ s.seen) →
      StoreMove s op fault ⟨.ok (), s, none⟩ := by
    intro hall
    apply StoreMove.idle
    intro handles' hmarks
    rw [hop, Option.some.injEq] at hmarks
    exact hmarks ▸ hall
  unfold Store.markSeenMany
  split
  case isTrue hnil =>
    apply hidle
    simp [hnil]
  split
  · exact .refused _ hne
  case isFalse hvalid =>
    split
    case isTrue hall =>
      apply hidle
      simpa using hall
    case isFalse hnew =>
      apply StoreMove.of_commit hne
      · apply Change.marked hop
        · simpa using hvalid
        · simpa using hnew
      · exact marked_setRoster s handles

/-- So does `AddOutbound`. -/
theorem StoreMove.of_addOutbound (s : Store) (item : Outbound)
    (fault : Option SaveFault) :
    StoreMove s (.addOutbound item) fault (s.addOutbound item fault) := by
  unfold Store.addOutbound
  split
  · exact .refused _ (by simp)
  case isFalse hvalid =>
    split
    · exact .refused _ (by simp)
    case isFalse hroom =>
      split
      · apply StoreMove.idle
        rintro handles hmarks
        cases hmarks
      · apply StoreMove.of_commit (by simp)
        · apply Change.added
          · simpa using hvalid
          · omega
        · simp

/-- What `TakeOutbound` can come to, with the item it hands out. -/
theorem takeOutbound_cases (s : Store) (fault : Option SaveFault) :
    (s.data.outbound = []
        ∧ s.takeOutbound fault = ⟨.ok none, s, none⟩)
      ∨ ∃ item rest, s.data.outbound = item :: rest
        ∧ ((∃ f, (s.setOutbound rest).saveLocked fault = .ok f
            ∧ s.takeOutbound fault
              = ⟨.ok (some item), s.setOutbound rest, some f⟩)
          ∨ ∃ e, s.takeOutbound fault = ⟨.error e, s, none⟩) := by
  unfold Store.takeOutbound
  cases hqueue : s.data.outbound with
  | nil => exact Or.inl ⟨rfl, rfl⟩
  | cons item rest =>
    right
    refine ⟨item, rest, rfl, ?_⟩
    have hback : s.setOutbound (item :: rest) = s := by
      rw [← hqueue, setOutbound_self]
    obtain ⟨f, hsave, ho⟩ | ⟨e, -, ho⟩ := commit_cases (s.setOutbound rest)
      fault (fun s => s.setOutbound (item :: rest)) (some item)
    · exact Or.inl ⟨f, hsave, ho⟩
    · refine Or.inr ⟨e, ?_⟩
      rw [setOutbound_setOutbound, hback] at ho
      exact ho

/-- `TakeOutbound` puts back what it could not save. -/
theorem StoreMove.of_takeOutbound (s : Store) (fault : Option SaveFault) :
    StoreMove s .takeOutbound fault (s.exec .takeOutbound fault) := by
  obtain ⟨-, ho⟩ | ⟨item, rest, hqueue, ⟨f, hsave, ho⟩ | ⟨e, ho⟩⟩ :=
    takeOutbound_cases s fault
  · simp only [Store.exec, ho]
    apply StoreMove.idle
    rintro handles hmarks
    cases hmarks
  · simp only [Store.exec, ho]
    exact .saved (.taken hqueue) hsave
  · simp only [Store.exec, ho]
    exact .refused e (by simp)

/-- Every call is one of the four. -/
theorem StoreMove.of_exec (s : Store) (op : StoreOp)
    (fault : Option SaveFault) :
    StoreMove s op fault (s.exec op fault) := by
  cases op with
  | setInitialized => exact of_setInitialized s fault
  | markSeen handle =>
    have hop : (StoreOp.markSeen handle).marks = some [handle] := rfl
    exact of_markSeenMany hop
  | markSeenMany handles =>
    have hop : (StoreOp.markSeenMany handles).marks = some handles := rfl
    exact of_markSeenMany hop
  | addOutbound item => exact of_addOutbound s item fault
  | takeOutbound => exact of_takeOutbound s fault

-- == failed calls

/-- The answers of a store: its flag, its counts, what it has seen. -/
structure SameAnswers (s s' : Store) : Prop where
  initialized : s'.isInitialized = s.isInitialized
  counts : s'.counts = s.counts
  hasSeen : ∀ handle, s'.hasSeen handle = s.hasSeen handle

/-- A failed call leaves the store, and all it answers, as they were,
unless it is a call of `SetInitialized`. -/
theorem failed_call_keeps_store_iff (s : Store) (op : StoreOp)
    (fault : Option SaveFault) (e : StoreError)
    (hfail : (s.exec op fault).result = .error e) :
    ((s.exec op fault).store = s ∧ SameAnswers s (s.exec op fault).store)
      ↔ op ≠ .setInitialized := by
  have hmove := StoreMove.of_exec s op fault
  generalize s.exec op fault = o at hmove hfail ⊢
  cases hmove with
  | refused _ hop =>
    constructor
    · exact fun _ => hop
    · exact fun _ => ⟨rfl, rfl, rfl, fun _ => rfl⟩
  | idle _ | saved _ _ => cases hfail
  | stuck hop hchange _ =>
    subst hop
    cases hchange with
    | marked hmarks _ _ => cases hmarks
    | initialized hnot =>
      -- the flag was clear before the call and is set after it
      constructor
      · rintro ⟨-, hsame⟩
        have hflag := hsame.initialized
        simp [Store.isInitialized, hnot] at hflag
      · intro hne
        exact absurd rfl hne

/-- A machine without legacy files. -/
def noLegacy : LegacyFiles := ⟨.absent, .absent, .absent, .absent⟩

/-- The store of a first start there. -/
def freshStore : Store := ⟨⟨stateVersion, false, [], []⟩, ∅⟩

/-- A mark whose sync fails. -/
theorem failed_call_keeps_store_mark :
    (freshStore.exec (.markSeen [0x61]) (some .sync)).result
        = .error (.save .sync)
      ∧ (((freshStore.exec (.markSeen [0x61]) (some .sync)).store
            = freshStore
          ∧ SameAnswers freshStore
            (freshStore.exec (.markSeen [0x61]) (some .sync)).store)
        ↔ StoreOp.markSeen [0x61] ≠ .setInitialized) :=
  ⟨rfl, failed_call_keeps_store_iff freshStore (.markSeen [0x61])
    (some .sync) (.save .sync) rfl⟩

/-- On a store just opened, a `SetInitialized` whose rename fails reports
the failure and sets the flag; the next call then succeeds without
writing a file. -/
theorem setInitialized_failure_sticks :
    ∃ f, openStore id .absent noLegacy none
        = .ok (freshStore, true, some f)
      ∧ freshStore.isInitialized = false
      ∧ (freshStore.exec .setInitialized (some .rename)).result
        = .error (.save .rename)
      ∧ (freshStore.exec .setInitialized
          (some .rename)).store.isInitialized = true
      ∧ ((freshStore.exec .setInitialized (some .rename)).store.exec
          .setInitialized none).result = .ok ()
      ∧ ((freshStore.exec .setInitialized (some .rename)).store.exec
          .setInitialized none).written = none :=
  ⟨_, rfl, rfl, rfl, rfl, rfl, rfl⟩

end Callbridge.State
