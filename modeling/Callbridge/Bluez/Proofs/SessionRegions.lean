/-
What each locked region does to the active session and its record: the
two regions that BlueZ starts by itself (`clear` and an idle signal), the
end of a release, and the regions addressed to a session. Everything else
that is proved of sessions splits on the inductive of the region and does
not unfold it.
-/
import Callbridge.Bluez.Proofs.Regions

namespace Callbridge.Bluez

open Lib

variable {b : Broker} {sid : SessionId} {s : Session} {es : List Event}

-- == the active session

/-- The active session is the installed one of that number. -/
theorem active_eq_some :
    b.active = some (sid, s)
      ↔ b.activeSession = some sid ∧ b.sessions[sid]? = some s := by
  unfold Broker.active
  cases b.activeSession with
  | none => simp
  | some current =>
    simp only [Option.map_eq_some_iff, Prod.mk.injEq, Option.some.injEq]
    constructor
    · intro h
      obtain ⟨s', hs', rfl, rfl⟩ := h
      exact ⟨rfl, hs'⟩
    · intro h
      obtain ⟨rfl, hs⟩ := h
      exact ⟨s, hs, rfl, rfl⟩

theorem length_of_active (h : b.active = some (sid, s)) :
    sid < b.sessions.length :=
  (List.getElem?_eq_some_iff.mp (active_eq_some.mp h).2).1

theorem modify_eq_set {l : List Session} {f : Session → Session}
    (h : l[sid]? = some s) : l.modify sid f = l.set sid (f s) := by
  rw [List.modify_eq_set_getElem?, h]
  rfl

theorem active_updateSession (h : b.active = some (sid, s))
    (f : Session → Session) :
    (b.updateSession sid f).active = some (sid, f s) := by
  obtain ⟨ha, hs⟩ := active_eq_some.mp h
  refine active_eq_some.mpr ⟨ha, ?_⟩
  show (b.sessions.modify sid f)[sid]? = some (f s)
  rw [List.getElem?_modify, hs]
  simp

theorem sessions_updateSession (h : b.active = some (sid, s))
    (f : Session → Session) :
    (b.updateSession sid f).sessions = b.sessions.set sid (f s) :=
  modify_eq_set (active_eq_some.mp h).2

/-- A session accepts while it is active and no release has begun. -/
theorem accepting_iff :
    b.accepting sid s = true
      ↔ b.activeSession = some sid ∧ s.releasing = false
        ∧ s.releaseExhausted = false := by
  unfold Broker.accepting
  simp [and_assoc]

/-- The broker with this record of the session. -/
def Broker.withRecord (b : Broker) (sid : SessionId) (s : Session) :
    Broker :=
  { b with sessions := b.sessions.set sid s }

/-- The broker after its active session, with this record, has ended. -/
def Broker.ended (b : Broker) (sid : SessionId) (s : Session) : Broker :=
  { b with
    acquired := (b.acquired.erase s.sinkPath).erase s.sourcePath
    activeSession := none
    sessions := b.sessions.set sid s.signalDone }

/-- Updating the active session replaces its record. -/
theorem updateSession_eq (h : b.active = some (sid, s))
    (f : Session → Session) :
    b.updateSession sid f = b.withRecord sid (f s) := by
  unfold Broker.updateSession Broker.withRecord
  rw [modify_eq_set (active_eq_some.mp h).2]

theorem active_withRecord {s' : Session} (h : b.active = some (sid, s)) :
    (b.withRecord sid s').active = some (sid, s') := by
  refine active_eq_some.mpr ⟨(active_eq_some.mp h).1, ?_⟩
  exact List.getElem?_set_self (length_of_active h)

/-- What ends a session overwrites its record. -/
theorem ended_withRecord (b : Broker) (sid : SessionId) (s s' : Session) :
    (b.withRecord sid s').ended sid s = b.ended sid s := by
  unfold Broker.ended Broker.withRecord
  rw [List.set_set]

/-- Clearing the session that is active. -/
theorem clearActiveSessionLocked_eq (h : b.active = some (sid, s)) :
    b.clearActiveSessionLocked sid = b.ended sid s := by
  unfold Broker.clearActiveSessionLocked
  rw [h]
  simp only [if_true]
  rw [modify_eq_set (active_eq_some.mp h).2]
  rfl

/-- Clearing a session that is not active does nothing. -/
theorem clearActiveSessionLocked_of_ne (h : b.activeSession ≠ some sid) :
    b.clearActiveSessionLocked sid = b := by
  unfold Broker.clearActiveSessionLocked
  cases ha : b.active with
  | none => rfl
  | some c =>
    obtain ⟨current, s⟩ := c
    have hne : current ≠ sid := by
      intro he
      subst he
      exact h (active_eq_some.mp ha).1
    exact if_neg hne

-- == regions BlueZ starts

/-- What `clear` leaves of the broker. -/
inductive ClearRegion (b : Broker) (path : ObjectPath) : Broker → Prop
  | passed : ClearRegion b path (b.forget path)
  | ended {sid : SessionId} {s : Session} : b.active = some (sid, s) →
      ClearRegion b path ((b.forget path).ended sid s)

/-- Every `clear` is one of these. -/
theorem ClearRegion.of_clear (b : Broker) (path : ObjectPath) :
    ClearRegion b path (b.clear path).1 := by
  unfold Broker.clear
  cases ha : b.active with
  | none => exact .passed
  | some c =>
    obtain ⟨sid, s⟩ := c
    have hf : (b.forget path).active = some (sid, s) := ha
    simp only
    split
    case isFalse => exact .passed
    case isTrue =>
      rw [clearActiveSessionLocked_eq hf]
      exact .ended ha

/-- What an idle signal does: it takes the flags of its path, and where
the path concerns the active session the record keeps it. With both ends
in the record the session completes, unless its release is running. -/
inductive IdleRegion (b : Broker) (path : ObjectPath) :
    Broker × List Event → Prop
  | passed : IdleRegion b path (b.dropFlags path, [.idle path])
  | noted {sid : SessionId} {s s' : Session} :
      b.active = some (sid, s) →
      s' = s.withIdle path ∨ s' = (s.withIdle path).seeRemoteIdle →
      IdleRegion b path
        ((b.dropFlags path).withRecord sid s', [.idle path])
  | completed {sid : SessionId} {s : Session} {stats : Stats} :
      b.active = some (sid, s) → s.releasing = false →
      (s.withIdle path).allRemoteIdle = true →
      stats.transportIdleComplete = b.stats.transportIdleComplete + 1 →
      IdleRegion b path
        ({ (b.dropFlags path).ended sid (s.withIdle path) with
            stats := stats }, [.idle path, .idleCompleted sid])

/-- Every idle signal is one of these. -/
theorem IdleRegion.of_signal (b : Broker) (path : ObjectPath) :
    IdleRegion b path (b.idleSignal path) := by
  unfold Broker.idleSignal
  cases ha : b.active with
  | none => exact .passed
  | some c =>
    obtain ⟨sid, s⟩ := c
    have hf : (b.dropFlags path).active = some (sid, s) := ha
    simp only
    split
    case isFalse => exact .passed
    case isTrue =>
      unfold Broker.noteIdle
      rw [updateSession_eq hf, updateSession_eq hf]
      -- `noteIdle` writes the record first and then asks for both ends
      split
      case isFalse => exact .noted ha (Or.inl rfl)
      case isTrue hall =>
        split
        case isTrue => exact .noted ha (Or.inr rfl)
        case isFalse hrel =>
          -- the record that is ended is the one just written
          have hr : (((b.dropFlags path).withRecord sid
              (s.withIdle path)).countIdleComplete s.normalEndSeen).active
                = some (sid, s.withIdle path) := active_withRecord hf
          rw [clearActiveSessionLocked_eq hr]
          show IdleRegion b path ({ ((b.dropFlags path).withRecord sid
            (s.withIdle path)).ended sid (s.withIdle path) with
              stats := _ }, _)
          rw [ended_withRecord]
          exact .completed ha (Bool.eq_false_iff.mpr hrel) hall rfl

-- == regions on a session

/-- The session is the same, has heard the same and is as near to its
release. -/
structure GoesOn (s s' : Session) : Prop where
  sinkPath : s'.sinkPath = s.sinkPath
  sourcePath : s'.sourcePath = s.sourcePath
  idlePaths : s'.idlePaths = s.idlePaths
  releasing : s'.releasing = s.releasing
  exhausted : s'.releaseExhausted = s.releaseExhausted

/-- What a region on a session does to the world. All of them but the end
of a release count no idle completion. -/
inductive SessionRegion (w : World) (sid : SessionId) (s : Session) :
    World → List Event → Prop
  | count {stats : Stats} :
      stats.transportIdleComplete = w.broker.stats.transportIdleComplete →
      SessionRegion w sid s
        { w with broker := { w.broker with stats := stats } } []
  | touch {f : Session → Session} {stats : Stats} :
      w.broker.accepting sid s = true → GoesOn s (f s) →
      stats.transportIdleComplete = w.broker.stats.transportIdleComplete →
      SessionRegion w sid s
        { w with
          broker := { w.broker.updateSession sid f with stats := stats } } []
  | start {stats : Stats} :
      w.broker.accepting sid s = true →
      stats.transportIdleComplete = w.broker.stats.transportIdleComplete →
      SessionRegion w sid s
        { w with
          broker := { w.broker.updateSession sid Session.startRelease with
            stats := stats }
          releases := sid :: w.releases } [.releaseStarted sid]
  | finish (ok : Bool) : sid ∈ w.releases →
      SessionRegion w sid s
        { w with
          broker := (w.broker.finishRelease sid s ok).1
          releases := w.releases.erase sid }
        (w.broker.finishRelease sid s ok).2

/-- Every region on a session is one of these. -/
theorem SessionRegion.of_step {w w' : World} {sid : SessionId} {s : Session}
    {act : SessionAct} (h : sessionStep w sid s act = some (w', es)) :
    SessionRegion w sid s w' es := by
  have hend : ∀ e, ∃ stats,
      w.broker.countNormalEnd e = { w.broker with stats := stats }
        ∧ stats.transportIdleComplete
          = w.broker.stats.transportIdleComplete := by
    intro e
    cases e with
    | true | false => exact ⟨_, rfl, rfl⟩
  cases act with
  | progress progress now =>
    cases h
    unfold Broker.recordLifecycleProgress
    split
    case isTrue hg =>
      exact .touch (f := fun s => s.progress now)
        (Bool.and_eq_true_iff.mp hg).1 ⟨rfl, rfl, rfl, rfl, rfl⟩ rfl
    case isFalse => exact .count rfl
  | checkNormalEnd identity =>
    cases h
    unfold Broker.checkLifecycleNormalEnd
    split <;> exact .count rfl
  -- the counter of normal ends moves before the checks
  | markNormal e =>
    obtain ⟨stats, he, hidle⟩ := hend e
    cases h
    unfold Broker.markNormalReleasePending
    rw [he]
    split
    case isFalse => exact .count rfl
    case isTrue hacc =>
      split
      case isTrue => exact .count hidle
      case isFalse =>
        exact .touch (f := Session.markNormalEnd) hacc
          ⟨rfl, rfl, rfl, rfl, rfl⟩ hidle
  | beginWait e =>
    obtain ⟨stats, he, hidle⟩ := hend e
    cases h
    unfold Broker.beginNormalReleaseWait
    rw [he]
    split
    case isFalse => exact .count rfl
    case isTrue hacc =>
      split
      case isTrue => exact .count hidle
      case isFalse =>
        split
        case isTrue =>
          exact .touch (f := fun s => s.noteNormalEnd e) hacc
            ⟨rfl, rfl, rfl, rfl, rfl⟩ hidle
        case isFalse =>
          exact .touch (f := fun s => s.startWait e) hacc
            ⟨rfl, rfl, rfl, rfl, rfl⟩ hidle
  | forceTimeout =>
    cases h
    unfold Broker.forceNormalReleaseTimeout
    split
    case isTrue hg => exact .start (Bool.and_eq_true_iff.mp hg).1 rfl
    case isFalse => exact .count rfl
  | requestRelease =>
    cases h
    unfold Broker.requestSpecificSessionRelease
    split
    case isTrue hacc => exact .start hacc rfl
    case isFalse => exact .count rfl
  | finishRelease ok =>
    simp only [sessionStep] at h
    split at h
    case isFalse => cases h
    case isTrue hin =>
      cases h
      exact .finish ok hin

/-- What the end of a release does, given the session's record. -/
inductive FinishRegion (b : Broker) (sid : SessionId) (s : Session) :
    Bool → Broker × List Event → Prop
  | detached (ok : Bool) : b.activeSession ≠ some sid →
      FinishRegion b sid s ok (b, [.releaseReturned sid ok])
  | released : b.active = some (sid, s) →
      FinishRegion b sid s true
        (b.ended sid s, [.releaseReturned sid true])
  | exhausted : b.active = some (sid, s) →
      FinishRegion b sid s false
        (b.withRecord sid s.exhaustRelease, [.releaseReturned sid false])
  | idled {stats : Stats} : b.active = some (sid, s) →
      stats.transportIdleComplete = b.stats.transportIdleComplete + 1 →
      FinishRegion b sid s false
        ({ b.ended sid s with stats := stats },
          [.releaseReturned sid false, .idleCompleted sid])

/-- Every end of a release is one of these. -/
theorem FinishRegion.of_finish (hs : b.sessions[sid]? = some s)
    (ok : Bool) : FinishRegion b sid s ok (b.finishRelease sid s ok) := by
  unfold Broker.finishRelease
  by_cases hact : b.activeSession = some sid
  · have ha := active_eq_some.mpr ⟨hact, hs⟩
    cases ok with
    | true =>
      rw [if_pos rfl, clearActiveSessionLocked_eq ha]
      exact .released ha
    | false =>
      -- a failed release: with both ends idle the session completes
      simp only [Bool.false_eq_true, if_false, if_pos hact]
      split
      case isTrue =>
        have hc : (b.countIdleComplete false).active = some (sid, s) := ha
        rw [clearActiveSessionLocked_eq hc]
        exact .idled ha rfl
      case isFalse =>
        rw [updateSession_eq ha]
        exact .exhausted ha
  · cases ok with
    | true =>
      rw [if_pos rfl, clearActiveSessionLocked_of_ne hact]
      exact .detached true hact
    | false =>
      simp only [Bool.false_eq_true, if_false, if_neg hact]
      exact .detached false hact

end Callbridge.Bluez
