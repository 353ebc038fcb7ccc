/-
What one step of the broker can do to its sessions, said once: the active
session, the list of all sessions, the releases in flight, and what the
step reports about them. Everything proved about sessions afterwards
splits on `SessionMove` and never unfolds a region again.
-/
import Callbridge.Bluez.Proofs.SessionRegions

namespace Callbridge.Bluez

open Lib

variable {b b' : Broker} {w w' : World} {sid : SessionId} {s : Session}
  {es : List Event} {id : AcquireId}

-- == reports

/-- What an event says about a session. -/
inductive Report where
  | started
  | released
  | failed
  | idle
  deriving DecidableEq

/-- The session an event is about, with what it says. -/
def Event.report : Event → Option (SessionId × Report)
  | .releaseStarted sid => some (sid, .started)
  | .releaseReturned sid true => some (sid, .released)
  | .releaseReturned sid false => some (sid, .failed)
  | .idleCompleted sid => some (sid, .idle)
  | _ => none

/-- Upkeep is not about sessions. -/
theorem report_upkeep (e : Event) (h : e.isUpkeep = true) :
    e.report = none := by
  cases e <;> first | rfl | cases h

-- == regions that leave them

/-- How many sessions the broker has counted as remotely idle. -/
def Broker.idleComplete (b : Broker) : UInt64 :=
  b.stats.transportIdleComplete

/-- The region leaves the sessions, the active one and the count of idle
completions as they are. -/
def SameSessions (b b' : Broker) : Prop :=
  b'.activeSession = b.activeSession ∧ b'.sessions = b.sessions
    ∧ b'.idleComplete = b.idleComplete

theorem SameSessions.refl : SameSessions b b := ⟨rfl, rfl, rfl⟩

/-- A configuration leaves the sessions. -/
theorem sameSessions_configure (valid : Bool) (path : ObjectPath)
    (direction : Direction) (codec : CodecConfig) (qos : TransportQoS) :
    SameSessions b (b.configure valid path direction codec qos).1
      ∧ (b.configure valid path direction codec qos).2.filterMap
          Event.report = [] := by
  unfold Broker.configure
  cases b.configureRefused valid path with
  | some e => exact ⟨SameSessions.refl, rfl⟩
  | none =>
    refine ⟨SameSessions.refl, ?_⟩
    show (b.closeHeld path).filterMap Event.report = []
    exact filterMap_upkeep report_upkeep (upkeep_closeHeld b path)

/-- No statistic that is only counted is the count of idle
completions. -/
theorem sameSessions_statistic (k : Statistic) :
    SameSessions b (b.statistic k) := by
  refine ⟨rfl, rfl, ?_⟩
  show (b.stats.count b k).transportIdleComplete = _
  cases k with
  | releaseAttempt => rfl
  | releaseOutcome ok => cases ok <;> rfl
  | releaseFallback => rfl
  | lifecycleHUP sid | startTimeout sid | leaseTimeout sid =>
    simp only [Stats.count]; split <;> rfl

-- == the active session

/-- The active session is an installed one. -/
def ActiveInstalled (b : Broker) : Prop :=
  ∀ sid, b.activeSession = some sid → sid < b.sessions.length

/-- The active session has a record. -/
theorem ActiveInstalled.record (h : ActiveInstalled b)
    (ha : b.activeSession = some sid) :
    ∃ s, b.active = some (sid, s) := by
  have hlt := h sid ha
  exact ⟨b.sessions[sid], active_eq_some.mpr
    ⟨ha, List.getElem?_eq_getElem hlt⟩⟩

-- == what a step does

/-- The two flags a release moves are the same in both records. -/
def SameFlags (s s' : Session) : Prop :=
  s'.releasing = s.releasing ∧ s'.releaseExhausted = s.releaseExhausted

theorem Session.signalDone_flags (s : Session) :
    SameFlags s s.signalDone := ⟨rfl, rfl⟩

theorem Session.withIdle_flags (s : Session) (path : ObjectPath) :
    SameFlags s (s.withIdle path) := ⟨rfl, rfl⟩

theorem Session.seeRemoteIdle_flags (s : Session) (path : ObjectPath) :
    SameFlags s (s.withIdle path).seeRemoteIdle := ⟨rfl, rfl⟩

/-- What a step does to the sessions, with what it reports. -/
inductive SessionMove (w w' : World) : List (SessionId × Report) → Prop
  | quiet : SameSessions w.broker w'.broker → w'.releases = w.releases →
      SessionMove w w' []
  | touch {sid : SessionId} {s s' : Session} :
      w.broker.active = some (sid, s) → SameFlags s s' →
      w'.broker.activeSession = some sid →
      w'.broker.sessions = w.broker.sessions.set sid s' →
      w'.releases = w.releases →
      w'.broker.idleComplete = w.broker.idleComplete →
      SessionMove w w' []
  | start {sid : SessionId} {s : Session} :
      w.broker.active = some (sid, s) → s.releasing = false →
      s.releaseExhausted = false → w'.broker.activeSession = some sid →
      w'.broker.sessions = w.broker.sessions.set sid s.startRelease →
      w'.releases = sid :: w.releases →
      w'.broker.idleComplete = w.broker.idleComplete →
      SessionMove w w' [(sid, .started)]
  | retire {sid : SessionId} {s s' : Session} :
      w.broker.active = some (sid, s) → SameFlags s s' →
      w'.broker.activeSession = none →
      w'.broker.sessions = w.broker.sessions.set sid s' →
      w'.releases = w.releases →
      w'.broker.idleComplete = w.broker.idleComplete →
      SessionMove w w' []
  | idle {sid : SessionId} {s s' : Session} :
      w.broker.active = some (sid, s) → SameFlags s s' →
      s.releasing = false → w'.broker.activeSession = none →
      w'.broker.sessions = w.broker.sessions.set sid s' →
      w'.releases = w.releases →
      w'.broker.idleComplete = w.broker.idleComplete + 1 →
      SessionMove w w' [(sid, .idle)]
  | install {s : Session} :
      s.releasing = false → s.releaseExhausted = false →
      w'.broker.activeSession = some w.broker.sessions.length →
      w'.broker.sessions = w.broker.sessions ++ [s] →
      w'.releases = w.releases →
      w'.broker.idleComplete = w.broker.idleComplete →
      SessionMove w w' []
  | released {sid : SessionId} {s s' : Session} :
      sid ∈ w.releases → w.broker.active = some (sid, s) →
      SameFlags s s' → w'.broker.activeSession = none →
      w'.broker.sessions = w.broker.sessions.set sid s' →
      w'.releases = w.releases.erase sid →
      w'.broker.idleComplete = w.broker.idleComplete →
      SessionMove w w' [(sid, .released)]
  | exhausted {sid : SessionId} {s : Session} :
      sid ∈ w.releases → w.broker.active = some (sid, s) →
      w'.broker.activeSession = some sid →
      w'.broker.sessions = w.broker.sessions.set sid s.exhaustRelease →
      w'.releases = w.releases.erase sid →
      w'.broker.idleComplete = w.broker.idleComplete →
      SessionMove w w' [(sid, .failed)]
  | failedIdle {sid : SessionId} {s s' : Session} :
      sid ∈ w.releases → w.broker.active = some (sid, s) →
      SameFlags s s' → w'.broker.activeSession = none →
      w'.broker.sessions = w.broker.sessions.set sid s' →
      w'.releases = w.releases.erase sid →
      w'.broker.idleComplete = w.broker.idleComplete + 1 →
      SessionMove w w' [(sid, .failed), (sid, .idle)]
  | detached {sid : SessionId} {r : Report} :
      sid ∈ w.releases → w.broker.activeSession ≠ some sid →
      r = .released ∨ r = .failed →
      SameSessions w.broker w'.broker → w'.releases = w.releases.erase sid →
      SessionMove w w' [(sid, r)]

-- == regions on the active one

/-- A reset clears the active session and ends its record. -/
theorem sessions_reset (hb : ActiveInstalled b) :
    b.reset.activeSession = none
      ∧ (b.activeSession = none ∧ b.reset.sessions = b.sessions
        ∨ ∃ sid s, b.active = some (sid, s)
          ∧ b.reset.sessions = b.sessions.set sid s.signalDone) := by
  refine ⟨rfl, ?_⟩
  unfold Broker.reset
  cases ha : b.activeSession with
  | none => exact Or.inl ⟨rfl, rfl⟩
  | some sid =>
    obtain ⟨s, hs⟩ := hb.record ha
    refine Or.inr ⟨sid, s, hs, ?_⟩
    exact modify_eq_set (active_eq_some.mp hs).2

/-- A reset retires the active session, if there is one. -/
theorem SessionMove.of_reset (hb : ActiveInstalled w.broker)
    (ha : w'.broker.activeSession = w.broker.reset.activeSession)
    (hs : w'.broker.sessions = w.broker.reset.sessions)
    (hr : w'.releases = w.releases)
    (hc : w'.broker.idleComplete = w.broker.idleComplete) :
    SessionMove w w' [] := by
  obtain ⟨hnone, hcase⟩ := sessions_reset hb
  rcases hcase with ⟨hn, hsame⟩ | ⟨sid, s, hact, hset⟩
  · exact .quiet ⟨ha.trans hn.symm, hs.trans hsame, hc⟩ hr
  · exact .retire hact s.signalDone_flags ha
      (hs.trans hset) hr hc

/-- `clear` ends the active session or passes it by. -/
theorem SessionMove.of_clear (path : ObjectPath) :
    SessionMove w (w.region (w.broker.clear path)).1
      ((w.region (w.broker.clear path)).2.filterMap Event.report) := by
  have hrep : (w.region (w.broker.clear path)).2.filterMap Event.report
      = [] := by
    show (w.broker.clear path).2.filterMap Event.report = []
    rw [clear_events, List.filterMap_cons_none rfl]
    exact filterMap_upkeep report_upkeep (upkeep_closeHeld _ path)
  rw [hrep]
  have h := ClearRegion.of_clear w.broker path
  unfold World.region
  generalize (w.broker.clear path).1 = b at h ⊢
  cases h with
  | passed => exact .quiet SameSessions.refl rfl
  | @ended sid s ha =>
    exact .retire ha s.signalDone_flags rfl rfl rfl rfl

/-- An idle signal is noted, or completes the session. -/
theorem SessionMove.of_idle (path : ObjectPath) :
    SessionMove w (w.region (w.broker.idleSignal path)).1
      ((w.region (w.broker.idleSignal path)).2.filterMap Event.report) := by
  have h := IdleRegion.of_signal w.broker path
  generalize w.broker.idleSignal path = r at h ⊢
  cases h with
  | passed => exact .quiet SameSessions.refl rfl
  | @noted sid s s' ha hs' =>
    refine .touch ha ?_ (active_eq_some.mp ha).1 rfl rfl rfl
    rcases hs' with rfl | rfl
    · exact s.withIdle_flags path
    · exact s.seeRemoteIdle_flags path
  | @completed sid s stats ha hrel _ hcount =>
    exact .idle (s := s) ha (s.withIdle path).signalDone_flags
      hrel rfl rfl rfl hcount

-- == regions on a session

/-- A session step that only rewrites the record, where the session
accepts it, keeping the release flags. -/
theorem SessionMove.of_touch {f : Session → Session}
    (hs : w.broker.sessions[sid]? = some s)
    (hacc : w.broker.accepting sid s = true) (hf : SameFlags s (f s))
    (ha : b.activeSession = w.broker.activeSession)
    (hb : b.sessions = (w.broker.updateSession sid f).sessions)
    (hc : b.idleComplete = w.broker.idleComplete) :
    SessionMove w { w with broker := b } [] := by
  have hact := (accepting_iff.mp hacc).1
  have hw := active_eq_some.mpr ⟨hact, hs⟩
  exact .touch hw hf (ha.trans hact)
    (hb.trans (sessions_updateSession hw f)) rfl hc

/-- How a release ends depends on its session still being active. -/
theorem SessionMove.of_finish {ok : Bool}
    (hs : w.broker.sessions[sid]? = some s) (hin : sid ∈ w.releases) :
    SessionMove w
      { w with
        broker := (w.broker.finishRelease sid s ok).1
        releases := w.releases.erase sid }
      ((w.broker.finishRelease sid s ok).2.filterMap Event.report) := by
  have h := FinishRegion.of_finish hs ok
  generalize w.broker.finishRelease sid s ok = r at h ⊢
  cases h with
  -- the session has gone while its release ran
  | detached ok hne =>
    cases ok with
    | true =>
      exact .detached hin hne (Or.inl rfl) SameSessions.refl
        rfl
    | false =>
      exact .detached hin hne (Or.inr rfl) SameSessions.refl
        rfl
  | released ha =>
    exact .released hin ha s.signalDone_flags rfl rfl rfl rfl
  | exhausted ha =>
    exact .exhausted hin ha (active_eq_some.mp ha).1 rfl rfl
      rfl
  | idled ha hcount =>
    exact .failedIdle hin ha s.signalDone_flags rfl rfl rfl
      hcount

/-- The regions addressed to a session. -/
theorem SessionMove.of_sessionStep {act : SessionAct}
    (hs : w.broker.sessions[sid]? = some s)
    (h : sessionStep w sid s act = some (w', es)) :
    SessionMove w w' (es.filterMap Event.report) := by
  cases SessionRegion.of_step h with
  | count hidle => exact .quiet ⟨rfl, rfl, hidle⟩ rfl
  | touch hacc hf hidle =>
    exact .of_touch hs hacc ⟨hf.releasing, hf.exhausted⟩ rfl rfl
      hidle
  | start hacc hidle =>
    obtain ⟨hact, hrel, hexh⟩ := accepting_iff.mp hacc
    have hw := active_eq_some.mpr ⟨hact, hs⟩
    exact .start hw hrel hexh hact
      (sessions_updateSession hw Session.startRelease) rfl hidle
  | finish ok hin => exact .of_finish hs hin

-- == the regions of acquire calls

/-- What the last region of `acquire` does to the sessions: nothing, or it
installs one. -/
theorem sessions_published {p : Publication} {pairing : Finset ObjectPath}
    (h : Published b id p pairing b' es) :
    es.filterMap Event.report = []
      ∧ (SameSessions b b'
        ∨ ∃ s : Session, s.releasing = false ∧ s.releaseExhausted = false
          ∧ b'.activeSession = some b.sessions.length
          ∧ b'.sessions = b.sessions ++ [s]
          ∧ b'.idleComplete = b.idleComplete) := by
  cases h with
  | returned lastGen | refused g g' _ _ =>
    exact ⟨rfl, Or.inl SameSessions.refl⟩
  | handedOff g g' fd _ _ =>
    exact ⟨rfl, Or.inr ⟨p.session g g' fd, rfl, rfl, rfl, rfl, rfl⟩⟩

/-- A publication installs a session, if it comes about. -/
theorem SessionMove.of_published {p : Publication}
    {pairing : Finset ObjectPath}
    (hp : Published w.broker id p pairing w'.broker es)
    (hr : w'.releases = w.releases) :
    SessionMove w w' (es.filterMap Event.report) := by
  obtain ⟨hrep, hcase⟩ := sessions_published hp
  rw [hrep]
  rcases hcase with hsame | ⟨s, hrel, hexh, hact, hs, hcc⟩
  · exact .quiet hsame hr
  · exact .install hrel hexh hact hs hr hcc

/-- Only the publication of an `acquire` call touches a session. -/
theorem SessionMove.of_acquireStep {call : Acquire} {act : AcquireAct}
    (h : acquireStep w id call act = some (w', es)) :
    SessionMove w w' (es.filterMap Event.report) := by
  cases AcquireMove.of_step h with
  | enter | readLinks | refuse | mark | fail | reject | undecoded | wait
  | correlate | unmark => exact .quiet SameSessions.refl rfl
  | @acquire _ _ _ linkedPeer _ =>
    cases linkedPeer <;> exact .quiet SameSessions.refl rfl
  -- these write `pending` and `pairing`, and only upkeep is let out
  | giveBack ho | park ho =>
    rw [filterMap_upkeep report_upkeep (upkeep_holdTransport ho)]
    obtain ⟨pending, pairing, rfl, -⟩ := holdTransport_frame ho
    exact .quiet SameSessions.refl rfl
  | @pair _ _ sink source _ _ _ es ho =>
    show SessionMove w _ (es.filterMap Event.report)
    rw [filterMap_upkeep report_upkeep (upkeep_holdTransport ho)]
    obtain ⟨pending, pairing, rfl, -⟩ := holdTransport_frame ho
    exact .quiet SameSessions.refl rfl
  | publish _ _ hp _ => exact .of_published hp rfl

-- == the step

theorem reports_closePending :
    b.closePending.filterMap Event.report = [] :=
  filterMap_upkeep report_upkeep (upkeep_closeAll _)

/-- Every step is one of the moves. -/
theorem SessionMove.of_step {act : Action}
    (hb : ActiveInstalled w.broker) (h : step w act = some (w', es)) :
    SessionMove w w' (es.filterMap Event.report) := by
  cases act with
  -- connecting and unregistering reset the broker
  | connect devicePath | unregister =>
    cases h
    show SessionMove w _ (w.broker.closePending.filterMap Event.report)
    rw [reports_closePending]
    exact .of_reset hb rfl rfl rfl rfl
  | disconnect => cases h; exact .quiet SameSessions.refl rfl
  | configure valid path direction codec qos =>
    cases h
    obtain ⟨hsame, hrep⟩ := sameSessions_configure (b := w.broker) valid
      path direction codec qos
    rw [hrep]
    exact .quiet hsame rfl
  | clear path => cases h; exact .of_clear path
  | signal path state =>
    cases state with
    | pending | active =>
      cases h; exact .quiet SameSessions.refl rfl
    | idle => cases h; exact .of_idle path
  | acquire id act =>
    obtain ⟨call, -, h⟩ := step_acquire h
    exact .of_acquireStep h
  | expire path generation =>
    obtain ⟨pending, timers, rfl, -, hup⟩ := step_expire_frame h
    rw [filterMap_upkeep report_upkeep hup]
    exact .quiet SameSessions.refl rfl
  | session sid act =>
    obtain ⟨s, hs, h⟩ := step_session h
    exact .of_sessionStep hs h
  | statistic k =>
    cases h
    exact .quiet (sameSessions_statistic k) rfl

end Callbridge.Bluez
