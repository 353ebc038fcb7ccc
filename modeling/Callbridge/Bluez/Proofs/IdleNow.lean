/-
Which states a session has heard of when it completes as remotely idle.

`handleSignal` keeps the paths that have reported idle, and completes the
session when both its ends are among them. A pending or active signal
takes no path out again, so what the record says of an end is what was
last reported of it only as long as no end that has reported idle reports
anything else.
-/
import Callbridge.Bluez.Proofs.OneOutcome

namespace Callbridge.Bluez

open Lib

variable {b b' : Broker} {w w' : World} {sid : SessionId} {s s' : Session}
  {act : Action} {es : List Event} {path : ObjectPath} {state : TransportState}
  {tr : List WorldTrans} {x : WorldTrans} {c : SessionId} {r : Session}

-- == the last report

/-- What an action signals, and of which path. -/
def Action.signalled : Action → Option (ObjectPath × TransportState)
  | .signal path state => some (path, state)
  | _ => none

theorem signalled_eq_some :
    act.signalled = some (path, state) ↔ act = .signal path state := by
  cases act <;> simp [Action.signalled]

/-- The state a step reports for the path, where the session has been
installed before it. -/
def reportsState (sid : SessionId) (path : ObjectPath) (x : WorldTrans) :
    Option TransportState :=
  match x.act.signalled with
  | some (p, state) =>
      if p = path ∧ sid < x.pre.broker.sessions.length then some state
      else none
  | none => none

/-- The state last reported for the path since the session was
installed. -/
def reported (sid : SessionId) (path : ObjectPath)
    (tr : List WorldTrans) : Option TransportState :=
  (tr.filterMap (reportsState sid path)).getLast?

/-- A report is a signal for an installed session. -/
theorem reportsState_eq_some :
    reportsState sid path x = some state
      ↔ x.act = .signal path state
        ∧ sid < x.pre.broker.sessions.length := by
  unfold reportsState
  rw [← signalled_eq_some]
  cases x.act.signalled with
  | none => simp
  | some g =>
    obtain ⟨p, st⟩ := g
    simp only [Option.ite_none_right_eq_some, Option.some.injEq,
      Prod.mk.injEq]
    constructor
    · intro h
      exact ⟨⟨h.1.1, h.2⟩, h.1.2⟩
    · intro h
      exact ⟨⟨h.1.1, h.2⟩, h.1.2⟩

theorem reported_snoc :
    reported sid path (tr ++ [x])
      = (reportsState sid path x).or (reported sid path tr) := by
  unfold reported
  cases h : reportsState sid path x with
  | none | some state => simp [h]

/-- A path last reported idle still is after a step that reports nothing
else of it. -/
theorem reported_idle_snoc (h : reported sid path tr = some .idle)
    (hx : ∀ state, reportsState sid path x = some state → state = .idle) :
    reported sid path (tr ++ [x]) = some .idle := by
  rw [reported_snoc]
  cases hr : reportsState sid path x with
  | none => exact h
  | some state =>
    rw [hx state hr]
    rfl

theorem reported_of_idle (hact : x.act = .signal path .idle)
    (hlt : sid < x.pre.broker.sessions.length) :
    reported sid path (tr ++ [x]) = some .idle := by
  rw [reported_snoc, reportsState_eq_some.mpr ⟨hact, hlt⟩]
  rfl

-- == what a step lets it hear

/-- The path is one of the session's two transports. -/
def Session.IsEnd (s : Session) (path : ObjectPath) : Prop :=
  path = s.sinkPath ∨ path = s.sourcePath

instance : Decidable (s.IsEnd path) := inferInstanceAs (Decidable (_ ∨ _))

theorem Session.IsEnd.before (h : s'.IsEnd path)
    (hsink : s'.sinkPath = s.sinkPath)
    (hsource : s'.sourcePath = s.sourcePath) : s.IsEnd path := by
  unfold Session.IsEnd at h
  rwa [hsink, hsource] at h

/-- What the session that is active after a step has heard: nothing, when
the step has installed it; otherwise what it had heard before, and the
path of an idle signal. -/
inductive Hears (w : World) (act : Action) (sid : SessionId)
    (s' : Session) : Prop
  | installed : s'.idlePaths = ∅ → Hears w act sid s'
  | same {s : Session} :
      w.broker.active = some (sid, s) → s'.sinkPath = s.sinkPath →
      s'.sourcePath = s.sourcePath → s'.idlePaths = s.idlePaths →
      Hears w act sid s'
  | idle {s : Session} {path : ObjectPath} :
      w.broker.active = some (sid, s) → s'.sinkPath = s.sinkPath →
      s'.sourcePath = s.sourcePath → act = .signal path .idle →
      s'.idlePaths = insert path s.idlePaths → Hears w act sid s'

theorem Hears.of_active (h : w.broker.active = some (sid, s)) :
    Hears w act sid s := .same h rfl rfl rfl

/-- A region that leaves the sessions lets none hear anything. -/
theorem Hears.of_sameSessions (hb : SameSessions w.broker b)
    (h : b.active = some (sid, s)) : Hears w act sid s := by
  obtain ⟨ha, hs⟩ := active_eq_some.mp h
  rw [hb.1] at ha
  rw [hb.2.1] at hs
  exact .of_active (active_eq_some.mpr ⟨ha, hs⟩)

/-- A region that ends the active session leaves no session active. -/
theorem not_active (hnone : b.activeSession = none) :
    b.active ≠ some (sid, s) := by
  intro h
  rw [(active_eq_some.mp h).1] at hnone
  cases hnone

/-- A region that rewrites the record of the active session, and keeps
its ends and what it has heard. -/
theorem Hears.of_update {f : Session → Session}
    (ha : w.broker.active = some (c, r)) (hsink : (f r).sinkPath = r.sinkPath)
    (hsource : (f r).sourcePath = r.sourcePath)
    (hidle : (f r).idlePaths = r.idlePaths)
    (h : (w.broker.updateSession c f).active = some (sid, s')) :
    Hears w act sid s' := by
  rw [active_updateSession ha] at h
  cases h
  exact .same ha hsink hsource hidle

/-- An idle signal adds its own path at most. -/
theorem Hears.of_idleSignal
    (h : (w.broker.idleSignal path).1.active = some (sid, s')) :
    Hears w (.signal path .idle) sid s' := by
  have hidle := IdleRegion.of_signal w.broker path
  generalize w.broker.idleSignal path = r at h hidle
  cases hidle with
  | passed => exact .of_active h
  | @noted c r r' ha hr' =>
    have hd : (w.broker.dropFlags path).active = some (c, r) := ha
    cases (active_withRecord hd).symm.trans h
    rcases hr' with rfl | rfl <;> exact .idle ha rfl rfl rfl rfl
  | completed => exact absurd h (not_active rfl)

theorem Hears.of_finishRelease {ok : Bool}
    (hr : w.broker.sessions[c]? = some r)
    (h : (w.broker.finishRelease c r ok).1.active = some (sid, s')) :
    Hears w act sid s' := by
  have hfinish := FinishRegion.of_finish hr ok
  generalize w.broker.finishRelease c r ok = q at h hfinish
  cases hfinish with
  | detached => exact .of_active h
  | released | idled => exact absurd h (not_active rfl)
  | exhausted ha =>
    cases (active_withRecord ha).symm.trans h
    exact .same ha rfl rfl rfl

/-- A session's own regions leave the record. -/
theorem Hears.of_sessionStep {act' : SessionAct}
    (hr : w.broker.sessions[c]? = some r)
    (hstep : sessionStep w c r act' = some (w', es))
    (h : w'.broker.active = some (sid, s')) : Hears w act sid s' := by
  cases SessionRegion.of_step hstep with
  | count _ => exact .of_active h
  | touch hacc hf _ =>
    have ha := active_eq_some.mpr ⟨(accepting_iff.mp hacc).1, hr⟩
    exact .of_update ha hf.sinkPath hf.sourcePath hf.idlePaths h
  | start hacc _ =>
    have ha := active_eq_some.mpr ⟨(accepting_iff.mp hacc).1, hr⟩
    exact .of_update (f := Session.startRelease) ha rfl rfl rfl h
  | finish ok _ => exact .of_finishRelease hr h

theorem active_install (b : Broker) (s : Session) :
    (b.install s).active = some (b.sessions.length, s) :=
  active_eq_some.mpr ⟨rfl, List.getElem?_concat_length⟩

/-- A publication starts an empty record. -/
theorem Hears.of_acquireStep {id : AcquireId} {call : Acquire}
    {act' : AcquireAct} (hstep : acquireStep w id call act' = some (w', es))
    (h : w'.broker.active = some (sid, s')) : Hears w act sid s' := by
  cases AcquireMove.of_step hstep with
  | enter | readLinks | refuse | mark | fail | reject | undecoded | wait
  | correlate | unmark => exact .of_active h
  | @acquire _ _ _ linkedPeer _ =>
    cases linkedPeer <;> exact .of_active h
  | giveBack ho | park ho | pair ho =>
    obtain ⟨pending, pairing, rfl, -⟩ := holdTransport_frame ho
    exact .of_active h
  | publish _ _ hp _ =>
    cases hp with
    | returned lastGen => exact .of_active h
    | refused g g' _ _ => exact .of_active h
    | handedOff g g' fd _ _ =>
      -- the one place a session is installed
      cases (active_install w.broker _).symm.trans h
      exact .installed rfl

/-- What any step leaves the active session with. -/
theorem Hears.of_step (hstep : step w act = some (w', es))
    (h : w'.broker.active = some (sid, s')) : Hears w act sid s' := by
  cases act with
  | connect devicePath | unregister =>
    cases hstep
    cases (active_eq_some.mp h).1
  | disconnect => cases hstep; exact .of_active h
  | configure valid path direction codec qos =>
    cases hstep
    exact .of_sameSessions (sameSessions_configure valid path direction
      codec qos).1 h
  | clear path =>
    cases hstep
    have hc := ClearRegion.of_clear w.broker path
    have hb : (w.broker.clear path).1.active = some (sid, s') := h
    generalize (w.broker.clear path).1 = b at hb hc
    cases hc with
    | passed => exact .of_active hb
    | ended => exact absurd hb (not_active rfl)
  | signal path state =>
    cases state with
    | pending | active => cases hstep; exact .of_active h
    | idle => cases hstep; exact .of_idleSignal h
  | acquire id act' =>
    obtain ⟨call, -, hstep⟩ := step_acquire hstep
    exact .of_acquireStep hstep h
  | expire path generation =>
    obtain ⟨pending, timers, rfl, -⟩ := step_expire_frame hstep
    exact .of_active h
  | session c act' =>
    obtain ⟨r, hr, hstep⟩ := step_session hstep
    exact .of_sessionStep hr hstep h
  | statistic k =>
    cases hstep
    exact .of_sameSessions (sameSessions_statistic k) h

-- == what the record stands for

/-- The step reports no other state of an end of the active session that
has reported idle to it. -/
def IdleStays (x : WorldTrans) : Prop :=
  ∀ g ∈ x.act.signalled, ∀ a ∈ x.pre.broker.active, a.2.IsEnd g.1 →
    g.1 ∈ a.2.idlePaths → g.2 = .idle

instance : Decidable (IdleStays x) :=
  inferInstanceAs (Decidable (∀ g ∈ x.act.signalled,
    ∀ a ∈ x.pre.broker.active, a.2.IsEnd g.1 →
      g.1 ∈ a.2.idlePaths → g.2 = .idle))

/-- Of every end in the record of the active session, idle is what was
reported last. -/
def Heard (tr : List WorldTrans) (w : World) : Prop :=
  ∀ sid s, w.broker.active = some (sid, s) →
    ∀ path ∈ s.idlePaths, s.IsEnd path →
      reported sid path tr = some .idle

/-- An idle signal says idle of its own path and nothing of the others. -/
theorem Heard.after_idle {p : ObjectPath} (hw : Heard tr x.pre)
    (hact : x.act = .signal path .idle)
    (hs : x.pre.broker.active = some (sid, s))
    (hp : p ∈ insert path s.idlePaths) (hend : s.IsEnd p) :
    reported sid p (tr ++ [x]) = some .idle := by
  by_cases heq : p = path
  · subst heq
    exact reported_of_idle hact (length_of_active hs)
  · have hold := Finset.mem_of_mem_insert_of_ne hp heq
    refine reported_idle_snoc (hw sid s hs p hold hend) ?_
    intro state hr
    cases hact.symm.trans (reportsState_eq_some.mp hr).1
    exact absurd rfl heq

/-- The record stays what was last reported. -/
theorem Heard.of_step (hw : Heard tr x.pre)
    (hstep : step x.pre x.act = some (x.post, x.out))
    (hstays : IdleStays x) : Heard (tr ++ [x]) x.post := by
  intro sid s' hact path hin hend
  cases Hears.of_step hstep hact with
  | installed hnone =>
    rw [hnone] at hin
    exact absurd hin (Finset.notMem_empty path)
  | @same s hpre hsink hsource hidle =>
    rw [hidle] at hin
    have hend' := hend.before hsink hsource
    refine reported_idle_snoc (hw sid s hpre path hin hend') ?_
    intro state hr
    have hsig := signalled_eq_some.mpr (reportsState_eq_some.mp hr).1
    exact hstays (path, state) hsig (sid, s) hpre hend' hin
  | @idle s p hpre hsink hsource hsig hidle =>
    rw [hidle] at hin
    exact hw.after_idle hsig hpre hin (hend.before hsink hsource)

/-- `handleSignal` completes no session but the active one, when the
record has both its ends together with the path of the signal. -/
theorem completed_by_signal
    (hstep : step w (.signal path state) = some (w', es))
    (hdone : .idleCompleted sid ∈ es) :
    state = .idle ∧ ∃ s, w.broker.active = some (sid, s)
      ∧ s.sinkPath ∈ insert path s.idlePaths
      ∧ s.sourcePath ∈ insert path s.idlePaths := by
  cases state with
  | pending | active => cases hstep; cases hdone
  | idle =>
    cases hstep
    refine ⟨rfl, ?_⟩
    have hidle := IdleRegion.of_signal w.broker path
    have hes : .idleCompleted sid ∈ (w.broker.idleSignal path).2 := hdone
    generalize w.broker.idleSignal path = r at hidle hes
    cases hidle with
    | passed | noted => simp at hes
    | @completed c s stats ha _ hall _ =>
      obtain rfl : sid = c := by simpa using hes
      unfold Session.allRemoteIdle at hall
      simp only [Bool.and_eq_true, decide_eq_true_eq] at hall
      exact ⟨s, ha, hall⟩

section Runs

variable {device : Bytes} {required : Bool} {wait : Nat}

/-- So it is over every run. -/
theorem run_heard
    (hrun : Exec step (newWorld (newBroker device required wait)) tr w)
    (hstays : ∀ x ∈ tr, IdleStays x) : Heard tr w := by
  induction hrun with
  | nil =>
    intro sid s hact
    cases (active_eq_some.mp hact).1
  | @snoc tr w w' a es _ hstep ih =>
    have hw := ih fun x hx => hstays x (List.mem_append_left _ hx)
    exact hw.of_step (x := ⟨w, a, es, w'⟩) hstep
      (hstays _ (List.mem_append_right _ (List.mem_singleton_self _)))

/-- Wherever `handleSignal` completes a session in the run, the session is
the active one, and idle is the state last reported for both its ends since
it was installed. -/
def IdleNow (tr : List WorldTrans) : Prop :=
  ∀ t₁ (x : WorldTrans) t₂ path state sid, tr = t₁ ++ x :: t₂ →
    x.act = .signal path state → .idleCompleted sid ∈ x.out →
    ∃ s, x.pre.broker.active = some (sid, s)
      ∧ reported sid s.sinkPath (t₁ ++ [x]) = some .idle
      ∧ reported sid s.sourcePath (t₁ ++ [x]) = some .idle

/-- In a run in which no end of the active session that has reported idle
reports another state, `handleSignal` completes a session as remotely idle
only where idle is what was reported last for both its ends. -/
theorem completes_when_idle_now
    (hrun : Exec step (newWorld (newBroker device required wait)) tr w)
    (hstays : ∀ x ∈ tr, IdleStays x) : IdleNow tr := by
  intro t₁ x t₂ path state sid htr hact hdone
  subst htr
  obtain ⟨hpre, hstep, -⟩ := hrun.split
  have hheard := run_heard hpre fun y hy =>
    hstays y (List.mem_append_left _ hy)
  rw [hact] at hstep
  obtain ⟨rfl, s, hs, hsink, hsource⟩ := completed_by_signal hstep hdone
  exact ⟨s, hs, hheard.after_idle hact hs hsink (Or.inl rfl),
    hheard.after_idle hact hs hsource (Or.inr rfl)⟩

end Runs

-- == schedules

/-- A linked pair handed off, and then these signals. -/
def handedOffThen (signals : List Action) : List Action :=
  Action.connect sampleDevice :: configurePair (samplePath 1) (samplePath 2)
    ++ reserveLinked 0 (samplePath 1) (samplePath 2) 1 0
    ++ handOffReserved 0 7 ++ signals

/-- Both ends go idle, one after the other. -/
theorem completes_when_idle_now_both :
    ∃ tr w, Exec step (newWorld (newBroker sampleDevice true 1)) tr w
      ∧ Event.idleCompleted 0 ∈ events tr ∧ IdleNow tr := by
  obtain ⟨tr, w, hrun, hdone, hstays⟩ := exec_of_decide step
      (newWorld (newBroker sampleDevice true 1))
      (handedOffThen [.signal (samplePath 1) .idle,
        .signal (samplePath 2) .idle])
      (fun tr _ => Event.idleCompleted 0 ∈ events tr
        ∧ ∀ x ∈ tr, IdleStays x) (by decide +kernel)
  exact ⟨tr, w, hrun, hdone, completes_when_idle_now hrun hstays⟩

/-- The sink goes idle and comes back, and the source's first idle signal
completes the session while the sink is active. -/
theorem completes_while_active :
    ∃ tr w, Exec step (newWorld (newBroker sampleDevice true 1)) tr w
      ∧ (tr.map Trans.act).drop 12 = [.signal (samplePath 1) .idle,
          .signal (samplePath 1) .active, .signal (samplePath 2) .idle]
      ∧ (∃ x ∈ tr.getLast?, .idleCompleted 0 ∈ x.out)
      ∧ reported 0 (samplePath 1) tr = some .active ∧ ¬ IdleNow tr := by
  obtain ⟨tr, w, hrun, hacts, ⟨x, hx, hact, hdone, hsink⟩, hlast⟩ :=
    exec_of_decide step (newWorld (newBroker sampleDevice true 1))
      (handedOffThen [.signal (samplePath 1) .idle,
        .signal (samplePath 1) .active, .signal (samplePath 2) .idle])
      (fun tr _ =>
        (tr.map Trans.act).drop 12 = [.signal (samplePath 1) .idle,
          .signal (samplePath 1) .active, .signal (samplePath 2) .idle]
        ∧ (∃ x ∈ tr.getLast?, x.act = .signal (samplePath 2) .idle
          ∧ .idleCompleted 0 ∈ x.out
          ∧ x.pre.broker.active.map (·.2.sinkPath) = some (samplePath 1))
        ∧ reported 0 (samplePath 1) tr = some .active) (by decide +kernel)
  refine ⟨tr, w, hrun, hacts, ⟨x, hx, hdone⟩, hlast, ?_⟩
  intro hnow
  obtain ⟨t, rfl⟩ := List.getLast?_eq_some_iff.mp hx
  obtain ⟨s, hs, hidle, -⟩ := hnow t x [] _ _ 0 rfl hact hdone
  rw [hs] at hsink
  have hpath : s.sinkPath = samplePath 1 := Option.some.inj hsink
  rw [hpath, hlast] at hidle
  cases hidle

end Callbridge.Bluez
