/-
One terminal outcome per media session, over every run of the broker:
the counts of `Bluez.Proofs.SessionLife` put back into the events of the
run, together with what a session that has had its time can still do.
-/
import Callbridge.Bluez.Proofs.SessionLife

namespace Callbridge.Bluez

open Lib

variable {w w' : World} {sid : SessionId} {s : Session} {es : List Event}
  {e : Event}

-- == counts

/-- Reports are counted by the event they are read off. -/
theorem count_reportOn {r : Report}
    (he : ∀ e', reportOn sid e' = some r ↔ e' = e) (es : List Event) :
    (es.filterMap (reportOn sid)).count r = es.count e := by
  rw [List.count_filterMap]
  refine List.countP_congr fun e' _ => ?_
  simp only [beq_iff_eq]
  exact he e'

theorem reportOn_started :
    reportOn sid e = some .started ↔ e = .releaseStarted sid := by
  cases e with
  | releaseStarted i => simp [reportOn, Event.report]
  | releaseReturned i ok => cases ok <;> simp [reportOn, Event.report]
  | _ => simp [reportOn, Event.report]

theorem reportOn_released :
    reportOn sid e = some .released ↔ e = .releaseReturned sid true := by
  cases e with
  | releaseReturned i ok => cases ok <;> simp [reportOn, Event.report]
  | _ => simp [reportOn, Event.report]

theorem reportOn_idle :
    reportOn sid e = some .idle ↔ e = .idleCompleted sid := by
  cases e with
  | releaseReturned i ok => cases ok <;> simp [reportOn, Event.report]
  | _ => simp [reportOn, Event.report]

/-- A completion by idleness, of whichever session. -/
def Event.isIdleCompleted : Event → Bool
  | .idleCompleted _ => true
  | _ => false

/-- The counter moves exactly with the completions a step reports. -/
theorem SessionMove.idleComplete {r : List (SessionId × Report)}
    (hm : SessionMove w w' r) :
    w'.broker.idleComplete = w.broker.idleComplete
      + UInt64.ofNat (r.countP fun r => r.2 == .idle) := by
  cases hm with
  | quiet hs _ => rw [hs.2.2]; simp
  | touch _ _ _ _ _ hc | start _ _ _ _ _ _ hc | retire _ _ _ _ _ hc
  | idle _ _ _ _ _ _ hc | install _ _ _ _ _ hc | released _ _ _ _ _ _ hc
  | exhausted _ _ _ _ _ hc | failedIdle _ _ _ _ _ _ hc => rw [hc]; simp
  | detached _ _ hrep hs _ =>
    rcases hrep with rfl | rfl <;> rw [hs.2.2] <;> simp

/-- Idle completions are among the reports. -/
theorem countP_isIdleCompleted (es : List Event) :
    es.countP Event.isIdleCompleted
      = (es.filterMap Event.report).countP fun r => r.2 == .idle := by
  rw [List.countP_filterMap]
  refine List.countP_congr fun e _ => ?_
  cases e with
  | releaseReturned i ok => cases ok <;> exact Iff.rfl
  | _ => exact Iff.rfl

section Runs

variable {device : Bytes} {required : Bool} {wait : Nat}
  {tr : List WorldTrans}

/-- The counter counts the completions of the run. -/
theorem run_idleComplete
    (h : Exec step (newWorld (newBroker device required wait)) tr w) :
    w.broker.idleComplete
      = UInt64.ofNat ((events tr).countP Event.isIdleCompleted) := by
  induction h with
  | nil => rfl
  | snoc hrun hstep ih =>
    have hinv := run_sessionInv hrun
    rw [(SessionMove.of_step hinv.installed hstep).idleComplete, ih,
      events_snoc, List.countP_append, UInt64.ofNat_add,
      countP_isIdleCompleted, countP_isIdleCompleted]

/-- For every run of the broker and every session: its release is started
at most once; it is released successfully or completed as idle at most
once in all, where the broker's counter counts those completions; its
release never runs and counts as given up at the same time; and once it is
no longer the active session it never is again, while every step addressed
to it moves nothing but statistics. -/
theorem one_terminal_outcome
    (h : Exec step (newWorld (newBroker device required wait)) tr w)
    (sid : SessionId) :
    (events tr).count (.releaseStarted sid) ≤ 1
      ∧ (events tr).count (.releaseReturned sid true)
          + (events tr).count (.idleCompleted sid) ≤ 1
      ∧ w.broker.stats.transportIdleComplete
          = UInt64.ofNat ((events tr).countP Event.isIdleCompleted)
      ∧ (∀ s, w.broker.sessions[sid]? = some s →
          ¬ (s.releasing = true ∧ s.releaseExhausted = true))
      ∧ ∀ t₁ (x : WorldTrans) t₂, tr = t₁ ++ x :: t₂ →
          x.pre.broker.activeSession = some sid →
          x.post.broker.activeSession ≠ some sid →
          w.broker.activeSession ≠ some sid
            ∧ ∀ y ∈ t₂, y.pre.broker.activeSession ≠ some sid
              ∧ ∀ act, y.act = .session sid act →
                ∃ st, y.post = { y.pre with
                  broker := { y.pre.broker with stats := st }
                  releases := y.post.releases } := by
  have hb := (life_bound (life_of_run h sid)).le
  rw [count_reportOn (fun _ => reportOn_started),
    count_reportOn (fun _ => reportOn_released),
    count_reportOn (fun _ => reportOn_idle)] at hb
  refine ⟨hb.1, hb.2, run_idleComplete h, ?_, ?_⟩
  · intro s hs
    exact (run_sessionInv h).exclusive s (List.mem_of_getElem? hs)
  · intro t₁ x t₂ htr hpre hpost
    subst htr
    obtain ⟨h₁, hx, h₂⟩ := h.split
    have hinv := run_sessionInv h₁
    have hinv' := step_sessionInv hinv hx
    have hpast := past_of_left hinv hx hpre hpost
    refine ⟨inactive_of_past (run_sessionInv h) (past_stays hinv' h₂ hpast),
      ?_⟩
    -- what holds right after the step that took it out still holds at `y`
    intro y hy
    obtain ⟨u₁, u₂, -, hu, hstep, -⟩ := h₂.of_mem hy
    have hinvy : SessionInv y.pre := hu.inv hinv' step_sessionInv
    have hne := inactive_of_past hinvy (past_stays hinv' hu hpast)
    refine ⟨hne, ?_⟩
    intro act hact
    rw [hact] at hstep
    obtain ⟨s, hs, hstep⟩ := step_session hstep
    exact sessionStep_inactive hs hne hstep

/-- No release is lost: while the active session is marked as releasing its
release is in flight, and whatever that returns, the session ends or is
given up on. -/
theorem release_never_lost
    (h : Exec step (newWorld (newBroker device required wait)) tr w)
    (hactive : w.broker.active = some (sid, s))
    (hreleasing : s.releasing = true) (ok : Bool) :
    ∃ w' es, step w (.session sid (.finishRelease ok)) = some (w', es)
      ∧ (w'.broker.activeSession = none
        ∨ ok = false ∧ w'.broker.active = some (sid, s.exhaustRelease)) := by
  obtain ⟨hsid, hs⟩ := active_eq_some.mp hactive
  have hin := ((run_sessionInv h).running sid s hactive).mpr hreleasing
  have hfinish := FinishRegion.of_finish hs ok
  simp only [step, hs, sessionStep, if_pos hin]
  refine ⟨_, _, rfl, ?_⟩
  generalize w.broker.finishRelease sid s ok = r at hfinish ⊢
  cases hfinish with
  | detached _ hne => exact absurd hsid hne
  | released | idled => exact Or.inl rfl
  | exhausted => exact Or.inr ⟨rfl, active_withRecord hactive⟩

end Runs

-- == a schedule

def sampleDevice : Bytes := [0x2f, 0x64]

/-- The path `/d/n`. -/
def samplePath (n : UInt8) : ObjectPath := [0x2f, 0x64, 0x2f, n]

def sampleCodec : CodecConfig := ⟨16000, 10000000, 40, 1⟩

def sampleQoS : TransportQoS := ⟨1, 1, 10000, 0, 2, 40, 2, 20, 40000, 2⟩

def sampleHeld (path release : ObjectPath) (direction : Direction)
    (generation : UInt64) (links : List ObjectPath) (fd : FD) :
    PendingTransport :=
  ⟨path, release, ⟨direction, generation, sampleCodec, sampleQoS⟩,
    sampleQoS, links, fd, 40, 40⟩

def configurePair (sink source : ObjectPath) : List Action :=
  [.configure true sink .sink sampleCodec sampleQoS,
    .configure true source .source sampleCodec sampleQoS]

/-- A whole `acquire` call of a linked pair, up to its reservation, where
the sink was configured at generation `g` and the source right after. -/
def reserveLinked (id : AcquireId) (sink source : ObjectPath) (g : UInt64)
    (fd : FD) : List Action :=
  [.signal sink .pending, .acquire id .enter,
    .acquire id (.readLinks (some [source])), .acquire id .mark,
    .acquire id (.tryAcquire (some ⟨40, 40, some (sampleQoS, [source]),
      some (sampleQoS, [sink]), true⟩)),
    .acquire id (.hold [
      (sink, sampleHeld sink sink .sink g [source] fd),
      (source, sampleHeld source sink .source (g + 1) [sink] (fd + 1))])]

/-- The rest of the call: a call token, a publication, the deferred
function. -/
def handOffReserved (id : AcquireId) (token : UInt64) : List Action :=
  [.acquire id (.poll (some (token, true)) false),
    .acquire id (.publish (some (1, 0)) (some (1, 0)) (some 9) 0),
    .acquire id .unmark]

/-- A handed-off pair whose session two triggers want released at once,
one more after the release has succeeded. -/
def releaseRace : List Action :=
  Action.connect sampleDevice :: configurePair (samplePath 1) (samplePath 2)
    ++ reserveLinked 0 (samplePath 1) (samplePath 2) 1 0
    ++ handOffReserved 0 7
    ++ [Action.session 0 .requestRelease, .session 0 .requestRelease,
      .session 0 (.finishRelease true), .session 0 .requestRelease]

/-- Two triggers ask for the release of one session. -/
theorem one_terminal_outcome_race :
    ∃ tr w, Exec step (newWorld (newBroker sampleDevice true 1)) tr w
      ∧ (events tr).count (.releaseStarted 0) = 1
      ∧ (events tr).count (.releaseReturned 0 true)
          + (events tr).count (.idleCompleted 0) ≤ 1 := by
  obtain ⟨tr, w, hrun, htest⟩ := exec_of_decide step
      (newWorld (newBroker sampleDevice true 1)) releaseRace
      (fun tr _ => (events tr).count (.releaseStarted 0) = 1)
      (by decide +kernel)
  exact ⟨tr, w, hrun, htest, (one_terminal_outcome hrun 0).2.1⟩

/-- The race up to its first request. -/
theorem release_never_lost_race :
    ∃ tr w sid s, Exec step (newWorld (newBroker sampleDevice true 1)) tr w
      ∧ w.broker.active = some (sid, s)
      ∧ ∃ w' es, step w (.session sid (.finishRelease true))
        = some (w', es) := by
  obtain ⟨tr, w, hrun, htest⟩ := exec_of_decide step
      (newWorld (newBroker sampleDevice true 1))
      (releaseRace.take 13) (fun _ w => w.broker.active.map
        (fun a => a.2.releasing) = some true) (by decide +kernel)
  obtain ⟨⟨sid, s⟩, hactive, hreleasing⟩ := Option.map_eq_some_iff.mp htest
  obtain ⟨w', es, hstep, -⟩ :=
    release_never_lost hrun hactive hreleasing true
  exact ⟨tr, w, sid, s, hrun, hactive, w', es, hstep⟩

end Callbridge.Bluez
