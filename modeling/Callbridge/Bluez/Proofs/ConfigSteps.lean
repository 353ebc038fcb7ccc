/-
What one step of the broker can do to its configurations: which paths are
configured at which generation, what is held under them, and over which
connection. `ConfigMove` says it once.
-/
import Callbridge.Bluez.Proofs.SessionRegions

namespace Callbridge.Bluez

open Lib

variable {b b' : Broker} {w w' : World} {es : List Event} {id : AcquireId}

-- == what a step does

/-- The events that change configurations or the connection. -/
def Event.isConfig : Event → Bool
  | .configured _ _ | .cleared _ | .connected _ | .unregistered
  | .disconnected => true
  | _ => false

theorem isConfig_upkeep {e : Event} (h : e.isUpkeep = true) :
    e.isConfig = false := by
  cases e <;> first | rfl | cases h

theorem filter_isConfig_upkeep (h : ∀ e ∈ es, e.isUpkeep = true) :
    es.filter Event.isConfig = [] := by
  rw [List.filter_eq_nil_iff]
  intro e he
  rw [isConfig_upkeep (h e he)]
  exact Bool.false_ne_true

/-- The connection and the configurations are the same. -/
def SameConfig (w w' : World) : Prop :=
  w'.broker.connection = w.broker.connection ∧ w'.conns = w.conns
    ∧ w'.broker.configured = w.broker.configured
    ∧ w'.broker.nextConfig = w.broker.nextConfig

/-- What is held after the step was held before it. -/
def HeldBefore (b b' : Broker) : Prop :=
  ∀ p t, b'.pending.lookup p = some t → b.pending.lookup p = some t

/-- What a step does to the configurations, with its events about them. -/
inductive ConfigMove (w w' : World) : List Event → Prop
  | keep : SameConfig w w' →
      (∀ p t, w'.broker.pending.lookup p = some t →
        w.broker.pending.lookup p = some t
          ∨ p = t.path ∧ w.broker.stillConfigured t = true) →
      ConfigMove w w' []
  | configure (path : ObjectPath) (c : TransportConfig) :
      w.broker.nextConfig ≠ maxGeneration →
      c.generation = w.broker.nextConfig + 1 →
      w'.broker.nextConfig = w.broker.nextConfig + 1 →
      w'.broker.configured = w.broker.configured.insert path c →
      w'.broker.pending = w.broker.pending.erase path →
      w'.broker.connection = w.broker.connection → w'.conns = w.conns →
      path ∉ w'.broker.pairing →
      ConfigMove w w' [.configured path c.generation]
  | clear (path : ObjectPath) :
      w'.broker.nextConfig = w.broker.nextConfig →
      w'.broker.configured = w.broker.configured.erase path →
      w'.broker.pending = w.broker.pending.erase path →
      w'.broker.connection = w.broker.connection → w'.conns = w.conns →
      path ∉ w'.broker.pairing → ConfigMove w w' [.cleared path]
  | connect :
      w'.broker.nextConfig = w.broker.nextConfig →
      w'.broker.configured = ∅ → w'.broker.pending = ∅ →
      w'.broker.connection = some w.conns → w'.conns = w.conns + 1 →
      w'.broker.pairing = ∅ → ConfigMove w w' [.connected w.conns]
  | unregister :
      w'.broker.nextConfig = w.broker.nextConfig →
      w'.broker.configured = ∅ → w'.broker.pending = ∅ →
      w'.broker.connection = w.broker.connection → w'.conns = w.conns →
      w'.broker.pairing = ∅ → ConfigMove w w' [.unregistered]
  | disconnect :
      w'.broker.nextConfig = w.broker.nextConfig →
      w'.broker.configured = w.broker.configured →
      w'.broker.pending = w.broker.pending →
      w'.broker.connection = none → w'.conns = w.conns →
      ConfigMove w w' [.disconnected]

/-- A region that leaves connection, configurations and held transports
alone. -/
theorem ConfigMove.of_same (hs : SameConfig w w')
    (hp : w'.broker.pending = w.broker.pending) : ConfigMove w w' [] := by
  refine .keep hs ?_
  intro p t ht
  rw [hp] at ht
  exact Or.inl ht

-- == session regions

/-- The fields of the broker that belong to transports, and the setting
their publication reads. -/
def Broker.transportView (b : Broker) :
    Option ConnId × GoMap ObjectPath TransportConfig × UInt64
      × GoMap ObjectPath PendingTransport × Finset ObjectPath
      × Finset ObjectPath × Bool :=
  (b.connection, b.configured, b.nextConfig, b.pending, b.acquiring,
    b.pairing, b.requireToken)

/-- The view holds all that the transports are judged by. -/
theorem transportView_inj
    (h : b'.transportView = b.transportView) :
    b'.connection = b.connection ∧ b'.configured = b.configured
      ∧ b'.nextConfig = b.nextConfig ∧ b'.pending = b.pending
      ∧ b'.acquiring = b.acquiring ∧ b'.pairing = b.pairing
      ∧ b'.requireToken = b.requireToken := by
  injection h with h₁ h
  injection h with h₂ h
  injection h with h₃ h
  injection h with h₄ h
  injection h with h₅ h
  injection h with h₆ h₇
  exact ⟨h₁, h₂, h₃, h₄, h₅, h₆, h₇⟩

/-- An idle signal takes the three flags of its path, and otherwise moves
only the session. -/
theorem transportView_idleSignal (b : Broker) (path : ObjectPath) :
    (b.idleSignal path).1.transportView
      = (b.dropFlags path).transportView := by
  have h := IdleRegion.of_signal b path
  generalize b.idleSignal path = r at h ⊢
  cases h with
  | passed | noted | completed => rfl

/-- `clear` forgets the path, and otherwise moves only the session. -/
theorem transportView_clear (b : Broker) (path : ObjectPath) :
    (b.clear path).1.transportView = (b.forget path).transportView := by
  have h := ClearRegion.of_clear b path
  generalize (b.clear path).1 = b' at h ⊢
  cases h with
  | passed | ended => rfl

/-- The events of a region that runs on a session. -/
def Event.isSession : Event → Bool
  | .releaseStarted _ | .releaseReturned _ _ | .idleCompleted _ => true
  | _ => false

/-- The end of a release leaves the transports. -/
theorem FinishRegion.transports {sid : SessionId} {s : Session} {ok : Bool}
    {r : Broker × List Event} (h : FinishRegion b sid s ok r) :
    r.1.transportView = b.transportView
      ∧ ∀ e ∈ r.2, e.isSession = true := by
  cases h with
  | detached | released | exhausted =>
    refine ⟨rfl, ?_⟩
    intro e he
    obtain rfl := List.mem_singleton.mp he
    rfl
  | idled =>
    refine ⟨rfl, ?_⟩
    intro e he
    rcases List.mem_cons.mp he with rfl | he
    · rfl
    · obtain rfl := List.mem_singleton.mp he
      rfl

/-- A region on a session leaves the transports, the calls and the timers
alone. -/
theorem sessionStep_transports {sid : SessionId} {s : Session}
    {act : SessionAct} (hs : w.broker.sessions[sid]? = some s)
    (h : sessionStep w sid s act = some (w', es)) :
    w'.broker.transportView = w.broker.transportView
      ∧ w'.acquires = w.acquires ∧ w'.conns = w.conns
      ∧ w'.timers = w.timers ∧ w'.fds = w.fds
      ∧ ∀ e ∈ es, e.isSession = true := by
  cases SessionRegion.of_step h with
  | count | touch =>
    refine ⟨rfl, rfl, rfl, rfl, rfl, ?_⟩
    intro e he
    cases he
  | start =>
    refine ⟨rfl, rfl, rfl, rfl, rfl, ?_⟩
    intro e he
    obtain rfl := List.mem_singleton.mp he
    rfl
  | finish ok =>
    obtain ⟨hview, hevents⟩ := (FinishRegion.of_finish hs ok).transports
    exact ⟨hview, rfl, rfl, rfl, rfl, hevents⟩

-- == regions of acquire calls

/-- A publication configures nothing. -/
theorem ConfigMove.of_published {p : Publication} {pairing : Finset ObjectPath}
    (h : Published w.broker id p pairing w'.broker es)
    (hc : w'.conns = w.conns) :
    ConfigMove w w' (es.filter Event.isConfig) := by
  generalize hb : w'.broker = b at h
  have hsame : b.connection = w.broker.connection
      ∧ b.configured = w.broker.configured
      ∧ b.nextConfig = w.broker.nextConfig
      ∧ b.pending = w.broker.pending ∧ es.filter Event.isConfig = [] := by
    cases h with
    | returned lastGen | refused g g' _ _ | handedOff g g' fd _ _ =>
      exact ⟨rfl, rfl, rfl, rfl, rfl⟩
  obtain ⟨h₁, h₂, h₃, h₄, h₅⟩ := hsame
  rw [h₅]
  subst hb
  exact .of_same ⟨h₁, hc, h₂, h₃⟩ h₄

/-- What the third region of `acquire` leaves in the map is known or was
held at the configuration in force. -/
theorem ConfigMove.of_holdTransport {held : PendingTransport}
    {linkedPeer : Option PendingTransport}
    {order : List (ObjectPath × PendingTransport)} {o : HoldOutcome}
    (ho : w.broker.holdTransport held linkedPeer order = some (o, b, es))
    (hb : w'.broker = b) (hc : w'.conns = w.conns) :
    ConfigMove w w' [] := by
  obtain ⟨pending, pairing, rfl, hnew, -⟩ := holdTransport_frame ho
  refine .keep ⟨by rw [hb], hc, by rw [hb], by rw [hb]⟩ ?_
  intro p t ht
  rw [hb] at ht
  rcases hnew p t ht with hold | ⟨-, hp, hconf⟩
  · exact Or.inl hold
  · exact Or.inr ⟨hp, hconf⟩

/-- No region of `acquire` configures anything. -/
theorem ConfigMove.of_acquireStep {call : Acquire} {act : AcquireAct}
    (h : acquireStep w id call act = some (w', es)) :
    ConfigMove w w' (es.filter Event.isConfig) := by
  have hrefl : SameConfig w w := ⟨rfl, rfl, rfl, rfl⟩
  cases AcquireMove.of_step h with
  | enter | readLinks | refuse | mark | fail | reject | undecoded | wait
  | correlate | unmark => exact .of_same hrefl rfl
  | @acquire _ _ _ linkedPeer _ =>
    cases linkedPeer <;> exact .of_same hrefl rfl
  | giveBack ho | park ho =>
    rw [filter_isConfig_upkeep (upkeep_holdTransport ho)]
    exact .of_holdTransport ho rfl rfl
  | @pair _ _ sink source _ _ _ es ho =>
    show ConfigMove w _ (es.filter Event.isConfig)
    rw [filter_isConfig_upkeep (upkeep_holdTransport ho)]
    exact .of_holdTransport ho rfl rfl
  | publish _ _ hp _ => exact .of_published hp rfl

-- == the step

theorem isConfig_session {e : Event} (h : e.isSession = true) :
    e.isConfig = false := by
  cases e <;> first | rfl | cases h

theorem filter_isConfig_session (h : ∀ e ∈ es, e.isSession = true) :
    es.filter Event.isConfig = [] := by
  rw [List.filter_eq_nil_iff]
  intro e he
  rw [isConfig_session (h e he)]
  exact Bool.false_ne_true

theorem idleSignal_events (b : Broker) (path : ObjectPath) :
    ∃ es, (b.idleSignal path).2 = .idle path :: es
      ∧ ∀ e ∈ es, e.isSession = true := by
  have h := IdleRegion.of_signal b path
  generalize b.idleSignal path = r at h ⊢
  cases h with
  | passed | noted =>
    refine ⟨[], rfl, ?_⟩
    intro e he
    cases he
  | completed =>
    refine ⟨_, rfl, ?_⟩
    intro e he
    obtain rfl := List.mem_singleton.mp he
    rfl

/-- Every step is one of the moves. -/
theorem ConfigMove.of_step {act : Action} (h : step w act = some (w', es)) :
    ConfigMove w w' (es.filter Event.isConfig) := by
  have hrefl : SameConfig w w := ⟨rfl, rfl, rfl, rfl⟩
  have hpending : w.broker.closePending.filter Event.isConfig = [] :=
    filter_isConfig_upkeep (upkeep_closeAll _)
  cases act with
  | connect devicePath =>
    cases h
    show ConfigMove w _
      (.connected w.conns :: w.broker.closePending.filter Event.isConfig)
    rw [hpending]
    exact .connect rfl rfl rfl rfl rfl rfl
  | unregister =>
    cases h
    show ConfigMove w _
      (.unregistered :: w.broker.closePending.filter Event.isConfig)
    rw [hpending]
    exact .unregister rfl rfl rfl rfl rfl rfl
  | disconnect => cases h; exact .disconnect rfl rfl rfl rfl rfl
  | configure valid path direction codec qos =>
    injection h with h
    unfold World.region Broker.configure at h
    cases hr : w.broker.configureRefused valid path with
    | some e =>
      rw [hr] at h
      cases h
      exact .of_same hrefl rfl
    | none =>
      rw [hr] at h
      cases h
      show ConfigMove w _ (.configured path (w.broker.nextConfig + 1)
        :: (w.broker.closeHeld path).filter Event.isConfig)
      rw [filter_isConfig_upkeep (upkeep_closeHeld _ path)]
      refine .configure path
        ⟨direction, w.broker.nextConfig + 1, codec, qos⟩ ?_ rfl rfl rfl
        rfl rfl rfl (Finset.notMem_erase _ _)
      -- a counter at its last value would have been refused
      intro hmax
      unfold Broker.configureRefused at hr
      split at hr <;> cases hr
  | clear path =>
    cases h
    rw [clear_events]
    show ConfigMove w _
      (.cleared path :: (w.broker.closeHeld path).filter Event.isConfig)
    rw [filter_isConfig_upkeep (upkeep_closeHeld _ path)]
    obtain ⟨h₁, h₂, h₃, h₄, -, h₆, -⟩ := transportView_inj
      (transportView_clear w.broker path)
    refine .clear path h₃ h₂ h₄ h₁ rfl ?_
    rw [h₆]
    exact Finset.notMem_erase _ _
  | signal path state =>
    cases state with
    | pending | active => cases h; exact .of_same hrefl rfl
    | idle =>
      cases h
      -- an idle signal stops sessions but keeps the configuration
      obtain ⟨es, he, hsess⟩ := idleSignal_events w.broker path
      rw [he]
      show ConfigMove w _ (es.filter Event.isConfig)
      rw [filter_isConfig_session hsess]
      obtain ⟨h₁, h₂, h₃, h₄, -⟩ := transportView_inj
        (transportView_idleSignal w.broker path)
      exact .of_same ⟨h₁, rfl, h₂, h₃⟩ h₄
  | acquire id act =>
    obtain ⟨call, -, h⟩ := step_acquire h
    exact .of_acquireStep h
  | expire path generation =>
    obtain ⟨pending, timers, rfl, hsub, hup⟩ := step_expire_frame h
    rw [filter_isConfig_upkeep hup]
    -- an expiry only removes timers
    exact .keep hrefl fun p t ht => Or.inl (hsub p t ht)
  | session sid act =>
    obtain ⟨s, hs, h⟩ := step_session h
    obtain ⟨hv, -, hc, -, -, hsess⟩ := sessionStep_transports hs h
    rw [filter_isConfig_session hsess]
    obtain ⟨h₁, h₂, h₃, h₄, -⟩ := transportView_inj hv
    exact .of_same ⟨h₁, hc, h₂, h₃⟩ h₄
  | statistic k => cases h; exact .of_same hrefl rfl

-- == settings

theorem requireToken_published {p : Publication} {pairing : Finset ObjectPath}
    (h : Published b id p pairing b' es) :
    b'.requireToken = b.requireToken := by
  cases h <;> rfl

/-- The requirement is fixed at the start. -/
theorem requireToken_acquireStep {call : Acquire} {act : AcquireAct}
    (h : acquireStep w id call act = some (w', es)) :
    w'.broker.requireToken = w.broker.requireToken := by
  cases AcquireMove.of_step h with
  | enter | readLinks | refuse | mark | fail | reject | undecoded | acquire
  | wait | correlate | unmark => rfl
  | giveBack ho | park ho | pair ho =>
    obtain ⟨pending, pairing, rfl, -⟩ := holdTransport_frame ho
    rfl
  | publish _ _ hp _ => exact requireToken_published hp

/-- Whether a token is required is settled before the broker runs. -/
theorem requireToken_step {act : Action} (h : step w act = some (w', es)) :
    w'.broker.requireToken = w.broker.requireToken := by
  cases act with
  | connect devicePath | unregister | disconnect => cases h; rfl
  | configure valid path direction codec qos =>
    injection h with h
    unfold World.region Broker.configure at h
    split at h <;> cases h <;> rfl
  | clear path =>
    cases h
    obtain ⟨-, -, -, -, -, -, hr⟩ := transportView_inj
      (transportView_clear w.broker path)
    exact hr
  | signal path state =>
    cases state with
    | pending | active => cases h; rfl
    | idle =>
      cases h
      obtain ⟨-, -, -, -, -, -, hr⟩ := transportView_inj
        (transportView_idleSignal w.broker path)
      exact hr
  | acquire id act =>
    obtain ⟨call, -, h⟩ := step_acquire h
    exact requireToken_acquireStep h
  | expire path generation =>
    obtain ⟨pending, timers, rfl, -⟩ := step_expire_frame h
    rfl
  | session sid act =>
    obtain ⟨s, hs, h⟩ := step_session h
    obtain ⟨hv, -⟩ := sessionStep_transports hs h
    obtain ⟨-, -, -, -, -, -, hr⟩ := transportView_inj hv
    exact hr
  | statistic k => cases h; rfl

end Callbridge.Bluez
