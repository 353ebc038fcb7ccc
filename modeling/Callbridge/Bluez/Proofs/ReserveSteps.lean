/-
What one step of the broker can do to its reservations: the paths in
`pairing`, and where the `acquire` calls stand. A call reserves its pair
in one region and gives the reservation up in another; in between it holds
the pair and waits (`Acquire.pair`), and nothing else moves it.
-/
import Callbridge.Bluez.Proofs.Generations

namespace Callbridge.Bluez

open Lib

variable {b b' : Broker} {w w' : World} {id : AcquireId} {a : Acquisition}
  {sink source : PendingTransport} {es : List Event} {act : AcquireAct}

-- == waiting calls

/-- The pair an `acquire` call holds between its reservation and the end
of it. -/
def Acquire.pair :
    Acquire → Option (Acquisition × PendingTransport × PendingTransport)
  | .reserved a sink source => some (a, sink, source)
  | .correlated a sink source _ _ => some (a, sink, source)
  | _ => none

/-- What a call read under the lock when it marked its paths. -/
def Acquire.acquisition : Acquire → Option Acquisition
  | .marked a => some a
  | .held a _ _ => some a
  | .reserved a _ _ => some a
  | .correlated a _ _ _ _ => some a
  | .returning a => some a
  | _ => none

/-- The call has reserved this pair and not given it up. -/
def World.Waits (w : World) (id : AcquireId) (a : Acquisition)
    (sink source : PendingTransport) : Prop :=
  ∃ call, w.acquires[id]? = some call ∧ call.pair = some (a, sink, source)

/-- The events about reservations. -/
def Event.isPairing : Event → Bool
  | .reserved _ _ _ | .unreserved _ _ _ | .publishPair _ _ _ _ _ _
  | .idle _ => true
  | _ => false

/-- Upkeep is not about reservations. -/
theorem filter_isPairing_upkeep (h : ∀ e ∈ es, e.isUpkeep = true) :
    es.filter Event.isPairing = [] := by
  rw [List.filter_eq_nil_iff]
  intro e he
  have hu := h e he
  cases e <;> first | exact Bool.false_ne_true | cases hu

/-- Nor is what a session lets out. -/
theorem filter_isPairing_session (h : ∀ e ∈ es, e.isSession = true) :
    es.filter Event.isPairing = [] := by
  rw [List.filter_eq_nil_iff]
  intro e he
  have hu := h e he
  cases e <;> first | exact Bool.false_ne_true | cases hu

-- == what a step does

/-- What the last region of a call lets out: that the reservation is given
up, after a publication or without one. -/
inductive FinishEvents (b : Broker) (id : AcquireId) (a : Acquisition)
    (sink source : PendingTransport) (token : UInt64) (correlated : Bool) :
    List Event → Prop
  | returned : FinishEvents b id a sink source token correlated
      [.unreserved id sink source]
  | published {d d' : Descriptor} {ok : Bool} :
      b.pairCurrentLocked a.conn sink source = true →
      d.callControlToken = token → d'.callControlToken = token →
      (b.requireToken = true → correlated = true) →
      FinishEvents b id a sink source token correlated
        [.publishPair id sink source d d' ok, .unreserved id sink source]

/-- What a region of one `acquire` call does to the reservations and to the
call, with its events about them. -/
inductive CallMove (w w' : World) (id : AcquireId) (act : AcquireAct) :
    List Event → Prop
  | quiet : w'.broker.pairing = w.broker.pairing →
      w'.acquires = w.acquires → CallMove w w' id act []
  | advance {call next : Acquire} :
      w.acquires[id]? = some call → w'.acquires = w.acquires.set id next →
      w'.broker.pairing = w.broker.pairing →
      call.pair = none → next.pair = none →
      (∀ a, next.acquisition = some a → call.acquisition = some a
        ∨ w.broker.connection = some a.conn) →
      CallMove w w' id act []
  | correlate {a : Acquisition} {sink source : PendingTransport}
      (token : UInt64) (correlated : Bool) :
      w.acquires[id]? = some (.reserved a sink source) →
      w'.acquires
        = w.acquires.set id (.correlated a sink source token correlated) →
      w'.broker.pairing = w.broker.pairing →
      (correlated = true → ∃ answer expired,
        act = .poll answer expired ∧ correlatedToken answer = some token) →
      CallMove w w' id act []
  | reserve {a : Acquisition} {held : PendingTransport}
      {linkedPeer : Option PendingTransport}
      {sink source : PendingTransport} :
      w.acquires[id]? = some (.held a held linkedPeer) →
      w'.acquires = w.acquires.set id (.reserved a sink source) →
      w'.broker.pairing
        = insert source.path (insert sink.path w.broker.pairing) →
      sink.path ≠ source.path → w.broker.stillConfigured sink = true →
      w.broker.stillConfigured source = true →
      CallMove w w' id act [.reserved id sink source]
  | finish {a : Acquisition} {sink source : PendingTransport}
      {token : UInt64} {correlated : Bool} {l : List Event} :
      w.acquires[id]?
        = some (.correlated a sink source token correlated) →
      w'.acquires = w.acquires.set id (.returning a) →
      Cleared w.broker sink source w'.broker.pairing →
      FinishEvents w.broker id a sink source token correlated l →
      CallMove w w' id act l

/-- What a step does to the reservations and the calls, with its events
about them. -/
inductive ReserveMove (w w' : World) (act : Action) : List Event → Prop
  | quiet : w'.broker.pairing = w.broker.pairing →
      w'.acquires = w.acquires → ReserveMove w w' act []
  | enter (path : ObjectPath) : w'.broker.pairing = w.broker.pairing →
      w'.acquires = w.acquires ++ [.entered path] → ReserveMove w w' act []
  | call {id : AcquireId} {a : AcquireAct} {l : List Event} :
      act = .acquire id a → CallMove w w' id a l →
      ReserveMove w w' act l
  | erase (path : ObjectPath) {l : List Event} :
      w'.broker.pairing = w.broker.pairing.erase path →
      w'.acquires = w.acquires → l = [] ∨ l = [.idle path] →
      ReserveMove w w' act l
  | reset : w'.broker.pairing = ∅ → w'.acquires = w.acquires →
      ReserveMove w w' act []

-- == regions of acquire calls

/-- The third region reserves the pair it finds. -/
theorem CallMove.of_paired {held : PendingTransport}
    {linkedPeer : Option PendingTransport}
    {order : List (ObjectPath × PendingTransport)} (hinv : ConfigInv w)
    (hid : w.acquires[id]? = some (.held a held linkedPeer))
    (ho : w.broker.holdTransport held linkedPeer order
      = some (.paired sink source, b, es)) :
    CallMove w { w.moved id (.reserved a sink source) with broker := b } id
      act [.reserved id sink source] := by
  obtain ⟨pending, pairing, rfl, -, hspec, hheld⟩ := holdTransport_frame ho
  obtain ⟨hpairing, peer, hentry, hne, horient⟩ := hspec
  have hc := hheld sink source rfl
  have hcpeer : w.broker.stillConfigured peer = true := by
    rcases hentry with ⟨p, hp⟩ | ⟨-, hp⟩
    · exact (hinv.pending p peer hp).2
    · exact hp
  unfold orient at horient
  split at horient
  case isTrue =>
    cases horient
    exact .reserve hid rfl hpairing (Ne.symm hne) hc hcpeer
  case isFalse =>
    cases horient
    exact .reserve hid rfl hpairing hne hcpeer hc

/-- A third region that reserves nothing. -/
theorem pairing_of_unpaired {held : PendingTransport}
    {linkedPeer : Option PendingTransport}
    {order : List (ObjectPath × PendingTransport)} {o : HoldOutcome}
    (ho : b.holdTransport held linkedPeer order = some (o, b', es))
    (hne : ∀ sink source, o ≠ .paired sink source) :
    b'.pairing = b.pairing := by
  obtain ⟨pending, pairing, rfl, -, hspec, -⟩ := holdTransport_frame ho
  cases o with
  | returned | parked => exact hspec
  | paired sink source => exact absurd rfl (hne sink source)

/-- The last region gives the reservation up, in every outcome. -/
theorem CallMove.of_published {p : Publication} {pairing : Finset ObjectPath}
    (hid : w.acquires[id]?
      = some (.correlated a p.sink p.source p.callToken p.callCorrelated))
    (hconn : p.conn = a.conn) (hmem : Cleared w.broker p.sink p.source pairing)
    (hp : Published w.broker id p pairing b es)
    (hreq : (∃ g, b = { w.broker with lastGen := g, pairing := pairing }
        ∧ es = .unreserved id p.sink p.source
          :: closeAll [p.sink, p.source])
      ∨ (w.broker.requireToken = true → p.callCorrelated = true)) :
    CallMove w { w.moved id (.returning a) with broker := b } id act
      (es.filter Event.isPairing) := by
  rcases hreq with ⟨g, rfl, rfl⟩ | hreq
  · exact .finish hid rfl hmem FinishEvents.returned
  · cases hp with
    | returned lastGen =>
      exact .finish hid rfl hmem FinishEvents.returned
    | refused g g' hcur _ | handedOff g g' _ hcur _ =>
      rw [hconn] at hcur
      exact .finish hid rfl hmem
        (FinishEvents.published hcur rfl rfl hreq)

/-- A call that has read its links holds nothing yet. -/
theorem afterLinks_plain (path : ObjectPath)
    (links : Option (List ObjectPath)) :
    (afterLinks path links).pair = none
      ∧ (afterLinks path links).acquisition = none := by
  unfold afterLinks
  split <;> exact ⟨rfl, rfl⟩

/-- Every region of an `acquire` call is one of the moves. -/
theorem CallMove.of_acquireStep {call : Acquire} (hinv : ConfigInv w)
    (hid : w.acquires[id]? = some call)
    (h : acquireStep w id call act = some (w', es)) :
    CallMove w w' id act (es.filter Event.isPairing) := by
  -- a call that is not marked yet has read no connection
  have hplain : ∀ {next : Acquire}, next.acquisition = none →
      ∀ x, next.acquisition = some x → call.acquisition = some x
        ∨ w.broker.connection = some x.conn := by
    intro next hnext x hx
    rw [hnext] at hx
    cases hx
  cases AcquireMove.of_step h with
  | enter path hnext =>
    rcases hnext with rfl | rfl <;>
      exact .advance hid rfl rfl rfl rfl (hplain rfl)
  | readLinks path links =>
    obtain ⟨hpair, hacq⟩ := afterLinks_plain path links
    exact .advance hid rfl rfl rfl hpair (hplain hacq)
  | refuse | unmark =>
    exact .advance hid rfl rfl rfl rfl (hplain rfl)
  | mark acquiring _ hconn _ _ =>
    refine .advance hid rfl rfl rfl rfl ?_
    intro x hx
    cases hx
    exact Or.inr hconn
  | fail | reject | undecoded =>
    exact .advance hid rfl rfl rfl rfl fun _ hx => Or.inl hx
  | @acquire _ _ _ linkedPeer _ =>
    cases linkedPeer <;>
      exact .advance hid rfl rfl rfl rfl fun _ hx => Or.inl hx
  | giveBack ho | park ho =>
    rw [filter_isPairing_upkeep (upkeep_holdTransport ho)]
    exact .advance hid rfl (pairing_of_unpaired ho (by simp)) rfl rfl
      fun _ hx => Or.inl hx
  | @pair _ _ sink source _ _ _ es ho =>
    show CallMove w _ id _
      (.reserved id sink source :: es.filter Event.isPairing)
    rw [filter_isPairing_upkeep (upkeep_holdTransport ho)]
    exact .of_paired hinv hid ho
  | wait => exact .quiet rfl rfl
  | @correlate a sink source answer expired token correlated ht =>
    exact .correlate token correlated hid rfl rfl
      fun hc => ⟨answer, expired, rfl, ht hc⟩
  | publish hconn hmem hp hreq =>
    exact .of_published hid hconn hmem hp hreq

-- == the step

/-- A region of a call moves that call. -/
theorem CallMove.of_step (hinv : ConfigInv w)
    (h : step w (.acquire id act) = some (w', es)) :
    CallMove w w' id act (es.filter Event.isPairing) := by
  obtain ⟨call, hid, h⟩ := step_acquire h
  exact .of_acquireStep hinv hid h

/-- Every step is one of the moves. -/
theorem ReserveMove.of_step {act : Action} (hinv : ConfigInv w)
    (h : step w act = some (w', es)) :
    ReserveMove w w' act (es.filter Event.isPairing) := by
  have hpending : w.broker.closePending.filter Event.isPairing = [] :=
    filter_isPairing_upkeep (upkeep_closeAll _)
  cases act with
  | connect devicePath | unregister =>
    cases h
    show ReserveMove w _ _ (w.broker.closePending.filter Event.isPairing)
    rw [hpending]
    exact .reset rfl rfl
  | disconnect => cases h; exact .quiet rfl rfl
  -- a configuration takes the reservation of its path along, `clear` and an
  -- idle signal do too
  | configure valid path direction codec qos =>
    injection h with h
    unfold World.region Broker.configure at h
    cases hr : w.broker.configureRefused valid path with
    | some e =>
      rw [hr] at h
      cases h
      exact .quiet rfl rfl
    | none =>
      rw [hr] at h
      cases h
      show ReserveMove w _ _
        ((w.broker.closeHeld path).filter Event.isPairing)
      rw [filter_isPairing_upkeep (upkeep_closeHeld _ path)]
      exact .erase path rfl rfl (Or.inl rfl)
  | clear path =>
    cases h
    rw [clear_events]
    show ReserveMove w _ _
      ((w.broker.closeHeld path).filter Event.isPairing)
    rw [filter_isPairing_upkeep (upkeep_closeHeld _ path)]
    obtain ⟨-, -, -, -, -, hp, -⟩ := transportView_inj
      (transportView_clear w.broker path)
    exact .erase path hp rfl (Or.inl rfl)
  | signal path state =>
    cases state with
    | pending => cases h; exact .enter path rfl rfl
    | active => cases h; exact .quiet rfl rfl
    | idle =>
      cases h
      obtain ⟨es, he, hsess⟩ := idleSignal_events w.broker path
      rw [he]
      show ReserveMove w _ _ (.idle path :: es.filter Event.isPairing)
      rw [filter_isPairing_session hsess]
      obtain ⟨-, -, -, -, -, hp, -⟩ := transportView_inj
        (transportView_idleSignal w.broker path)
      exact .erase path hp rfl (Or.inr rfl)
  | acquire id act =>
    exact .call rfl (CallMove.of_step hinv h)
  | expire path generation =>
    obtain ⟨pending, timers, rfl, -, hup⟩ := step_expire_frame h
    rw [filter_isPairing_upkeep hup]
    exact .quiet rfl rfl
  -- what a session does leaves the transports
  | session sid act =>
    obtain ⟨s, hs, h⟩ := step_session h
    obtain ⟨hv, hacq, -, -, -, hsess⟩ := sessionStep_transports hs h
    rw [filter_isPairing_session hsess]
    obtain ⟨-, -, -, -, -, hp, -⟩ := transportView_inj hv
    exact .quiet hp hacq
  | statistic k => cases h; exact .quiet rfl rfl

end Callbridge.Bluez
