/-
The broker among its goroutines: a machine whose steps are the locked
regions of `Bluez.Broker` and `Bluez.Session`, taken in any order in which
the goroutines that contain them can take them.

An `acquire` call is kept at the place it has reached between two locked
regions (`Acquire`). The release of a session is in flight from the region
that starts it to the region that ends it (`releases`), an expiry timer is
armed until it fires (`timers`), and everything that watches a session may
run its next region at any moment, also long after the session has gone:
the step takes the session by number and asks for nothing but that it was
installed once.

The label of a step carries what the region cannot know: what BlueZ
answers, what the clock reads, what the call-token provider says and
whether the correlation deadline has passed.
-/
import Callbridge.Lib.Trace
import Callbridge.Bluez.Session

namespace Callbridge.Bluez

open Lib

-- == acquire calls

/-- Where an `acquire` call stands between two locked regions. -/
inductive Acquire where
  /-- started by a pending signal, nothing read yet -/
  | entered (path : ObjectPath)
  /-- past the first guard, asking BlueZ for the links -/
  | linking (path : ObjectPath)
  /-- past `linkedAcquirePlan` -/
  | planned (path : ObjectPath) (peer : Option ObjectPath)
  /-- its paths are marked, `TryAcquire` is running -/
  | marked (a : Acquisition)
  /-- it has a validated transport in hand -/
  | held (a : Acquisition) (held : PendingTransport)
      (linkedPeer : Option PendingTransport)
  /-- it has reserved a pair and waits for a call token -/
  | reserved (a : Acquisition) (sink source : PendingTransport)
  /-- `waitForCallToken` has returned -/
  | correlated (a : Acquisition) (sink source : PendingTransport)
      (callToken : UInt64) (callCorrelated : Bool)
  /-- only the deferred function is left -/
  | returning (a : Acquisition)
  | done
  deriving DecidableEq

structure World where
  broker : Broker
  acquires : List Acquire
  releases : List SessionId
  timers : List (ObjectPath × UInt64)
  conns : ConnId
  fds : FD
  deriving DecidableEq

/-- The process before `Run`. -/
def newWorld (b : Broker) : World := ⟨b, [], [], [], 0, 0⟩

/-- The state a transport's `PropertiesChanged` signal reports. -/
inductive TransportState where
  | pending
  | active
  | idle
  deriving DecidableEq

/-- The next locked region of an `acquire` call, with the answers it
gets. -/
inductive AcquireAct where
  | enter
  | readLinks (links : Option (List ObjectPath))
  | mark
  | tryAcquire (reply : Option TransportReply)
  /-- `TryAcquire` has passed a descriptor in a reply that does not
  decode. -/
  | undecoded
  | hold (order : List (ObjectPath × PendingTransport))
  | poll (answer : Option (UInt64 × Bool)) (expired : Bool)
  | publish (sinkClock sourceClock : Option (Int × Int))
      (lifecycleFD : Option Int) (now : Nat)
  | unmark
  deriving DecidableEq

/-- The regions that are addressed to one session. -/
inductive SessionAct where
  | progress (progress : LifecycleProgress) (now : Nat)
  | checkNormalEnd (identity : LifecycleProgress)
  | markNormal (normalEndEvent : Bool)
  | beginWait (normalEndEvent : Bool)
  | forceTimeout
  | requestRelease
  | finishRelease (ok : Bool)
  deriving DecidableEq

inductive Action where
  | connect (devicePath : Bytes)
  | unregister
  | disconnect
  | configure (valid : Bool) (path : ObjectPath) (direction : Direction)
      (codec : CodecConfig) (qos : TransportQoS)
  | clear (path : ObjectPath)
  | signal (path : ObjectPath) (state : TransportState)
  | acquire (id : AcquireId) (act : AcquireAct)
  | expire (path : ObjectPath) (generation : UInt64)
  | session (sid : SessionId) (act : SessionAct)
  | statistic (k : Statistic)
  deriving DecidableEq

-- == the steps

/-- A region that belongs to no `acquire` call. -/
def World.region (w : World) (r : Broker × List Event) :
    World × List Event :=
  ({ w with broker := r.1 }, r.2)

/-- A region of an `acquire` call, and where it leaves the call. -/
def World.acquireRegion (w : World) (id : AcquireId)
    (r : Broker × List Event) (next : Acquire) : World × List Event :=
  ({ w with broker := r.1, acquires := w.acquires.set id next }, r.2)

/-- A region that may start the release of a session. -/
def World.releaseRegion (w : World) (sid : SessionId)
    (r : Broker × List Event) : World × List Event :=
  ({ w with
      broker := r.1
      releases := if r.2 = [] then w.releases else sid :: w.releases }, r.2)

/-- Where `acquire` goes once BlueZ has answered with the links. -/
def afterLinks (path : ObjectPath) (links : Option (List ObjectPath)) :
    Acquire :=
  match links.bind (linkedAcquirePlan path) with
  | some (none, _) => .planned path none
  | some (some peer, true) => .planned path (some peer)
  | some (some _, false) => .done
  | none => .done

/-- `TryAcquire` and the validation that follows it. -/
def World.tryAcquire (w : World) (id : AcquireId) (a : Acquisition)
    (reply : Option TransportReply) : World × List Event :=
  match reply with
  | none => w.acquireRegion id (w.broker, []) (.returning a)
  | some r =>
      match a.hold w.fds r with
      | none =>
          ({ w with
              acquires := w.acquires.set id (.returning a)
              fds := w.fds + 1 }, [.opened w.fds, .closed w.fds])
      | some (held, linkedPeer) =>
          ({ w with
              acquires := w.acquires.set id (.held a held linkedPeer)
              fds := w.fds + 1 + linkedPeer.toList.length },
            .opened w.fds
              :: linkedPeer.toList.map fun peer => .opened peer.fd)

/-- The return after a reply that does not decode, which leaves the
descriptor it came with open. -/
def World.undecoded (w : World) (id : AcquireId) (a : Acquisition) :
    World × List Event :=
  ({ w with
      acquires := w.acquires.set id (.returning a)
      fds := w.fds + 1 }, [.opened w.fds])

/-- The third region of `acquire`, by what comes out of it. -/
def World.hold (w : World) (id : AcquireId) (a : Acquisition)
    (held : PendingTransport) :
    HoldOutcome × Broker × List Event → World × List Event
  | (.returned, b, es) => w.acquireRegion id (b, es) (.returning a)
  | (.parked, b, es) =>
      ({ w with
          broker := b
          acquires := w.acquires.set id (.returning a)
          timers := (held.path, held.config.generation) :: w.timers }, es)
  | (.paired sink source, b, es) =>
      w.acquireRegion id (b, .reserved id sink source :: es)
        (.reserved a sink source)

/-- One pass of `waitForCallToken`, which without `requireToken` makes
only one. A required token that never came sends the pair back. -/
def World.poll (w : World) (id : AcquireId) (a : Acquisition)
    (sink source : PendingTransport) (answer : Option (UInt64 × Bool))
    (expired : Bool) : World × List Event :=
  match correlatedToken answer with
  | some token =>
      w.acquireRegion id (w.broker, [])
        (.correlated a sink source token true)
  | none =>
      if w.broker.requireToken && !expired then (w, [])
      else
        w.acquireRegion id (w.broker, [])
          (.correlated a sink source 0 false)

/-- What follows `waitForCallToken`. -/
def World.publish (w : World) (id : AcquireId) (a : Acquisition)
    (p : Publication) : World × List Event :=
  if w.broker.requireToken && !p.callCorrelated then
    w.acquireRegion id (w.broker.returnPair id p.sink p.source)
      (.returning a)
  else w.acquireRegion id (w.broker.publish id p) (.returning a)

/-- The locked regions of one `acquire` call, each enabled where the call
stands. -/
def acquireStep (w : World) (id : AcquireId) :
    Acquire → AcquireAct → Option (World × List Event)
  | .entered path, .enter =>
      some (w.acquireRegion id (w.broker, [])
        (if w.broker.acquirable path then .linking path else .done))
  | .linking path, .readLinks links =>
      some (w.acquireRegion id (w.broker, []) (afterLinks path links))
  | .planned path peer, .mark =>
      match w.broker.markAcquiring path peer with
      | some (a, b) => some (w.acquireRegion id (b, []) (.marked a))
      | none => some (w.acquireRegion id (w.broker, []) .done)
  | .marked a, .tryAcquire reply => some (w.tryAcquire id a reply)
  | .marked a, .undecoded => some (w.undecoded id a)
  | .held a held linkedPeer, .hold order =>
      (w.broker.holdTransport held linkedPeer order).map (w.hold id a held)
  | .reserved a sink source, .poll answer expired =>
      some (w.poll id a sink source answer expired)
  | .correlated a sink source callToken callCorrelated,
      .publish sinkClock sourceClock lifecycleFD now =>
      some (w.publish id a ⟨a.conn, sink, source, callToken,
        callCorrelated, sinkClock, sourceClock, lifecycleFD, now⟩)
  | .returning a, .unmark =>
      some (w.acquireRegion id (w.broker.unmarkAcquiring a, []) .done)
  | _, _ => none

/-- The regions on one session, given its record. -/
def sessionStep (w : World) (sid : SessionId) (s : Session) :
    SessionAct → Option (World × List Event)
  | .progress progress now =>
      some (w.region
        (w.broker.recordLifecycleProgress sid s progress now, []))
  | .checkNormalEnd identity =>
      some (w.region (w.broker.checkLifecycleNormalEnd sid s identity, []))
  | .markNormal normalEndEvent =>
      some (w.region
        (w.broker.markNormalReleasePending sid s normalEndEvent, []))
  | .beginWait normalEndEvent =>
      some (w.region
        (w.broker.beginNormalReleaseWait sid s normalEndEvent, []))
  | .forceTimeout =>
      some (w.releaseRegion sid (w.broker.forceNormalReleaseTimeout sid s))
  | .requestRelease =>
      some (w.releaseRegion sid
        (w.broker.requestSpecificSessionRelease sid s))
  | .finishRelease ok =>
      if sid ∈ w.releases then
        some ({ w with
            broker := (w.broker.finishRelease sid s ok).1
            releases := w.releases.erase sid },
          (w.broker.finishRelease sid s ok).2)
      else none

/-- The machine. -/
def step (w : World) : Action → Option (World × List Event)
  | .connect devicePath =>
      some ({ w with
          broker := (w.broker.connect w.conns devicePath).1
          conns := w.conns + 1 }, (w.broker.connect w.conns devicePath).2)
  | .unregister => some (w.region w.broker.unregister)
  | .disconnect => some (w.region w.broker.disconnect)
  | .configure valid path direction codec qos =>
      some (w.region (w.broker.configure valid path direction codec qos))
  | .clear path => some (w.region (w.broker.clear path))
  | .signal path .pending =>
      some ({ w with acquires := w.acquires ++ [.entered path] }, [])
  | .signal path .idle => some (w.region (w.broker.idleSignal path))
  | .signal _ .active => some (w, [])
  | .acquire id act =>
      match w.acquires[id]? with
      | some call => acquireStep w id call act
      | none => none
  | .expire path generation =>
      if (path, generation) ∈ w.timers then
        some ({ w with
            broker := (w.broker.expirePending path generation).1
            timers := w.timers.erase (path, generation) },
          (w.broker.expirePending path generation).2)
      else none
  | .session sid act =>
      match w.broker.sessions[sid]? with
      | some s => sessionStep w sid s act
      | none => none
  | .statistic k => some (w.region (w.broker.statistic k, []))

/-- A step of the broker, as it stands in a run. -/
abbrev WorldTrans := Lib.Trans World Action Event

end Callbridge.Bluez
