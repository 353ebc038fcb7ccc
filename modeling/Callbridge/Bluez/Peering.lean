/-
The broker and the handoff server as one process. The broker calls
`PublishPair` inside the last region of an `acquire` call, and the server
calls the disconnect handler that `NewBroker` gave it
(`requestActiveSessionRelease`), outside its own mutex and in two regions
of the broker's: one that reads the active session, one that asks for the
release of what was read.

A step runs at most one region of each side. The answer of `PublishPair`,
which the broker's machine takes from the label, is here the server's.
-/
import Callbridge.Bluez.World
import Callbridge.Bluez.HandoffServer

namespace Callbridge.Bluez

open Lib

structure Peering where
  world : World
  handoff : Handoff
  /-- what the disconnect handler has read, while it runs -/
  reading : Option (Option SessionId)
  deriving DecidableEq

def newPeering (b : Broker) : Peering := ⟨newWorld b, newHandoff, none⟩

/-- How the system calls inside `PublishPair` end: the lifecycle socket
and the two sends. -/
structure Delivery where
  lifecycle : Option Int
  sinkSend : SendOutcome
  sourceSend : SendOutcome
  deriving DecidableEq

inductive PeeringAct where
  /-- a region of the broker that does not publish -/
  | broker (act : Action)
  /-- the last region of an `acquire` call -/
  | publish (id : AcquireId) (sinkClock sourceClock : Option (Int × Int))
      (delivery : Delivery) (now : Nat)
  /-- a region of the server's loop, its handler apart -/
  | serve (act : ServingAct)
  /-- the first region of the handler -/
  | readActive
  /-- the second region of the handler -/
  | requestRelease
  deriving DecidableEq

inductive PeeringEvent where
  | broker (e : Event)
  | server (e : ServerEvent)
  deriving DecidableEq

def Action.publishes : Action → Bool
  | .acquire _ (.publish _ _ _ _) => true
  | _ => false

-- == the two sides

/-- The call of `PublishPair` that an event of the broker tells of. -/
def Delivery.call (d : Delivery) : Event → Option PublishCall
  | .publishPair _ sink source sinkDescriptor sourceDescriptor _ =>
      some ⟨sink.fd, sinkDescriptor, source.fd, sourceDescriptor,
        d.lifecycle, d.sinkSend, d.sourceSend⟩
  | _ => none

/-- The call of `PublishPair` the region comes to, if it comes to one. -/
def Peering.publishCall (m : Peering) (id : AcquireId)
    (sinkClock sourceClock : Option (Int × Int)) (d : Delivery)
    (now : Nat) : Option PublishCall :=
  match step m.world
      (.acquire id (.publish sinkClock sourceClock none now)) with
  | some (_, es) => es.findSome? d.call
  | none => none

/-- What that call returns: the lifecycle descriptor, or an error. -/
def Peering.lifecycleFD (m : Peering) : Option PublishCall → Option Int
  | some call => (m.handoff.server.publishPair call).1.toOption
  | none => none

/-- The region of the broker that a step runs. -/
def Peering.brokerAct (m : Peering) : PeeringAct → Option Action
  | .broker act => some act
  | .publish id sinkClock sourceClock d now =>
      some (.acquire id (.publish sinkClock sourceClock
        (m.lifecycleFD (m.publishCall id sinkClock sourceClock d now)) now))
  | .serve _ => none
  | .readActive => none
  | .requestRelease =>
      match m.reading with
      | some (some sid) => some (.session sid .requestRelease)
      | _ => none

/-- The region of the server that a step runs. -/
def Peering.serverAct (m : Peering) : PeeringAct → Option HandoffAct
  | .broker _ => none
  | .publish id sinkClock sourceClock d now =>
      (m.publishCall id sinkClock sourceClock d now).map .publish
  | .serve act => some (.loop act)
  | .readActive => none
  | .requestRelease => some (.loop .notify)

def Serving.isNotifying : Serving → Bool
  | .notifying _ => true
  | _ => false

def Peering.enabled (m : Peering) : PeeringAct → Bool
  | .broker act => !act.publishes
  | .publish _ _ _ _ _ => true
  | .serve act => act != .notify
  | .readActive => m.handoff.loop.isNotifying && m.reading == none
  | .requestRelease => m.reading != none

def Peering.nextReading (m : Peering) :
    PeeringAct → Option (Option SessionId)
  | .readActive => some m.world.broker.activeSession
  | .requestRelease => none
  | _ => m.reading

/-- The machine. -/
def peeringStep (m : Peering) (act : PeeringAct) :
    Option (Peering × List PeeringEvent) :=
  if m.enabled act then
    match optStep step m.world (m.brokerAct act),
        optStep handoffStep m.handoff (m.serverAct act) with
    | some (world, es), some (handoff, out) =>
        some (⟨world, handoff, m.nextReading act⟩,
          es.map .broker ++ out.map .server)
    | _, _ => none
  else none

abbrev PeeringTrans := Lib.Trans Peering PeeringAct PeeringEvent

end Callbridge.Bluez
