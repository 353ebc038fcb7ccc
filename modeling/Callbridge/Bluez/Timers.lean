/-
The broker with its expiry timers told apart. `acquire` starts one
`expirePending` call for each transport it leaves waiting, and the call is
given nothing but the transport's path and the generation of its
configuration: that is all `World.timers` keeps of it. Here every running
call is remembered with the transport it was started for, which nothing in
the broker can see, so that what a timer takes out of the map can be
compared with what it was meant for.
-/
import Callbridge.Bluez.World

namespace Callbridge.Bluez

open Lib

structure Timing where
  world : World
  /-- the transports the running `expirePending` calls were started for -/
  armed : List PendingTransport
  deriving DecidableEq

def newTiming (b : Broker) : Timing := ⟨newWorld b, []⟩

inductive TimingAct where
  /-- a region of the broker that is no timer's -/
  | broker (act : Action)
  /-- the timer started for this transport fires -/
  | fire (held : PendingTransport)
  deriving DecidableEq

/-- What an `expirePending` call is given. -/
def PendingTransport.slot (t : PendingTransport) : ObjectPath × UInt64 :=
  (t.path, t.config.generation)

def Action.isExpiry : Action → Bool
  | .expire _ _ => true
  | _ => false

/-- The transport that the region starts `expirePending` for. -/
def World.parks (w : World) : Action → Option PendingTransport
  | .acquire id (.hold order) =>
      match w.acquires[id]? with
      | some (.held _ transport linkedPeer) =>
          match w.broker.holdTransport transport linkedPeer order with
          | some (.parked, _, _) => some transport
          | _ => none
      | _ => none
  | _ => none

/-- The region of the broker that a step runs. -/
def TimingAct.region : TimingAct → Action
  | .broker act => act
  | .fire held => .expire held.slot.1 held.slot.2

def Timing.enabled (m : Timing) : TimingAct → Bool
  | .broker act => !act.isExpiry
  | .fire held => decide (held ∈ m.armed)

def Timing.nextArmed (m : Timing) : TimingAct → List PendingTransport
  | .broker act => (m.world.parks act).toList ++ m.armed
  | .fire held => m.armed.erase held

/-- The machine. -/
def timingStep (m : Timing) (act : TimingAct) :
    Option (Timing × List Event) :=
  if m.enabled act then
    (step m.world act.region).map fun r => (⟨r.1, m.nextArmed act⟩, r.2)
  else none

abbrev TimingTrans := Lib.Trans Timing TimingAct Event

end Callbridge.Bluez
