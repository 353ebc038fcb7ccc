/-
The store, the GTBS client's goroutine and the control server's, as far as
a control client can see them.

The GTBS goroutine (internal/gtbs/client.go) is the only one that changes
the calls. It applies a value under the store's lock, takes the snapshot,
and hands it to the server later, under the server's lock; `Feed` says
where between the two it is. The server's goroutine accepts a client in
one hold of its lock: it takes a snapshot of its own, then sends it
(`accepting`). Until it has, everything that needs the server's lock
waits, and the store does not.

`SetReady` and the results come from the GTBS goroutine too, claims from
the control socket. A client goes when a packet cannot be written to it,
or when the server drops it, at any time.
-/
import Callbridge.Control.Server
import Callbridge.Lib.Trace

namespace Callbridge.Control

open Lib Protocol Gtbs

-- == the state

/-- Where the GTBS client's goroutine is. -/
inductive Feed where
  /-- There is no session, or `runOnce` has not read the calls yet. -/
  | down
  /-- `runOnce` has applied the calls it read. -/
  | started
  /-- It has read the caller identity as well. -/
  | identified
  /-- A new caller identity has been applied. -/
  | refreshing
  /-- It has a snapshot to emit, the session's first or a later one. -/
  | holding (snapshot : Snapshot) (first : Bool)
  /-- The first snapshot is out. -/
  | announcing
  | up
  /-- The session has ended. -/
  | leaving
  deriving DecidableEq

structure Relay where
  store : Store
  server : Server
  feed : Feed
  /-- The snapshot an `accept` has taken and not sent yet. -/
  accepting : Option Snapshot
  /-- The clients accepted so far. -/
  clients : ClientId
  deriving DecidableEq

/-- A server and a store, with nobody connected and no session. -/
def newRelay (server : Server) (now : UInt64) : Relay :=
  ⟨newStore now, server, .down, none, 0⟩

-- == its parts

/-- A Call State value reaches the store: what the goroutine goes on with,
where it fails and where it does not. -/
def Relay.applyCalls (r : Relay) (value : Bytes) (failed : Feed)
    (applied : Snapshot → Feed) : Relay :=
  match r.store.apply value with
  | (.ok snapshot, store) =>
      { r with store := store, feed := applied snapshot }
  | (.error _, store) => { r with store := store, feed := failed }

/-- A caller identity reaches the store. -/
def Relay.applyIdentity (r : Relay) (value : Bytes)
    (failed applied : Feed) : Relay :=
  match r.store.applyIncomingCall value with
  | (.ok _, store) => { r with store := store, feed := applied }
  | (.error _, store) => { r with store := store, feed := failed }

/-- The server has done something under its lock. -/
def Relay.served (r : Relay) (feed : Feed)
    (out : Server × List ServerEvent) : Relay × List ServerEvent :=
  ({ r with server := out.1, feed := feed }, out.2)

-- == steps

inductive RelayAct where
  /-- `runOnce` reads the calls and the caller identity. -/
  | start (value : Bytes)
  | identify (value : Bytes)
  /-- A notification of the session is handled. -/
  | callState (value : Bytes)
  | incomingCall (value : Bytes)
  | result (opcode index result : UInt8) (token : UInt64) (ok : Bool)
  /-- `Store.Snapshot`. -/
  | take
  | broadcast (oks : List Bool)
  | announce (ok : Bool)
  | leave
  | withdraw (ok : Bool)
  | claim (index : UInt8) (token : UInt64)
  | accept
  | greet (oks : List Bool)
  | acknowledge (command : Message) (value : UInt8) (ok : Bool)
  | drop
  deriving DecidableEq

/-- The steps of the GTBS client's goroutine. -/
def feedStep (r : Relay) :
    Feed → RelayAct → Option (Relay × List ServerEvent)
  | .down, .start value =>
      some (r.applyCalls value .down fun _ => .started, [])
  | .started, .identify value =>
      some (r.applyIdentity value .identified .identified, [])
  | .started, .take =>
      some ({ r with feed := .holding r.store.snapshot true }, [])
  | .identified, .take =>
      some ({ r with feed := .holding r.store.snapshot true }, [])
  | .up, .callState value =>
      some (r.applyCalls value .up fun snapshot => .holding snapshot false,
        [])
  | .up, .incomingCall value =>
      some (r.applyIdentity value .up .refreshing, [])
  | .refreshing, .take =>
      some ({ r with feed := .holding r.store.snapshot false }, [])
  | .holding snapshot first, .broadcast oks =>
      if r.accepting = none then
        some (r.served (if first then .announcing else .up)
          (r.server.broadcastSnapshot snapshot oks))
      else none
  | .announcing, .announce ok =>
      if r.accepting = none then
        some (r.served .up (r.server.setReady true ok))
      else none
  | .up, .result opcode index result token ok =>
      if r.accepting = none then
        some (r.served .up
          (r.server.broadcastResult opcode index result token ok))
      else none
  | .up, .leave => some ({ r with feed := .leaving }, [])
  | .leaving, .withdraw ok =>
      if r.accepting = none then
        some (r.served .down (r.server.setReady false ok))
      else none
  | _, _ => none

/-- The machine. -/
def relayStep (r : Relay) :
    RelayAct → Option (Relay × List ServerEvent)
  | .claim index token =>
      some ({ r with store := r.store.claimCall index token }, [])
  | .accept =>
      if r.accepting = none ∧ r.server.client = none then
        some ({ r with
          server := { r.server with client := some r.clients }
          accepting := some r.store.snapshot
          clients := r.clients + 1 }, [])
      else none
  | .greet oks =>
      match r.accepting with
      | some snapshot =>
          some ({ r with
            server := (r.server.greet snapshot oks).1
            accepting := none }, (r.server.greet snapshot oks).2)
      | none => none
  | .acknowledge command value ok =>
      if r.accepting = none then
        some (r.served r.feed (r.server.acknowledge command value ok))
      else none
  | .drop =>
      if r.accepting = none then
        some ({ r with server := r.server.closeClientLocked }, [])
      else none
  | act => feedStep r r.feed act

/-- A step of the relay, as it stands in a run. -/
abbrev RelayTrans := Lib.Trans Relay RelayAct ServerEvent

-- == the client's view

/-- The message a client reads off what was sent, if it was sent to it. -/
def readBy (client : ClientId) : ServerEvent → Option Message
  | .sent c packet =>
      if c = client then
        match decode packet with
        | .ok m => some m
        | .error _ => none
      else none

/-- What a client has received, in order. -/
def received (client : ClientId) (es : List ServerEvent) : List Message :=
  es.filterMap (readBy client)

def statesIn (ms : List Message) : List Message :=
  ms.filter fun m => m.type == typeState

def readinessIn (ms : List Message) : List Message :=
  ms.filter fun m => m.type == typeReady

/-- The state messages of one step: a batch, or what a client that was
lost in it has got of one. -/
def batchOf (client : ClientId) (x : RelayTrans) : List Message :=
  statesIn (received client x.out)

/-- The batch is complete: its last message says so. -/
def Complete (batch : List Message) : Prop :=
  ∃ m, batch.getLast? = some m ∧ m.flags &&& flagLast ≠ 0

/-- The code of the last readiness message a client has received. -/
def lastReady (client : ClientId) (es : List ServerEvent) : Option UInt8 :=
  ((readinessIn (received client es)).getLast?).map Message.code

end Callbridge.Control
