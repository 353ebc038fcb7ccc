/-
The way of an outgoing message into the queue and out of it: who may send
one (internal/bridge/http.go, `sourceAllowed` and `outboxHandler`, told as
the branch a request takes), and the outbound wake-up
(internal/bridge/service.go): `enqueue`, and the loop of `runConnected`
with `drainOutbound`, as they share the queue of the store and the channel
`outboundWake`, which has room for one token.

Any number of `enqueue` calls may be under way; between its `AddOutbound`
and its send a call has nothing of its own left but that it is there, so
these are counted. The select of the loop takes any case that is ready;
all of them but the wake-up may be ready at any time. What another case
does to the store is a step of its own, and whether the session survives
it is left to the label. The loop is `away` wherever `mapLoop` is not
inside `runConnected`.
-/
import Callbridge.Config.Validate
import Callbridge.Message.BMessage
import Callbridge.State.Store

namespace Callbridge.Bridge

open Lib Lib.Netip State Message

-- == who may send

/-- What the handler reads of an `http.Request`. -/
structure OutboxRequest where
  remoteAddr : Bytes
  method : Bytes
  path : Bytes

/-- The branches of `outboxHandler`. -/
inductive OutboxRoute where
  | forbidden
  | health
  | ready
  | notFound
  | send
  deriving DecidableEq

section Sources

variable (parseIPv6 : Bytes → Option (BitVec 128 × Bytes))

def sourceAllowed (cfg : Config.Settings) (remote : Bytes) : Bool :=
  match splitHostPort remote with
  | none => false
  | some (host, _) =>
      match parseAddr parseIPv6 host with
      | none => false
      | some address =>
          if address.is4 = false then false
          else cfg.allowedSources.any fun p => p.contains address

def outboxHandler (cfg : Config.Settings) (r : OutboxRequest) : OutboxRoute :=
  if sourceAllowed parseIPv6 cfg r.remoteAddr = false then .forbidden
  else if r.method = ascii "GET" ∧ r.path = ascii "/health" then .health
  else if r.method = ascii "GET" ∧ r.path = ascii "/ready" then .ready
  else if r.method ≠ ascii "POST" ∨ r.path ≠ ascii "/send/sms" then .notFound
  else .send

end Sources

-- == the queue and the loop

/-- The cases of the select, other than the wake-up and the end. -/
inductive SelectCase where
  | event
  | command
  | poll
  | keepalive
  deriving DecidableEq

/-- Where the session goroutine stands. -/
inductive Loop where
  | away
  | draining
  | handing (item : Outbound)
  | selecting
  | serving (c : SelectCase)
  deriving DecidableEq

structure Outgoing where
  store : Store
  /-- A token is in `outboundWake`. -/
  wake : Bool
  /-- The `enqueue` calls that have added and not yet sent. -/
  signalling : Nat
  loop : Loop

def Outgoing.start (s : Store) : Outgoing := ⟨s, false, 0, .away⟩

inductive OutgoingAct where
  | enqueue (destination text : Bytes) (identifier : Option Bytes)
      (queuedAt : Stamp) (fault : Option SaveFault)
  | signal
  | runConnected
  | takeOutbound (fault : Option SaveFault)
  | sendSMS (ok : Bool)
  | wakeReceived
  | selected (c : SelectCase)
  | markSeen (handle : Bytes) (fault : Option SaveFault)
  | finished (keep : Bool)
  | cancelled
  | markBaseline (handles : List Bytes) (fault : Option SaveFault)
  | setInitialized (fault : Option SaveFault)

/-- What is handed to `SendSMS`. -/
inductive OutgoingEvent where
  | handed (item : Outbound) (ok : Bool)
  deriving DecidableEq

/-- The item `enqueue` makes of its arguments, unless it refuses them or
has no random bytes for the identifier. -/
def newItem (destination text : Bytes) (identifier : Option Bytes)
    (queuedAt : Stamp) : Option Outbound :=
  match outboundItem destination text, identifier with
  | .ok (destination, text), some bytes =>
      some ⟨hexEncode bytes, destination, text, queuedAt⟩
  | _, _ => none

/-- `enqueue` up to its send: a call that fails returns. -/
def Outgoing.enqueue (b : Outgoing) (item : Outbound)
    (fault : Option SaveFault) : Outgoing :=
  let o := b.store.addOutbound item fault
  match o.result with
  | .ok _ => { b with store := o.store, signalling := b.signalling + 1 }
  | .error _ => { b with store := o.store }

/-- Where `drainOutbound` goes on after `TakeOutbound`: an error ends the
session, and an empty queue the drain. -/
def Loop.afterTake : Except StoreError (Option Outbound) → Loop
  | .error _ => .away
  | .ok none => .selecting
  | .ok (some item) => .handing item

def outgoingStep (b : Outgoing) :
    OutgoingAct → Option (Outgoing × List OutgoingEvent)
  | .enqueue destination text identifier queuedAt fault =>
      match newItem destination text identifier queuedAt with
      | none => some (b, [])
      | some item => some (b.enqueue item fault, [])
  | .signal =>
      if b.signalling = 0 then none
      else
        -- a send that finds the slot taken is dropped
        some ({ b with wake := true, signalling := b.signalling - 1 }, [])
  | .runConnected =>
      if b.loop = .away then some ({ b with loop := .draining }, [])
      else none
  | .takeOutbound fault =>
      if b.loop = .draining then
        let o := b.store.takeOutbound fault
        some ({ b with store := o.store, loop := .afterTake o.result }, [])
      else none
  | .sendSMS ok =>
      match b.loop with
      | .handing item =>
          some ({ b with loop := if ok then .draining else .away },
            [.handed item ok])
      | .away | .draining | .selecting | .serving _ => none
  | .wakeReceived =>
      if b.loop = .selecting ∧ b.wake = true then
        some ({ b with wake := false, loop := .draining }, [])
      else none
  | .selected c =>
      if b.loop = .selecting then some ({ b with loop := .serving c }, [])
      else none
  | .markSeen handle fault =>
      match b.loop with
      | .serving _ =>
          some ({ b with store := (b.store.markSeen handle fault).store },
            [])
      | .away | .draining | .selecting | .handing _ => none
  | .finished keep =>
      match b.loop with
      | .serving _ =>
          some ({ b with loop := if keep then .selecting else .away }, [])
      | .away | .draining | .selecting | .handing _ => none
  | .cancelled =>
      if b.loop = .selecting then some ({ b with loop := .away }, [])
      else none
  | .markBaseline handles fault =>
      if b.loop = .away then
        some ({ b with
          store := (b.store.markSeenMany handles fault).store }, [])
      else none
  | .setInitialized fault =>
      if b.loop = .away then
        some ({ b with store := (b.store.setInitialized fault).store }, [])
      else none

end Callbridge.Bridge
