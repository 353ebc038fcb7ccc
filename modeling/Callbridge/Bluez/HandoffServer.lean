/-
The handoff server (internal/bluez/handoff.go): one slot for the media
peer, shared by the loop of `Run`, which fills it and empties it, and by
`PublishPair`, which sends a pair of descriptors to whoever is in it.

A connection is named by its number among those the kernel ever passed up.
The loop is kept at the place it has reached between two locked regions
(`Serving`); `PublishPair` holds the mutex from its stale check to its
end, so a call is one step. What `poll`, `accept`, `socketpair` and
`sendmsg` answer comes in with the label. A sequenced packet is sent whole
or not at all, so a failed send delivers nothing.
-/
import Callbridge.Lib.Trace
import Callbridge.Bluez.Handoff

namespace Callbridge.Bluez

open Lib

abbrev ClientId := Nat

-- == the server

/-- The part of `HandoffServer` behind its mutex; `lastGen` is indexed by
direction. -/
structure HandoffServer where
  clientFD : Option ClientId
  lastGenSink : UInt64
  lastGenSource : UInt64
  lastBundle : UInt64
  deriving DecidableEq

/-- `NewHandoffServer`. -/
def newHandoffServer : HandoffServer := ⟨none, 0, 0, 0⟩

/-- What the server does that its fields do not show. -/
inductive ServerEvent where
  | accepted (client : ClientId)
  /-- A descriptor packet went out on a connection. -/
  | packet (client : ClientId) (packet : Bytes)
  /-- The connection was closed by the server. -/
  | closed (client : ClientId)
  | published (sink source : Descriptor)
  | unpublished
  /-- The disconnect handler was called. -/
  | notified
  deriving DecidableEq

-- == PublishPair

inductive SendOutcome where
  | sent
  | failed
  | short
  deriving DecidableEq

inductive PublishError where
  | descriptor (e : DescriptorError)
  | descriptorPair
  | lifecycle
  | stale
  | notConnected
  | send
  | shortSend
  deriving DecidableEq

/-- The text of an error; `cause` is that of the system call. -/
def PublishError.text (cause : String) : PublishError → String
  | .descriptor e => e.text
  | .descriptorPair => "invalid LE Audio transport descriptor pair"
  | .lifecycle => "open LE Audio lifecycle socket: " ++ cause
  | .stale => "stale LE Audio generation"
  | .notConnected => "LE Audio media peer is not connected"
  | .send => "send LE Audio transport: " ++ cause
  | .shortSend => "short LE Audio descriptor handoff"

/-- `sendDescriptorLocked`: the error, if any, the server it leaves and
what went out. -/
def HandoffServer.sendDescriptorLocked (s : HandoffServer)
    (client : ClientId) (packet : Bytes) :
    SendOutcome → Option PublishError × HandoffServer × List ServerEvent
  | .sent => (none, s, [.packet client packet])
  | .failed => (some .send, { s with clientFD := none }, [.closed client])
  | .short =>
      (some .shortSend, { s with clientFD := none }, [.closed client])

/-- One call of `PublishPair`: its arguments, the lifecycle descriptor it
keeps of the socket pair (`none` where there is none to be had) and how
its two sends end. -/
structure PublishCall where
  sinkFD : Int
  sink : Descriptor
  sourceFD : Int
  source : Descriptor
  lifecycle : Option Int
  sinkSend : SendOutcome
  sourceSend : SendOutcome
  deriving DecidableEq

/-- The sink owns the lifecycle, whatever the caller said. -/
def PublishCall.ownedSink (c : PublishCall) : Descriptor :=
  { c.sink with lifecycleOwned := true }

def PublishCall.ownedSource (c : PublishCall) : Descriptor :=
  { c.source with lifecycleOwned := false }

/-- The checks before the mutex is taken: the two packets and the
lifecycle descriptor. -/
def PublishCall.prepare (c : PublishCall) :
    Except PublishError (Bytes × Bytes × Int) :=
  match validateDescriptorPair c.ownedSink c.ownedSource with
  | some e => .error (.descriptor e)
  | none =>
      match encodeDescriptor c.ownedSink with
      | .error e => .error (.descriptor e)
      | .ok sinkPacket =>
          match encodeDescriptor c.ownedSource with
          | .error e => .error (.descriptor e)
          | .ok sourcePacket =>
              if c.sinkFD < 0 ∨ c.sourceFD < 0 ∨ c.sinkFD = c.sourceFD then
                .error .descriptorPair
              else
                match c.lifecycle with
                | none => .error .lifecycle
                | some fd => .ok (sinkPacket, sourcePacket, fd)

/-- A generation or a bundle that is not newer than the last. -/
def HandoffServer.stale (s : HandoffServer) (sink source : Descriptor) :
    Bool :=
  decide (sink.generation ≤ s.lastGenSink)
    || decide (source.generation ≤ s.lastGenSource)
    || decide (sink.bundleID ≤ s.lastBundle)

/-- The sends of `PublishPair`, to the connected peer. -/
def HandoffServer.sendPair (s : HandoffServer) (client : ClientId)
    (c : PublishCall) (sinkPacket sourcePacket : Bytes) (fd : Int) :
    Except PublishError Int × HandoffServer × List ServerEvent :=
  match s.sendDescriptorLocked client sinkPacket c.sinkSend with
  | (some e, s₁, out) => (.error e, s₁, out ++ [.unpublished])
  | (none, s₁, out) =>
      match s₁.sendDescriptorLocked client sourcePacket c.sourceSend with
      | (some e, s₂, out') => (.error e, s₂, out ++ out' ++ [.unpublished])
      | (none, s₂, out') =>
          (.ok fd, { s₂ with
              lastGenSink := c.sink.generation
              lastGenSource := c.source.generation
              lastBundle := c.sink.bundleID },
            out ++ out' ++ [.published c.ownedSink c.ownedSource])

/-- `PublishPair`. -/
def HandoffServer.publishPair (s : HandoffServer) (c : PublishCall) :
    Except PublishError Int × HandoffServer × List ServerEvent :=
  match c.prepare with
  | .error e => (.error e, s, [.unpublished])
  | .ok (sinkPacket, sourcePacket, fd) =>
      if s.stale c.sink c.source then (.error .stale, s, [.unpublished])
      else
        match s.clientFD with
        | none => (.error .notConnected, s, [.unpublished])
        | some client => s.sendPair client c sinkPacket sourcePacket fd

-- == the loop

/-- What `poll` says of the listening socket. -/
inductive ListenerState where
  | quiet
  | readable
  | failed
  deriving DecidableEq

/-- Where the loop of `Run` stands between two locked regions. -/
inductive Serving where
  /-- not running: not started yet, or returned -/
  | stopped
  /-- at the head of the loop -/
  | sampling
  /-- in `poll`, with the client it has seen in the slot -/
  | polling (client : Option ClientId)
  /-- that client has hung up or spoken -/
  | noticed (client : ClientId) (listener : ListenerState)
  /-- the slot has been emptied, the disconnect handler is called -/
  | notifying (listener : ListenerState)
  | accepting
  /-- a peer with the right credentials waits for the slot -/
  | admitting (client : ClientId)
  /-- `Run` returns, its deferred `close` is left -/
  | closing
  deriving DecidableEq

/-- Where the loop goes on once it is done with the client. -/
def afterClient : ListenerState → Serving
  | .quiet => .sampling
  | .readable => .accepting
  | .failed => .closing

inductive PollResult where
  /-- a timeout, or a signal that interrupted the call -/
  | nothing
  | error
  | events (client : Bool) (listener : ListenerState)
  deriving DecidableEq

inductive AcceptResult where
  | again
  | error
  /-- credentials that cannot be read or are another user's -/
  | stranger
  | peer
  deriving DecidableEq

inductive ServingAct where
  | start
  | sample
  | stop
  | poll (result : PollResult)
  | clear
  | notify
  | accept (result : AcceptResult)
  | seat
  | close
  deriving DecidableEq

structure Handoff where
  server : HandoffServer
  loop : Serving
  /-- how many connections the kernel has passed up -/
  clients : ClientId
  deriving DecidableEq

def newHandoff : Handoff := ⟨newHandoffServer, .stopped, 0⟩

/-- The loop stands elsewhere; nothing else changes. -/
def Handoff.goto (s : Handoff) (next : Serving) : Handoff :=
  { s with loop := next }

/-- The client leaves the slot and its connection is closed. -/
def Handoff.vacate (s : Handoff) (client : ClientId) (next : Serving) :
    Handoff × List ServerEvent :=
  ({ s with server := { s.server with clientFD := none }, loop := next },
    [.closed client])

def Handoff.polled (s : Handoff) (client : Option ClientId) :
    PollResult → Handoff
  | .nothing => s.goto .sampling
  | .error => s.goto .closing
  | .events ready listener =>
      match client, ready with
      | some client, true => s.goto (.noticed client listener)
      | _, _ => s.goto (afterClient listener)

/-- The region that empties the slot, if the client polled is still in
it. -/
def Handoff.clear (s : Handoff) (client : ClientId)
    (listener : ListenerState) : Handoff × List ServerEvent :=
  if s.server.clientFD = some client then
    s.vacate client (.notifying listener)
  else (s.goto (afterClient listener), [])

def Handoff.accept (s : Handoff) : AcceptResult → Handoff × List ServerEvent
  | .again => (s.goto .sampling, [])
  | .error => (s.goto .closing, [])
  | .stranger =>
      ({ s with loop := .sampling, clients := s.clients + 1 },
        [.closed s.clients])
  | .peer =>
      ({ s with loop := .admitting s.clients, clients := s.clients + 1 }, [])

/-- The region that fills the slot, if it is empty. -/
def Handoff.seat (s : Handoff) (client : ClientId) :
    Handoff × List ServerEvent :=
  if s.server.clientFD = none then
    ({ s with
        server := { s.server with clientFD := some client }
        loop := .sampling }, [.accepted client])
  else (s.goto .sampling, [.closed client])

/-- The deferred `close`. -/
def Handoff.close (s : Handoff) : Handoff × List ServerEvent :=
  match s.server.clientFD with
  | some client => s.vacate client .stopped
  | none => (s.goto .stopped, [])

/-- The regions of the loop, each enabled where the loop stands. -/
def servingStep (s : Handoff) :
    Serving → ServingAct → Option (Handoff × List ServerEvent)
  | .stopped, .start => some (s.goto .sampling, [])
  | .sampling, .sample => some (s.goto (.polling s.server.clientFD), [])
  | .sampling, .stop => some (s.goto .closing, [])
  | .polling client, .poll result => some (s.polled client result, [])
  | .noticed client listener, .clear => some (s.clear client listener)
  | .notifying listener, .notify =>
      some (s.goto (afterClient listener), [.notified])
  | .accepting, .accept result => some (s.accept result)
  | .admitting client, .seat => some (s.seat client)
  | .closing, .close => some s.close
  | _, _ => none

inductive HandoffAct where
  | loop (act : ServingAct)
  | publish (call : PublishCall)
  deriving DecidableEq

/-- The machine. -/
def handoffStep (s : Handoff) :
    HandoffAct → Option (Handoff × List ServerEvent)
  | .loop act => servingStep s s.loop act
  | .publish call =>
      some ({ s with server := (s.server.publishPair call).2.1 },
        (s.server.publishPair call).2.2)

/-- A step of the server, as it stands in a run. -/
abbrev HandoffTrans := Lib.Trans Handoff HandoffAct ServerEvent

end Callbridge.Bluez
