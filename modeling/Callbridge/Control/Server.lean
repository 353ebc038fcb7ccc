/-
The control socket's server (internal/control/server.go): the messages it
builds, and what it does with them while it holds its lock.

A connection is told apart by its `ClientId`, which is never used twice;
the source has the descriptor's number there, and acts on whichever client
is connected. A send takes the kernel's answers as an argument, and a
packet that is not written loses the client. Left out are the socket's
path and the credentials of the peer, which decide who is accepted and
nothing of what is sent.
-/
import Callbridge.Gtbs.Client
import Callbridge.Protocol.Codec

namespace Callbridge.Control

open Lib Protocol Gtbs

-- == messages

/-- The message of one call. An identity that will not encode is dropped
rather than allowed to fail the snapshot. -/
def stateMessage (device : Bytes) (sequence : UInt64) (flags : UInt8)
    (call : Call) : Message where
  type := typeState
  flags := flags
  sequence := sequence
  token := call.token
  device := device
  index := call.index
  code := call.state
  value := call.flags
  payload :=
    match encodeIdentity call.identity with
    | .ok payload => payload
    | .error _ => []

/-- The message of a snapshot without calls. -/
def noCallMessage (device : Bytes) (sequence : UInt64) : Message where
  type := typeState
  flags := flagSnapshot ||| flagLast
  sequence := sequence
  token := 0
  device := device
  index := 0
  code := noCallState
  value := 0
  payload := []

def snapshotMessages (device : Bytes) (snapshot : Snapshot) :
    List Message :=
  if snapshot.calls.length = 0 then
    [noCallMessage device snapshot.sequence]
  else
    snapshot.calls.mapIdx fun index call =>
      stateMessage device snapshot.sequence
        (if index = snapshot.calls.length - 1 then flagSnapshot ||| flagLast
          else flagSnapshot) call

def readyCode (ready : Bool) : UInt8 := if ready then 1 else 0

def readyMessage (device : Bytes) (sequence : UInt64) (ready : Bool) :
    Message where
  type := typeReady
  flags := 0
  sequence := sequence
  token := 0
  device := device
  index := 0
  code := readyCode ready
  value := 0
  payload := []

def resultMessage (device : Bytes) (sequence : UInt64)
    (opcode index result : UInt8) (token : UInt64) : Message where
  type := typeResult
  flags := 0
  sequence := sequence
  token := token
  device := device
  index := index
  code := opcode
  value := result
  payload := []

/-- The acknowledgement of a command. -/
def ackMessage (device : Bytes) (command : Message) (value : UInt8) :
    Message where
  type := typeAck
  flags := 0
  sequence := command.sequence
  token := command.token
  device := device
  index := command.index
  code := command.code
  value := value
  payload := []

-- == the server

abbrev ClientId := Nat

structure Server where
  device : Bytes
  client : Option ClientId
  ready : Bool
  sequence : UInt64
  deriving DecidableEq

/-- `NewServer`, with the clock reading its sequence starts from. -/
def newServer (device : Bytes) (now : UInt64) : Option Server :=
  if normalizedDevice device = [] then none
  else some ⟨normalizedDevice device, none, false, now⟩

/-- What leaves the server: a packet, to the client it was written to. -/
inductive ServerEvent where
  | sent (client : ClientId) (packet : Bytes)
  deriving DecidableEq

/-- `nextSequence`: the next counter value that is not zero. -/
def Server.nextSequence (s : Server) : UInt64 × Server :=
  (skip 0 s.sequence, { s with sequence := skip 0 s.sequence })

def Server.closeClientLocked (s : Server) : Server :=
  { s with client := none }

/-- `sendMessageLocked`; `ok` is whether the packet is written. -/
def Server.sendMessageLocked (s : Server) (m : Message) (ok : Bool) :
    Server × List ServerEvent :=
  match s.client with
  | none => (s, [])
  | some client =>
      match m.encode with
      | .error _ => (s, [])
      | .ok packet =>
          if ok then (s, [.sent client packet])
          else (s.closeClientLocked, [])

/-- `sendMessagesLocked`, which stops when the client is lost; a missing
answer is a packet that is written. -/
def Server.sendMessagesLocked (s : Server) :
    List Message → List Bool → Server × List ServerEvent
  | [], _ => (s, [])
  | m :: rest, oks =>
      let r := s.sendMessageLocked m (oks.headD true)
      if r.1.client = none then r
      else
        let r' := r.1.sendMessagesLocked rest oks.tail
        (r'.1, r.2 ++ r'.2)

/-- The part of `SetReady` under the lock. -/
def Server.setReady (s : Server) (ready : Bool) (ok : Bool) :
    Server × List ServerEvent :=
  if s.ready = ready then (s, [])
  else
    let r := s.nextSequence
    Server.sendMessageLocked { r.2 with ready := ready }
      (readyMessage s.device r.1 ready) ok

def Server.broadcastSnapshot (s : Server) (snapshot : Snapshot)
    (oks : List Bool) : Server × List ServerEvent :=
  s.sendMessagesLocked (snapshotMessages s.device snapshot) oks

def Server.broadcastResult (s : Server) (opcode index result : UInt8)
    (token : UInt64) (ok : Bool) : Server × List ServerEvent :=
  let r := s.nextSequence
  r.2.sendMessagesLocked
    [resultMessage s.device r.1 opcode index result token] [ok]

/-- The acknowledgement `receive` sends. -/
def Server.acknowledge (s : Server) (command : Message) (value : UInt8)
    (ok : Bool) : Server × List ServerEvent :=
  s.sendMessagesLocked [ackMessage s.device command value] [ok]

/-- What `accept` sends to its client once it has the snapshot. -/
def Server.greet (s : Server) (snapshot : Snapshot) (oks : List Bool) :
    Server × List ServerEvent :=
  let r := s.nextSequence
  r.2.sendMessagesLocked (snapshotMessages s.device snapshot
    ++ [readyMessage s.device r.1 s.ready]) oks

-- == commands

/-- `ClassifyCommandError`, on what the handler returned. -/
def classifyCommandError : Option CommandError → UInt8
  | none => ackAccepted
  | some .stale => ackStale
  | some .unavailable => ackUnavailable
  | some .invalid => ackInvalid
  | some .writeFailed => ackWriteFailed

/-- The command a packet is taken for. -/
def Server.command (s : Server) (packet : Bytes) : Option Message :=
  if packet.length ≠ packetSize then none
  else
    match decode packet with
    | .error _ => none
    | .ok m =>
        if m.type ≠ typeCommand ∨ m.device ≠ s.device then none else some m

/-- The handler runs without the server's lock, so the server that
acknowledges (`later`) may have moved on from the one that read the
command. -/
def Server.receive (s later : Server) (packet : Bytes)
    (handler : Message → Option CommandError) (ok : Bool) :
    Server × List ServerEvent :=
  match s.command packet with
  | none => (s.closeClientLocked, [])
  | some m => later.acknowledge m (classifyCommandError (handler m)) ok

end Callbridge.Control
