/-
The connected loop and the requests it makes on its session
(internal/bridge/service.go: `runConnected`, `poll`, `processEvent`,
`executeCommand`, `drainOutbound`).

The loop is cut where it uses the session and where it decides whether to
go on with it. An errand is a call of a session method on behalf of one of
the five callers, and `Errand.after` is what that caller does with the
result: `Keepalive` and `drainOutbound` give the session up after any
error, `poll` and `executeCommand` after those `IsTransportError` accepts,
and `processEvent` tries again on the same session, whatever the error,
until its last attempt. A message that could not be fetched is marked
before the error counts, and a failure to mark it takes the error's place.

What the callers do beside the session is not here but for whether it
fails: `some true` is a failure that `IsTransportError` accepts, `some
false` one that it does not, such as a context that is done.
-/
import Callbridge.Message.BMessage
import Callbridge.MapClient.Link
import Callbridge.Bridge.Service

namespace Callbridge.Bridge

open Lib MapClient Obex

-- == errands

/-- A call on the session, by the caller it is for: with the attempts that
remain after this one, if it is a fetch, and the handles that remain to
`poll`, if `poll` makes it. -/
inductive Errand where
  | keepalive
  | outbound (destination text : Bytes)
  | command (call : Call)
  | listing (maximum : Int)
  | message (folder handle : Bytes) (later : Nat)
      (polling : Option (List Bytes))
  deriving DecidableEq

def Errand.call : Errand → Call
  | .keepalive => .keepalive
  | .outbound destination text =>
      .push (ascii "telecom/msg/outbox")
        (Message.makeSMSBMessage destination text) false true
  | .command call => call
  | .listing maximum => .list inbox maximum 0
  | .message folder handle _ _ => .get folder handle

/-- Where the session goroutine stands. -/
inductive Stage where
  | selecting
  /-- `drainOutbound`, before `TakeOutbound`. -/
  | draining
  /-- `poll` has the body of a listing. -/
  | listed
  /-- `poll`'s loop, with the handles to come. -/
  | polling (rest : List Bytes)
  /-- `processEvent` before an attempt, of which `left` are left. -/
  | fetching (folder handle : Bytes) (left : Nat)
      (polling : Option (List Bytes))
  /-- `processEvent` has the message. -/
  | fetched (polling : Option (List Bytes))
  /-- `processEvent` marks a message it has failed to fetch. -/
  | marking (e : MapError) (polling : Option (List Bytes))
  /-- `request`, before and after its `WritePacket`. -/
  | writing (errand : Errand) (opcode : UInt8) (payload : Bytes)
      (pending : Pending)
  | reading (errand : Errand) (pending : Pending) (buffer : Bytes)
  /-- `runConnected` has returned. -/
  | returned
  | crashed
  deriving DecidableEq

/-- After an error that the caller hands to `IsTransportError`. -/
def Stage.unless (transport : Bool) : Stage :=
  if transport then .returned else .selecting

/-- What the caller does with the result of its call. -/
def Errand.after (result : Except MapError Bytes) : Errand → Stage
  | .keepalive =>
      match result with
      | .ok _ => .selecting
      | .error _ => .returned
  | .outbound _ _ =>
      match result with
      | .ok _ => .draining
      | .error _ => .returned
  | .command _ =>
      match result with
      | .ok _ => .selecting
      | .error e => .unless (isTransportError e)
  | .listing _ =>
      match result with
      | .ok _ => .listed
      | .error e => .unless (isTransportError e)
  | .message folder handle later polling =>
      match result with
      | .ok _ => .fetched polling
      | .error e =>
          if later = 0 then .marking e polling
          else .fetching folder handle later polling

/-- `processEvent` returns to the select or to `poll`, which returns to
the select after an error. -/
def Stage.afterEvent (polling : Option (List Bytes))
    (failure : Option Bool) : Stage :=
  match polling, failure with
  | none, none => .selecting
  | none, some _ => .returned
  | some rest, none => .polling rest
  | some _, some transport => .unless transport

-- == machine

structure Connected where
  session : Session
  link : Link
  stage : Stage
  deriving DecidableEq

/-- `runConnected` starts with a drain. -/
def Connected.start (s : Session) : Connected := ⟨s, .start, .draining⟩

inductive ConnectedAct where
  | wake
  | event (folder handle : Bytes)
  | command (call : Call)
  | poll (maximum : Int)
  | keepalive
  | cancelled
  | sendSMS (destination text : Bytes)
  | drained (failed : Bool)
  | listed (handles : Option (List Bytes))
  | pollNext
  | attempt (slept : Bool)
  | processed (failure : Option Bool)
  | markSeen (failure : Option Bool)
  | write (failure : Option LinkError)
  | read
  | readFailed (e : LinkError)
  | answer (reply : Bytes)
  deriving DecidableEq

/-- What can be seen of a step: a request made, a packet that `request`
returned for the n-th request, the bytes returned for a handle. -/
inductive ConnectedEvent where
  | issued (r : Request)
  | received (n : Nat) (packet : Packet)
  | delivered (handle raw : Bytes)
  deriving DecidableEq

def Errand.delivers (errand : Errand) (result : Except MapError Bytes) :
    List ConnectedEvent :=
  match errand.call, result with
  | .get _ handle, .ok raw => [.delivered handle raw]
  | _, _ => []

/-- A call goes on to its next request, or to its caller. -/
def Errand.place (errand : Errand) (l : Link) :
    Session × Progress → Connected × List ConnectedEvent
  | (s, .request opcode payload pending) =>
      (⟨s, l, .writing errand opcode payload pending⟩,
        [.issued ⟨opcode, payload⟩])
  | (s, .finished result) =>
      (⟨s, l, errand.after result⟩, errand.delivers result)
  | (s, .panicked) => (⟨s, l, .crashed⟩, [])

def Connected.begin (c : Connected) (errand : Errand) :
    Connected × List ConnectedEvent :=
  errand.place c.link (c.session.call errand.call)

def Connected.resume (c : Connected) (errand : Errand) (pending : Pending)
    (answer : Except LinkError Packet) : Connected × List ConnectedEvent :=
  errand.place c.link (c.session.resume pending answer)

def Connected.goTo (c : Connected) (stage : Stage) :
    Connected × List ConnectedEvent :=
  ({ c with stage := stage }, [])

/-- `WritePacket` returns. -/
def Connected.written (c : Connected) (errand : Errand) (r : Request)
    (pending : Pending) :
    Option LinkError → Option (Connected × List ConnectedEvent)
  | none => some (Connected.goTo { c with link := c.link.write r }
      (.reading errand pending []))
  | some e =>
      if e = .errno ∨ e = .shortWrite then
        some (c.resume errand pending (.error e))
      else none

/-- One byte more of the answer. -/
def Connected.readByte (c : Connected) (errand : Errand)
    (pending : Pending) (buffer : Bytes) :
    Connected × List ConnectedEvent :=
  match arrived buffer with
  | none => c.goTo (.reading errand pending buffer)
  | some (.error e) => c.resume errand pending (.error e)
  | some (.ok packet) =>
      let next := c.resume errand pending (.ok packet)
      (next.1, .received (c.link.requests.length - 1) packet :: next.2)

def connectedStep (c : Connected) :
    ConnectedAct → Option (Connected × List ConnectedEvent)
  | .wake =>
      if c.stage = .selecting then some (c.goTo .draining) else none
  | .event folder handle =>
      if c.stage = .selecting then
        some (c.goTo (.fetching folder handle fetchAttempts none))
      else none
  | .command call =>
      if c.stage = .selecting ∧ call ≠ .keepalive then
        some (c.begin (.command call))
      else none
  | .poll maximum =>
      if c.stage = .selecting then some (c.begin (.listing maximum))
      else none
  | .keepalive =>
      if c.stage = .selecting then some (c.begin .keepalive) else none
  | .cancelled =>
      if c.stage = .selecting then some (c.goTo .returned) else none
  | .sendSMS destination text =>
      if c.stage = .draining then
        some (c.begin (.outbound destination text))
      else none
  | .drained failed =>
      if c.stage = .draining then
        some (c.goTo (if failed then .returned else .selecting))
      else none
  | .listed handles =>
      if c.stage = .listed then
        some (c.goTo (match handles with
          | none => .selecting
          | some handles => .polling handles))
      else none
  | .pollNext =>
      match c.stage with
      | .polling [] => some (c.goTo .selecting)
      | .polling (handle :: rest) =>
          some (c.goTo (.fetching inbox handle fetchAttempts (some rest)))
      | _ => none
  | .attempt slept =>
      match c.stage with
      | .fetching folder handle left polling =>
          if slept then
            some (c.begin (.message folder handle (left - 1) polling))
          else some (c.goTo (.afterEvent polling (some false)))
      | _ => none
  | .processed failure =>
      match c.stage with
      | .fetched polling => some (c.goTo (.afterEvent polling failure))
      | _ => none
  | .markSeen failure =>
      match c.stage with
      | .marking e polling =>
          let lost := if isTransportError e then some true else none
          some (c.goTo (.afterEvent polling (failure <|> lost)))
      | _ => none
  | .write failure =>
      match c.stage with
      | .writing errand opcode payload pending =>
          c.written errand ⟨opcode, payload⟩ pending failure
      | _ => none
  | .read =>
      match c.stage, c.link.stream with
      | .reading errand pending buffer, b :: stream =>
          some ({ c with link := { c.link with stream := stream } }.readByte
            errand pending (buffer ++ [b]))
      | _, _ => none
  | .readFailed e =>
      match c.stage with
      | .reading errand pending _ =>
          if e = .errno ∨ e = .unexpectedEOF then
            some (c.resume errand pending (.error e))
          else none
      | _ => none
  | .answer reply =>
      match c.link.answer reply with
      | some link => some ({ c with link := link }, [])
      | none => none

end Callbridge.Bridge
