/-
A session and the phone it talks to.

The phone has a current path, which starts at the root and which nothing
but a SetPath changes: one without a name leads to the root, one with a
name into the folder of that name. It did what was asked if the answer is
OK. When the answer does not reach the session whole (`lost`: the read
failed or timed out, or the packet was malformed) the phone may have done
it or not.

Calls come one after the other, as the one goroutine that owns the session
makes them. A call that panics takes the process with it.
-/
import Callbridge.Lib.Trace
import Callbridge.MapClient.Session

namespace Callbridge.MapClient

open Lib
open Obex

-- == the phone

/-- What becomes of a request. -/
inductive Outcome where
  | answered (response : Packet)
  | lost (performed : Bool) (e : LinkError)
  deriving DecidableEq

/-- The phone did what was asked. -/
def Outcome.performed : Outcome → Bool
  | .answered response => response.code == responseOK
  | .lost performed _ => performed

/-- What `request` returns. -/
def Outcome.result : Outcome → Except LinkError Packet
  | .answered response => .ok response
  | .lost _ e => .error e

/-- A SetPath carried out. The headers start behind the flags and the
constants. -/
def phoneMove (path : List Bytes) (payload : Bytes) : List Bytes :=
  match parseHeaders payload 2 with
  | .error _ => path
  | .ok headers =>
      match find headers headerName with
      | none => []
      | some value =>
          match decodeName value with
          | .error _ => path
          | .ok name => path ++ [name]

/-- The phone's path after a request. -/
def phoneAfter (path : List Bytes) (opcode : UInt8) (payload : Bytes)
    (outcome : Outcome) : List Bytes :=
  if opcode = opSetPath ∧ outcome.performed = true then
    phoneMove path payload
  else path

-- == the machine

inductive Phase where
  | idle
  | busy (call : Call) (opcode : UInt8) (payload : Bytes)
      (pending : Pending)
  | crashed
  deriving DecidableEq

structure Talk where
  session : Session
  path : List Bytes
  phase : Phase
  deriving DecidableEq

inductive TalkAct where
  | call (call : Call)
  | outcome (outcome : Outcome)

inductive TalkEvent where
  | sent (call : Call) (opcode : UInt8) (payload : Bytes)
  | returned (call : Call) (result : Except MapError Bytes)

/-- Where a call is once it has run up to its next request. -/
def Talk.place (path : List Bytes) (call : Call) :
    Session × Progress → Talk × List TalkEvent
  | (s, .request opcode payload pending) =>
      (⟨s, path, .busy call opcode payload pending⟩,
        [.sent call opcode payload])
  | (s, .finished result) =>
      (⟨s, path, .idle⟩, [.returned call result])
  | (s, .panicked) => (⟨s, path, .crashed⟩, [])

def talkStep (t : Talk) : TalkAct → Option (Talk × List TalkEvent)
  | .call call =>
      match t.phase with
      | .idle => some (Talk.place t.path call (t.session.call call))
      | _ => none
  | .outcome outcome =>
      match t.phase with
      | .busy call opcode payload pending =>
          some (Talk.place (phoneAfter t.path opcode payload outcome) call
            (t.session.resume pending outcome.result))
      | _ => none

/-- A session as `Connect` leaves it, and the phone at its root. -/
def Talk.start (s : Session) : Talk := ⟨s.withPath [], [], .idle⟩

end Callbridge.MapClient
