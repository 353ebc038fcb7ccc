/-
The RFCOMM link under a session (internal/bt/rfcomm.go, and `ReadPacket`
of internal/obex/obex.go): what was written on it and what comes back.

The phone answers the requests in the order they were written, each once,
with whatever bytes it likes; an answer may come long after the request,
and it is read byte by byte, so that a read can fail before any of them
and leave the rest in the stream. `ReadFull` asks for three bytes first
and then for as many as these say. A request whose write fails does not
reach the phone whole, and the phone does not answer it.
-/
import Callbridge.MapClient.Session

namespace Callbridge.MapClient

open Lib
open Obex

/-- The requests written, the answers given, of which the n-th is to the
n-th request, and the bytes that are sent and not read. -/
structure Link where
  requests : List Request
  answers : List Bytes
  stream : Bytes
  deriving DecidableEq

def Link.start : Link := ⟨[], [], []⟩

def Link.write (l : Link) (r : Request) : Link :=
  { l with requests := l.requests ++ [r] }

/-- The phone answers the first request it has not answered. -/
def Link.answer (l : Link) (reply : Bytes) : Option Link :=
  if l.answers.length < l.requests.length then
    some { l with
      answers := l.answers ++ [reply]
      stream := l.stream ++ reply }
  else none

/-- What `ReadPacket` returns once it has read these bytes, if it does
not read on. -/
def arrived (buffer : Bytes) : Option (Except LinkError Packet) :=
  if buffer.length < 3 then none
  else
    match packetHeader 0xffff buffer with
    | .error e => some (.error (.packet e))
    | .ok (code, more) =>
        if buffer.length = more + 3 then some (.ok ⟨code, buffer.drop 3⟩)
        else none

/-- The answer does not run past the length it gives. -/
def delimited (reply : Bytes) : Bool :=
  match packetHeader 0xffff reply with
  | .error _ => true
  | .ok (_, more) => reply.length ≤ more + 3

end Callbridge.MapClient
