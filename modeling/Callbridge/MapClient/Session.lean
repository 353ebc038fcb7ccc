/-
The MAP client's session with the phone (internal/mapclient/session.go).

Every method sends a request, waits for the answer and goes on from there,
so a call is what it is doing between two answers: `Pending` is the
request whose answer is awaited, with the loop variables the method
carries across it, `Progress` is what a method does next, and `resume` is
what it does with the answer.

A request fails in the session itself when the session is closed or the
packet would be larger than what was negotiated; otherwise it is written,
and what comes back is the environment's to say: a packet, or the error of
the transport (`LinkError`). Every error the socket returns is a
`syscall.Errno`, which has the methods of `net.Error`, so
`IsTransportError` accepts it; it refuses `io.ErrShortWrite` and the
errors of package obex.

`packetMax` starts as 0xffff and is only ever replaced by something
smaller, which is the session's invariant. The `parseListing` of
`ListMessages` is left to its callers.
-/
import Callbridge.Lib.Guards
import Callbridge.Obex.Packet

namespace Callbridge.MapClient

open Lib
open Obex

-- == constants

def opConnect : UInt8 := 0x80
def opPut : UInt8 := 0x02
def opPutFinal : UInt8 := 0x82
def opGetFinal : UInt8 := 0x83
def opSetPath : UInt8 := 0x85

def headerName : UInt8 := 0x01
def headerType : UInt8 := 0x42
def headerBody : UInt8 := 0x48
def headerEndOfBody : UInt8 := 0x49
def headerAppParams : UInt8 := 0x4c
def headerConnectionID : UInt8 := 0xcb

def tagAttachment : UInt8 := 0x0a
def tagTransparent : UInt8 := 0x0b
def tagRetry : UInt8 := 0x0c
def tagCharset : UInt8 := 0x14
def tagFractionRequest : UInt8 := 0x15

/-- `2 << 20`. -/
def maxCollectedBody : Nat := 2097152

/-- `60 << 10`. -/
def maxPushedBody : Nat := 61440

def unknownPath : Bytes := [0x00]

-- == errors

/-- What reading or writing on the socket fails with. -/
inductive LinkError where
  | errno
  | unexpectedEOF
  | shortWrite
  | packet (e : ObexError)
  deriving DecidableEq

inductive MapError where
  | connectRejected (code : UInt8)
  | noConnectionID
  | listingBounds
  | handle
  | size
  | folder
  | closed
  | requestSize
  | noCapacity
  | setPathRejected (code : UInt8)
  | rootRejected (code : UInt8)
  | pushRejected (code : UInt8)
  | continuationRejected (code : UInt8)
  | bodyBound
  | getRejected (code : UInt8)
  | obex (e : ObexError)
  | link (e : LinkError)
  deriving DecidableEq

/-- `IsTransportError`. -/
def isTransportError : MapError → Bool
  | .link .errno => true
  | .link .unexpectedEOF => true
  | _ => false

-- == session

structure Session where
  closed : Bool
  connection : UInt32
  packetMax : Nat
  currentPath : Bytes
  packetMax_le : packetMax ≤ 0xffff
  deriving DecidableEq

def Session.withPath (s : Session) (path : Bytes) : Session :=
  { s with currentPath := path }

/-- The packet size `Connect` settles on. -/
def negotiated (peerMax : Nat) : Nat :=
  if 255 ≤ peerMax ∧ peerMax < 0xffff then peerMax else 0xffff

theorem negotiated_le (peerMax : Nat) : negotiated peerMax ≤ 0xffff := by
  unfold negotiated
  split <;> omega

/-- `Connect`, from the phone's answer on. -/
def Session.connect (response : Packet) : Except MapError Session :=
  if response.code ≠ responseOK ∨ response.payload.length < 4 then
    .error (.connectRejected response.code)
  else do
    let peerMax := (beUint16 (slice response.payload 2 4)).toNat
    let headers ← (parseHeaders response.payload 4).mapError .obex
    let rawID ← require (find headers headerConnectionID) (fun _ => true)
      .noConnectionID
    let connection ← (uint32Value rawID).mapError .obex
    .ok ⟨false, connection, negotiated peerMax, [],
      negotiated_le peerMax⟩

def Session.connectionHeader (s : Session) : Option Bytes :=
  uint32Header headerConnectionID s.connection

-- == calls under way

/-- What a call is for, once its folder is reached. -/
inductive Task where
  | list (maximum offset : Nat)
  | get (handle : Bytes)
  | push (body : Bytes) (transparent retry : Bool)
  deriving DecidableEq

/-- The request whose answer is awaited. -/
inductive Pending where
  /-- `resetPath(true)`. -/
  | keepalive
  /-- `resetPath(false)`, on the way to a folder. -/
  | root (folder : Bytes) (parts : List Bytes) (task : Task)
  /-- A turn of `gotoFolder`'s loop; `rest` are the turns to come. -/
  | descend (folder : Bytes) (rest : List Bytes) (task : Task)
  /-- A turn of `collectGET`'s loop, with the body so far. -/
  | get (body : Bytes)
  /-- A turn of `putBody`'s loop, with the body behind its chunk. -/
  | put (final : Bool) (rest : Bytes)
  deriving DecidableEq

inductive Progress where
  | request (opcode : UInt8) (payload : Bytes) (pending : Pending)
  | finished (result : Except MapError Bytes)
  | panicked

/-- The methods that were on their way to a folder no longer know where
they are. -/
def Session.failed (s : Session) : Pending → Session
  | .keepalive => s.withPath unknownPath
  | .root _ _ _ => s.withPath unknownPath
  | .descend _ _ _ => s.withPath unknownPath
  | .get _ => s
  | .put _ _ => s

/-- `request` up to the point where the packet has been written. -/
def Session.request (s : Session) (opcode : UInt8) (payload : Bytes)
    (pending : Pending) : Session × Progress :=
  if s.closed then (s.failed pending, .finished (.error .closed))
  else if s.packetMax < payload.length + 3 then
    (s.failed pending, .finished (.error .requestSize))
  else (s, .request opcode payload pending)

/-- A request whose headers `MustHeader` has to build first. -/
def Session.requestHeaders (s : Session) (opcode : UInt8)
    (payload : Option Bytes) (pending : Pending) : Session × Progress :=
  match payload with
  | none => (s, .panicked)
  | some payload => s.request opcode payload pending

-- == bodies

/-- One turn of `putBody`'s loop. -/
def Session.putBody (s : Session) (headers body : Bytes) :
    Session × Progress :=
  let available := s.packetMax - 3 - headers.length - 3
  if available < 1 then (s, .finished (.error .noCapacity))
  else if body.length ≤ available then
    s.requestHeaders opPutFinal
      ((mustHeader headerEndOfBody body).map fun enc => headers ++ enc)
      (.put true [])
  else
    s.requestHeaders opPut
      ((mustHeader headerBody (body.take available)).map
        fun enc => headers ++ enc)
      (.put false (body.drop available))

def Session.putAnswered (s : Session) (final : Bool) (rest : Bytes)
    (response : Packet) : Session × Progress :=
  if final then
    if response.code ≠ responseOK then
      (s, .finished (.error (.pushRejected response.code)))
    else (s, .finished (.ok []))
  else if response.code ≠ responseContinue then
    (s, .finished (.error (.continuationRejected response.code)))
  else
    match s.connectionHeader with
    | none => (s, .panicked)
    | some headers => s.putBody headers rest

def Session.collectGET (s : Session) (initial : Option Bytes) :
    Session × Progress :=
  s.requestHeaders opGetFinal initial (.get [])

/-- One turn of `collectGET`'s loop. -/
def Session.getAnswered (s : Session) (body : Bytes) (response : Packet) :
    Session × Progress :=
  match parseHeaders response.payload 0 with
  | .error e => (s, .finished (.error (.obex e)))
  | .ok headers =>
      let body := body ++ collectBody headers headerBody headerEndOfBody
      if maxCollectedBody < body.length then
        (s, .finished (.error .bodyBound))
      else if response.code = responseOK then (s, .finished (.ok body))
      else if response.code ≠ responseContinue then
        (s, .finished (.error (.getRejected response.code)))
      else s.requestHeaders opGetFinal s.connectionHeader (.get body)

-- == requests

def listingParams (maximum offset : Nat) : Bytes :=
  [0x01, 0x02, UInt8.ofNat (maximum / 256), UInt8.ofNat maximum,
   0x02, 0x02, UInt8.ofNat (offset / 256), UInt8.ofNat offset,
   0x13, 0x01, 0x00]

def messageParams : Bytes :=
  [tagAttachment, 0x01, 0x01, tagCharset, 0x01, 0x01,
   tagFractionRequest, 0x01, 0x00]

def pushParams (transparent retry : Bool) : Bytes :=
  [tagTransparent, 0x01, if transparent then 1 else 0,
   tagRetry, 0x01, if retry then 1 else 0,
   tagCharset, 0x01, 0x01]

def Session.listHeaders (s : Session) (maximum offset : Nat) :
    Option Bytes := do
  let connection ← s.connectionHeader
  let type ← mustHeader headerType (ascii "x-bt/MAP-msg-listing\x00")
  let params ← mustHeader headerAppParams (listingParams maximum offset)
  some (connection ++ type ++ params)

def Session.messageHeaders (s : Session) (handle : Bytes) :
    Option Bytes := do
  let connection ← s.connectionHeader
  let name ← nameHeader headerName handle
  let type ← mustHeader headerType (ascii "x-bt/message")
  let params ← mustHeader headerAppParams messageParams
  some (connection ++ name ++ type ++ params)

def Session.pushHeaders (s : Session) (transparent retry : Bool) :
    Option Bytes := do
  let connection ← s.connectionHeader
  let type ← mustHeader headerType (ascii "x-bt/message\x00")
  let params ← mustHeader headerAppParams (pushParams transparent retry)
  some (connection ++ type ++ params)

/-- What a method does behind its `gotoFolder`. -/
def Session.perform (s : Session) : Task → Session × Progress
  | .list maximum offset => s.collectGET (s.listHeaders maximum offset)
  | .get handle => s.collectGET (s.messageHeaders handle)
  | .push body transparent retry =>
      match s.pushHeaders transparent retry with
      | none => (s, .panicked)
      | some first => s.putBody first body

-- == folders

def Session.rootHeaders (s : Session) : Option Bytes := do
  let connection ← s.connectionHeader
  some ([0x02, 0x00] ++ connection)

def Session.partHeaders (s : Session) (part : Bytes) : Option Bytes := do
  let connection ← s.connectionHeader
  let name ← nameHeader headerName part
  some ([0x02, 0x00] ++ connection ++ name)

/-- `gotoFolder`'s loop over the parts that are left, and what follows. -/
def Session.descend (s : Session) (folder : Bytes) (task : Task) :
    List Bytes → Session × Progress
  | [] => (s.withPath folder).perform task
  | part :: rest =>
      s.requestHeaders opSetPath (s.partHeaders part)
        (.descend folder rest task)

/-- A part that `gotoFolder` refuses. -/
def refusedPart (part : Bytes) : Bool :=
  part == [] || part == [0x2e] || part == [0x2e, 0x2e]
    || part.any fun b => [0x00, 0x0d, 0x0a].contains b

def Session.gotoFolder (s : Session) (folder : Bytes) (task : Task) :
    Session × Progress :=
  let folder := trimByte 0x2f folder
  let parts := splitByte 0x2f folder
  if parts.any refusedPart then (s, .finished (.error .folder))
  else if folder = s.currentPath then s.perform task
  else if s.currentPath = [] then s.descend folder task parts
  else
    s.requestHeaders opSetPath s.rootHeaders (.root folder parts task)

def Session.descendAnswered (s : Session) (folder : Bytes)
    (rest : List Bytes) (task : Task) (response : Packet) :
    Session × Progress :=
  if response.code ≠ responseOK then
    (s.withPath unknownPath,
      .finished (.error (.setPathRejected response.code)))
  else s.descend folder task rest

/-- `resetPath` from the answer on; `next` is what its caller does. -/
def Session.rootAnswered (s : Session) (response : Packet)
    (next : Session → Session × Progress) : Session × Progress :=
  if response.code ≠ responseOK then
    (s.withPath unknownPath,
      .finished (.error (.rootRejected response.code)))
  else next (s.withPath [])

-- == methods

def Session.keepalive (s : Session) : Session × Progress :=
  s.requestHeaders opSetPath s.rootHeaders .keepalive

def Session.listMessages (s : Session) (folder : Bytes)
    (maximum offset : Int) : Session × Progress :=
  if maximum < 1 ∨ 500 < maximum ∨ offset < 0 ∨ 65535 < offset then
    (s, .finished (.error .listingBounds))
  else s.gotoFolder folder (.list maximum.toNat offset.toNat)

/-- A rune that is no ASCII character is no hexadecimal digit either, so
the bytes decide. -/
def safeHandle (value : Bytes) : Bool :=
  if value == [] || 64 < value.length then false
  else value.all isHexDigit

def Session.getMessage (s : Session) (folder handle : Bytes) :
    Session × Progress :=
  if safeHandle handle = false then (s, .finished (.error .handle))
  else s.gotoFolder folder (.get handle)

def Session.pushBMessage (s : Session) (folder body : Bytes)
    (transparent retry : Bool) : Session × Progress :=
  if body = [] ∨ maxPushedBody < body.length then
    (s, .finished (.error .size))
  else s.gotoFolder folder (.push body transparent retry)

/-- A method with its arguments. -/
inductive Call where
  | keepalive
  | list (folder : Bytes) (maximum offset : Int)
  | get (folder handle : Bytes)
  | push (folder body : Bytes) (transparent retry : Bool)
  deriving DecidableEq

def Session.call (s : Session) : Call → Session × Progress
  | .keepalive => s.keepalive
  | .list folder maximum offset => s.listMessages folder maximum offset
  | .get folder handle => s.getMessage folder handle
  | .push folder body transparent retry =>
      s.pushBMessage folder body transparent retry

/-- What a method does with the answer to its request. -/
def Session.resume (s : Session) (pending : Pending) :
    Except LinkError Packet → Session × Progress
  | .error e => (s.failed pending, .finished (.error (.link e)))
  | .ok response =>
      match pending with
      | .keepalive =>
          s.rootAnswered response fun s => (s, .finished (.ok []))
      | .root folder parts task =>
          s.rootAnswered response fun s => s.descend folder task parts
      | .descend folder rest task =>
          s.descendAnswered folder rest task response
      | .get body => s.getAnswered body response
      | .put final rest => s.putAnswered final rest response

-- == whole calls

/-- A packet that was written: its opcode and payload. -/
structure Request where
  opcode : UInt8
  payload : Bytes
  deriving DecidableEq

/-- A call under way, given the answers to its requests as they come: the
packets it writes, and where that leaves it. Answers to requests that are
never made stay unread. -/
def converse : Session × Progress → List (Except LinkError Packet) →
    List Request × (Session × Progress)
  | (s, .request opcode payload pending), [] =>
      ([⟨opcode, payload⟩], (s, .request opcode payload pending))
  | (s, .request opcode payload pending), answer :: answers =>
      let rest := converse (s.resume pending answer) answers
      (⟨opcode, payload⟩ :: rest.1, rest.2)
  | (s, .finished result), _ => ([], (s, .finished result))
  | (s, .panicked), _ => ([], (s, .panicked))

end Callbridge.MapClient
