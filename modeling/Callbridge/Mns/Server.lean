/-
The message notification server (internal/mns/server.go): `handle`, the
loop of one connection on which the phone puts its event reports, and
`parseEvent`.

A report arrives as a PUT, in one packet or in several, and the loop keeps
the body and the content type of the packets so far. The label of a step
carries the packet that was read, whether the answer could be written,
whether the event channel has room, and the time; a read that fails and a
context that is done end the loop alike (`stop`).

The XML decoder is a parameter: the start elements it finds in a text
before its token stream ends.
-/
import Callbridge.MapClient.Session

namespace Callbridge.Mns

open Lib Obex
open MapClient (safeHandle)

-- == constants

def opConnect : UInt8 := 0x80
def opDisconnect : UInt8 := 0x81
def opPut : UInt8 := 0x02
def opPutFinal : UInt8 := 0x82

def headerType : UInt8 := 0x42
def headerTarget : UInt8 := 0x46
def headerBody : UInt8 := 0x48
def headerEndOfBody : UInt8 := 0x49
def headerWho : UInt8 := 0x4a
def headerConnectionID : UInt8 := 0xcb

/-- `1 << 20`. -/
def maximumEventBody : Nat := 1048576

def targetUUID : Bytes :=
  [0xbb, 0x58, 0x2b, 0x41, 0x42, 0x0c, 0x11, 0xdb,
   0xb0, 0xde, 0x08, 0x00, 0x20, 0x0c, 0x9a, 0x66]

/-- The payload of the answer to a CONNECT. -/
def connectPayload : Option Bytes := do
  let connection ← uint32Header headerConnectionID 1
  let who ← mustHeader headerWho targetUUID
  return [0x10, 0x00, 0xff, 0xff] ++ connection ++ who

/-- Building it does not panic. -/
example : connectPayload.isSome = true := by decide

-- == events

/-- `model.Event`. -/
structure Event where
  eventType : Bytes
  handle : Bytes
  folder : Bytes
  messageType : Bytes
  dateTime : Bytes
  source : Bytes
  deriving DecidableEq

/-- A start element: the local names of it and of its attributes. -/
structure Element where
  name : Bytes
  attrs : List (Bytes × Bytes)

inductive EventError where
  | missing
  | decoder
  | handle
  deriving DecidableEq

/-- One attribute of the element. -/
def Event.readAttr (event : Event) (attr : Bytes × Bytes) : Event :=
  if attr.1 = ascii "type" then { event with eventType := attr.2 }
  else if attr.1 = ascii "handle" then { event with handle := attr.2 }
  else if attr.1 = ascii "folder" then { event with folder := attr.2 }
  else if attr.1 = ascii "msg_type" then
    { event with messageType := attr.2 }
  else if attr.1 = ascii "datetime" ∧ trimSpace attr.2 ≠ [] then
    { event with dateTime := attr.2 }
  else event

/-- The first element `event` counts, and its handle must be one. -/
def parseEvent (elements : Bytes → List Element) (now raw : Bytes) :
    Except EventError Event :=
  if 0x3c ∉ raw then .error .missing
  else
    match (elements (raw.dropWhile (· != 0x3c))).find?
        fun element => element.name == ascii "event" with
    | none => .error .decoder
    | some element =>
        let event := element.attrs.foldl Event.readAttr
          ⟨[], [], [], [], now, ascii "mns"⟩
        if safeHandle event.handle = false then .error .handle
        else .ok event

-- == the loop

/-- The variables of `handle`, and whether it has not returned. -/
structure Handler where
  serving : Bool
  connected : Bool
  accumulated : Bytes
  contentType : Bytes
  deriving DecidableEq

def Handler.start : Handler := ⟨true, false, [], []⟩

inductive HandlerAct where
  | packet (code : UInt8) (payload : Bytes) (wrote room : Bool)
      (now : Bytes)
  | stop
  deriving DecidableEq

/-- What the loop lets out: an answer handed to `WritePacket`, an event on
the channel or dropped because there was no room, a report rejected. -/
inductive HandlerEvent where
  | responded (code : UInt8) (payload : Bytes)
  | queued (event : Event)
  | dropped (event : Event)
  | rejected (e : EventError)
  deriving DecidableEq

/-- Answer that the request is bad, and return. -/
def Handler.refuse (h : Handler) : Handler × List HandlerEvent :=
  ({ h with serving := false }, [.responded responseBadRequest []])

/-- `case opConnect`. -/
def Handler.connect (h : Handler) (payload : Bytes) (wrote : Bool) :
    Handler × List HandlerEvent :=
  if payload.length < 4 then h.refuse
  else
    match parseHeaders payload 4 with
    | .error _ => h.refuse
    | .ok headers =>
        if find headers headerTarget ≠ some targetUUID then h.refuse
        else
          let out := [.responded responseOK (connectPayload.getD [])]
          if wrote then
            ({ h with
                connected := true, accumulated := [], contentType := [] },
              out)
          else ({ h with serving := false }, out)

/-- What the headers of a PUT packet do to the variables. -/
def Handler.put (h : Handler) (headers : List Header) : Handler :=
  { h with
    contentType :=
      match find headers headerType with
      | some rawType => trimRightByte 0 rawType
      | none => h.contentType
    accumulated :=
      h.accumulated ++ collectBody headers headerBody headerEndOfBody }

/-- The end of a PUT with a body: what becomes of the report. -/
def Handler.report (elements : Bytes → List Element) (h : Handler)
    (room : Bool) (now : Bytes) : List HandlerEvent :=
  if h.contentType = ascii "x-bt/MAP-event-report" ∨ h.contentType = []
  then
    match parseEvent elements now h.accumulated with
    | .error e => [.rejected e]
    | .ok event =>
        if event.eventType = ascii "NewMessage" ∧ event.handle ≠ [] then
          if room then [.queued event] else [.dropped event]
        else []
  else []

/-- `case opPut, opPutFinal`. -/
def Handler.receive (elements : Bytes → List Element) (h : Handler)
    (final : Bool) (payload : Bytes) (wrote room : Bool) (now : Bytes) :
    Handler × List HandlerEvent :=
  if h.connected = false then h.refuse
  else
    match parseHeaders payload 0 with
    | .error _ => h.refuse
    | .ok headers =>
        let h := h.put headers
        if maximumEventBody < h.accumulated.length then h.refuse
        else
          let out :=
            [.responded (if final then responseOK else responseContinue) []]
          if wrote = false then ({ h with serving := false }, out)
          else if final = true ∧ h.accumulated ≠ [] then
            ({ h with accumulated := [], contentType := [] },
              out ++ h.report elements room now)
          else (h, out)

/-- One turn of the loop. -/
def handleStep (elements : Bytes → List Element) (h : Handler) :
    HandlerAct → Option (Handler × List HandlerEvent)
  | .stop =>
      if h.serving then some ({ h with serving := false }, []) else none
  | .packet code payload wrote room now =>
      if h.serving = false then none
      else if code = opConnect then some (h.connect payload wrote)
      else if code = opPut ∨ code = opPutFinal then
        some (h.receive elements (code == opPutFinal) payload wrote room now)
      else if code = opDisconnect then
        some ({ h with serving := false }, [.responded responseOK []])
      else
        some ({ h with serving := wrote },
          [.responded responseNotImplemented []])

end Callbridge.Mns
