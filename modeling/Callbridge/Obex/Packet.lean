/-
OBEX packets and headers (internal/obex/obex.go).

A packet is a code, its own length in two bytes and a payload; a payload,
from some offset on, is a sequence of headers. The two top bits of a
header's identifier say how its value is delimited: behind a length that
counts the identifier and itself, or as one byte, or as four.

`headerAt` is one turn of the loop of `ParseHeaders`. The source's
switches name all four values of the top bits, so the last case here is
the `else` and `BuildHeader`'s "unknown OBEX header kind" has no
counterpart. `MustHeader` panics where `BuildHeader` fails; a panic is
`none`. Every caller of `ReadPacket` gives it the bound 0xffff, which
passes the check `ReadPacket` makes of the bound itself.
-/
import Callbridge.Lib.Buffer
import Callbridge.Lib.Utf16

namespace Callbridge.Obex

open Lib

-- == constants

def responseContinue : UInt8 := 0x90
def responseOK : UInt8 := 0xa0
def responseBadRequest : UInt8 := 0xc0
def responseNotImplemented : UInt8 := 0xd1

inductive ObexError where
  | packetLength
  | packetTooLarge
  | headerOffset
  | truncatedLength
  | headerLength
  | truncatedByte
  | truncatedUint32
  | headerTooLarge
  | byteValue
  | uint32Value
  | unicode
  | uint32Length (length : Nat)
  deriving DecidableEq

def ObexError.text : ObexError → String
  | .packetLength => "OBEX packet length outside bound"
  | .packetTooLarge => "OBEX packet too large"
  | .headerOffset => "invalid OBEX header offset"
  | .truncatedLength => "truncated OBEX length header"
  | .headerLength => "invalid OBEX header length"
  | .truncatedByte => "truncated OBEX byte header"
  | .truncatedUint32 => "truncated OBEX uint32 header"
  | .headerTooLarge => "OBEX header too large"
  | .byteValue => "OBEX byte header requires one byte"
  | .uint32Value => "OBEX uint32 header requires four bytes"
  | .unicode => "invalid OBEX Unicode header"
  | .uint32Length length =>
      "invalid uint32 header length " ++ toString length

-- == packets

structure Packet where
  code : UInt8
  payload : Bytes
  deriving DecidableEq

/-- The bytes `WritePacket` hands to the transport. -/
def writePacket (code : UInt8) (payload : Bytes) : Except ObexError Bytes :=
  if 0xffff < payload.length + 3 then .error .packetTooLarge
  else
    .ok (code :: bePutUint16 (UInt16.ofNat (payload.length + 3))
      ++ payload)

/-- What `ReadPacket` makes of the three bytes it reads first: the code,
and how many bytes are still to be read. -/
def packetHeader (maximum : Nat) (header : Bytes) :
    Except ObexError (UInt8 × Nat) :=
  let length := (beUint16 (slice header 1 3)).toNat
  if length < 3 ∨ maximum < length then .error .packetLength
  else .ok (byteAt header 0, length - 3)

-- == headers

structure Header where
  id : UInt8
  value : Bytes
  deriving DecidableEq

/-- The value is delimited by a length. -/
def lengthKind (id : UInt8) : Prop :=
  id &&& 0xc0 = 0x00 ∨ id &&& 0xc0 = 0x40

instance : DecidablePred lengthKind := fun id =>
  inferInstanceAs (Decidable (id &&& 0xc0 = 0x00 ∨ id &&& 0xc0 = 0x40))

/-- The value is one byte. -/
def byteKind (id : UInt8) : Prop := id &&& 0xc0 = 0x80

instance : DecidablePred byteKind := fun id =>
  inferInstanceAs (Decidable (id &&& 0xc0 = 0x80))

/-- One turn of the loop of `ParseHeaders`: the header that starts at the
offset, and the offset behind it. -/
def headerAt (data : Bytes) (offset : Nat) :
    Except ObexError (Header × Nat) :=
  let id := byteAt data offset
  let offset := offset + 1
  if lengthKind id then
    if data.length < offset + 2 then .error .truncatedLength
    else
      let length := (beUint16 (slice data offset (offset + 2))).toNat
      if length < 3 ∨ data.length < offset + length - 1 then
        .error .headerLength
      else
        .ok (⟨id, slice data (offset + 2) (offset + length - 1)⟩,
          offset + length - 1)
  else if byteKind id then
    if data.length ≤ offset then .error .truncatedByte
    else .ok (⟨id, [byteAt data offset]⟩, offset + 1)
  else
    if data.length < offset + 4 then .error .truncatedUint32
    else .ok (⟨id, slice data offset (offset + 4)⟩, offset + 4)

/-- The loop of `ParseHeaders`; every turn moves the offset on, so there
are no more turns than bytes. -/
def parseHeadersFrom (data : Bytes) :
    Nat → Nat → Except ObexError (List Header)
  | 0, _ => .ok []
  | fuel + 1, offset =>
      if data.length ≤ offset then .ok []
      else do
        let turn ← headerAt data offset
        let headers ← parseHeadersFrom data fuel turn.2
        .ok (turn.1 :: headers)

def parseHeaders (data : Bytes) (offset : Nat) :
    Except ObexError (List Header) :=
  if data.length < offset then .error .headerOffset
  else parseHeadersFrom data (data.length - offset) offset

def buildHeader (id : UInt8) (value : Bytes) : Except ObexError Bytes :=
  if lengthKind id then
    if 0xffff < value.length + 3 then .error .headerTooLarge
    else
      .ok (id :: bePutUint16 (UInt16.ofNat (value.length + 3)) ++ value)
  else if byteKind id then
    if value.length ≠ 1 then .error .byteValue
    else .ok [id, byteAt value 0]
  else
    if value.length ≠ 4 then .error .uint32Value
    else .ok (id :: value)

/-- `MustHeader`; `none` is its panic. -/
def mustHeader (id : UInt8) (value : Bytes) : Option Bytes :=
  match buildHeader id value with
  | .ok result => some result
  | .error _ => none

def uint32Header (id : UInt8) (value : UInt32) : Option Bytes :=
  mustHeader id (bePutUint32 value)

/-- The value of a name header: UTF-16 with a zero behind it. -/
def nameValue (value : Bytes) : Bytes :=
  (utf16Encode (runes (value ++ [0]))).flatMap bePutUint16

def nameHeader (id : UInt8) (value : Bytes) : Option Bytes :=
  mustHeader id (nameValue value)

/-- The units of a name header's value, two bytes each. -/
def nameUnits : Bytes → List UInt16
  | b :: c :: rest => beUint16 [b, c] :: nameUnits rest
  | _ => []

def decodeName (value : Bytes) : Except ObexError Bytes :=
  if value.length % 2 ≠ 0 then .error .unicode
  else
    let units := nameUnits value
    let units := if units.getLast? = some 0 then units.dropLast else units
    .ok (encodeRunes (utf16Decode units))

def find (headers : List Header) (id : UInt8) : Option Bytes :=
  (headers.find? fun header => header.id == id).map Header.value

/-- `Uint32`, of a header's value. -/
def uint32Value (value : Bytes) : Except ObexError UInt32 :=
  if value.length ≠ 4 then .error (.uint32Length value.length)
  else .ok (beUint32 value)

def collectBody (headers : List Header) (bodyID endID : UInt8) : Bytes :=
  (headers.filter fun header => header.id == bodyID || header.id == endID)
    |>.flatMap Header.value

end Callbridge.Obex
