/-
The packets of the call-control socket (internal/protocol/protocol.go):
the caller identity inside a state payload, `validate`, and the two
routines that lay a message out in 128 bytes and read it back.

`Encode` fills a block of zeros field by field, at the offsets of the
source; `Decode` takes the same offsets apart. Both let `validate` decide
which messages there are.

`DecodeIdentity` is here twice: as the routines above read it, and with
its index expressions as the source has them, where a read outside the
payload panics.
-/
import Callbridge.Lib.Checked
import Callbridge.Protocol.Message

namespace Callbridge.Protocol

open Lib

-- == constants

def version : UInt8 := 2

def magic : Bytes := [0x47, 0x47, 0x43, 0x43]

def flagSnapshot : UInt8 := 0x01
def flagLast : UInt8 := 0x02

def noCallState : UInt8 := 0xff

def ackAccepted : UInt8 := 0
def ackStale : UInt8 := 1
def ackUnavailable : UInt8 := 2
def ackInvalid : UInt8 := 3
def ackWriteFailed : UInt8 := 4

inductive MessageError where
  | identityBound
  | identityURI
  | identityName
  | header
  | payloadBound
  | padding
  | message
  | device
  | notSnapshot
  | emptySnapshot
  | callState
  | commandFlags
  | opcode
  | originate
  | indexedCommand
  | acknowledgement
  | result
  | readiness
  deriving DecidableEq

def MessageError.text : MessageError → String
  | .identityBound => "caller identity exceeds its bound"
  | .identityURI => "caller identity uri is out of bounds"
  | .identityName => "caller identity name is out of bounds"
  | .header => "invalid LE call-control packet header"
  | .payloadBound => "LE call-control payload exceeds bound"
  | .padding => "nonzero LE call-control packet padding"
  | .message => "invalid LE call-control message"
  | .device => "invalid LE call-control device address"
  | .notSnapshot => "call state is not a full snapshot"
  | .emptySnapshot => "invalid empty call snapshot"
  | .callState => "invalid call state message"
  | .commandFlags => "command carries flags"
  | .opcode => "invalid call-control opcode"
  | .originate => "invalid originate command"
  | .indexedCommand => "invalid indexed call command"
  | .acknowledgement => "invalid call-control acknowledgement"
  | .result => "invalid call-control result"
  | .readiness => "invalid readiness message"

-- == identity

/-- An identity laid out for a state payload: two length-prefixed strings,
or nothing at all. -/
def encodeIdentity (identity : Identity) : Except MessageError Bytes :=
  if identity.uri = [] ∧ identity.name = [] then .ok []
  else if identity.uri.length > identityURIMax
      ∨ identity.name.length > identityNameMax then
    .error .identityBound
  else
    .ok (UInt8.ofNat identity.uri.length :: identity.uri
      ++ UInt8.ofNat identity.name.length :: identity.name)

/-- The name of a payload whose URI ends before `nameOffset`. -/
def decodeName (payload : Bytes) (nameOffset : Nat) :
    Except MessageError Bytes :=
  let nameLength := (byteAt payload nameOffset).toNat
  if nameLength > identityNameMax
      ∨ nameOffset + 1 + nameLength ≠ payload.length then
    .error .identityName
  else .ok (slice payload (nameOffset + 1) (nameOffset + 1 + nameLength))

def decodeIdentity (payload : Bytes) : Except MessageError Identity :=
  if payload.length = 0 then .ok Identity.zero
  else
    let uriLength := (byteAt payload 0).toNat
    if uriLength > identityURIMax ∨ 1 + uriLength ≥ payload.length then
      .error .identityURI
    else
      match decodeName payload (1 + uriLength) with
      | .error e => .error e
      | .ok name => .ok ⟨slice payload 1 (1 + uriLength), name⟩

/-- `DecodeIdentity`, read by read; `none` is a panic. -/
def decodeIdentityIndexed (payload : Bytes) :
    Option (Except MessageError Identity) :=
  if payload.length = 0 then some (.ok Identity.zero)
  else do
    let uriLength := (← payload[0]?).toNat
    if uriLength > identityURIMax ∨ 1 + uriLength ≥ payload.length then
      return .error .identityURI
    let nameOffset := 1 + uriLength
    let nameLength := (← payload[nameOffset]?).toNat
    if nameLength > identityNameMax
        ∨ nameOffset + 1 + nameLength ≠ payload.length then
      return .error .identityName
    let uri ← slice? payload 1 (1 + uriLength)
    let name ← slice? payload (nameOffset + 1) (nameOffset + 1 + nameLength)
    return .ok ⟨uri, name⟩

-- == validation

def validCallReference (opcode index : UInt8) (token : UInt64) : Bool :=
  if opcode = opcodeOriginate then
    (index == 0 && token == 0) || (index != 0 && token != 0)
  else index != 0 && token != 0

def validateState (m : Message) : Option MessageError :=
  if m.flags &&& flagSnapshot = 0 then some .notSnapshot
  else if m.code = noCallState then
    if m.index ≠ 0 ∨ m.token ≠ 0 ∨ m.value ≠ 0 ∨ m.payload.length ≠ 0 then
      some .emptySnapshot
    else none
  else if m.index = 0 ∨ m.token = 0 ∨ m.code > 6
      ∨ m.value &&& ~~~(0x07 : UInt8) ≠ 0 then
    some .callState
  else
    match decodeIdentity m.payload with
    | .error e => some e
    | .ok _ => none

def validateCommand (m : Message) : Option MessageError :=
  if m.flags ≠ 0 then some .commandFlags
  else if m.code > opcodeJoin then some .opcode
  else if m.code = opcodeOriginate then
    if m.index ≠ 0 ∨ m.token ≠ 0 ∨ validURI m.payload = false then
      some .originate
    else none
  else if m.index = 0 ∨ m.token = 0 ∨ m.payload.length ≠ 0 then
    some .indexedCommand
  else none

def validateAck (m : Message) : Option MessageError :=
  if m.flags ≠ 0 ∨ m.code > opcodeJoin ∨ m.value > ackWriteFailed
      ∨ m.payload.length ≠ 0
      ∨ validCallReference m.code m.index m.token = false then
    some .acknowledgement
  else none

def validateResult (m : Message) : Option MessageError :=
  if m.flags ≠ 0 ∨ m.code > opcodeJoin
      ∨ validCallReference m.code m.index m.token = false
      ∨ validResult m.value = false ∨ m.payload.length ≠ 0 then
    some .result
  else none

def validateReady (m : Message) : Option MessageError :=
  if m.flags ≠ 0 ∨ m.index ≠ 0 ∨ m.token ≠ 0 ∨ m.code > 1 ∨ m.value ≠ 0
      ∨ m.payload.length ≠ 0 then
    some .readiness
  else none

/-- `validate`: the error, if any. -/
def validate (m : Message) : Option MessageError :=
  if m.type < typeState ∨ m.type > typeReady
      ∨ m.flags &&& ~~~(flagSnapshot ||| flagLast) ≠ 0
      ∨ m.sequence = 0 ∨ m.payload.length > payloadSize then
    some .message
  else if normalizedDevice m.device = [] then some .device
  else if m.type = typeState then validateState m
  else if m.type = typeCommand then validateCommand m
  else if m.type = typeAck then validateAck m
  else if m.type = typeResult then validateResult m
  else if m.type = typeReady then validateReady m
  else none

-- == packets

/-- Where `Encode` copies what. -/
def Message.fields (m : Message) : List (Nat × Bytes) :=
  [(0, magic), (4, [version]), (5, [m.type]), (6, [m.flags]),
    (8, putUint64 m.sequence), (16, putUint64 m.token), (24, [m.index]),
    (25, [m.code]), (26, [m.value]),
    (28, putUint16 (UInt16.ofNat m.payload.length)),
    (32, m.device.take (49 - 32)), (50, m.payload.take (packetSize - 50))]

def Message.packet (m : Message) : Bytes := fill packetSize m.fields

def Message.encode (m : Message) : Except MessageError Bytes :=
  match validate m with
  | some e => .error e
  | none => .ok m.packet

/-- The checks `Decode` makes on the header. -/
def headerRefused (packet : Bytes) : Prop :=
  packet.length ≠ packetSize ∨ slice packet 0 4 ≠ magic
    ∨ byteAt packet 4 ≠ version ∨ byteAt packet 7 ≠ 0
    ∨ byteAt packet 27 ≠ 0 ∨ uint16 (slice packet 30 32) ≠ 0
    ∨ byteAt packet 49 ≠ 0

instance (packet : Bytes) : Decidable (headerRefused packet) :=
  inferInstanceAs (Decidable (_ ∨ _))

/-- The device text: the device field up to its first NUL. -/
def deviceText (packet : Bytes) : Bytes :=
  (slice packet 32 49).takeWhile (· != 0)

/-- The message `Decode` reads off a packet. -/
def readMessage (packet : Bytes) (payloadLength : Nat) : Message where
  type := byteAt packet 5
  flags := byteAt packet 6
  sequence := uint64 (slice packet 8 16)
  token := uint64 (slice packet 16 24)
  device := deviceText packet
  index := byteAt packet 24
  code := byteAt packet 25
  value := byteAt packet 26
  payload := slice packet 50 (50 + payloadLength)

def decode (packet : Bytes) : Except MessageError Message :=
  if headerRefused packet then .error .header
  else
    let payloadLength := (uint16 (slice packet 28 30)).toNat
    if payloadLength > payloadSize then .error .payloadBound
    else if (packet.drop (50 + payloadLength)).any (· != 0) then
      .error .padding
    else
      match validate (readMessage packet payloadLength) with
      | some e => .error e
      | none => .ok (readMessage packet payloadLength)

end Callbridge.Protocol
