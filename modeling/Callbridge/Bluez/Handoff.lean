/-
The descriptors of the handoff socket (internal/bluez/handoff.go): what
`validateDescriptor` and `validateDescriptorPair` ask of them, and the
two routines that lay one out in a packet and read it back.

`encodeDescriptor` fills a block of zeros field by field, the transport
path behind a header of 72 bytes. `decodeDescriptor` checks the header,
takes the fields apart at the same offsets and then lets
`encodeDescriptor` say whether the descriptor it found is one. The messages
that come back over a session's lifecycle socket are only ever read.
-/
import Callbridge.Bluez.Lc3

namespace Callbridge.Bluez

open Lib

-- == constants

def handoffVersion : UInt8 := 3
def handoffHeaderSize : Nat := 72
def descriptorCount : UInt8 := 1
def maximumTransport : Nat := 512

def handoffFlagOwnership : UInt8 := 0x01
def handoffFlagLinked : UInt8 := 0x02
def handoffFlagCallToken : UInt8 := 0x04
def handoffFlagLifecycle : UInt8 := 0x08

def handoffKnownFlags : UInt8 :=
  handoffFlagOwnership ||| handoffFlagLinked ||| handoffFlagCallToken
    ||| handoffFlagLifecycle

def handoffMagic : Bytes := [0x47, 0x47, 0x4c, 0x45]

inductive DescriptorError where
  | header
  | length
  | direction
  | generation
  | notOwned
  | lifecycle
  | callToken
  | preset
  | allocation
  | parameters
  | latency
  | mtu
  | path
  | pairDirections
  | notOneBundle
  deriving DecidableEq

def DescriptorError.text : DescriptorError → String
  | .header => "invalid LE Audio handoff header"
  | .length => "invalid LE Audio handoff length"
  | .direction => "invalid LE Audio direction"
  | .generation => "invalid LE Audio generation or bundle"
  | .notOwned => "LE Audio descriptor is not an owned linked transport"
  | .lifecycle =>
      "LE Audio lifecycle ownership must belong to the sink descriptor"
  | .callToken => "invalid LE Audio call-control token"
  | .preset => "invalid LE Audio codec or interval preset"
  | .allocation => "invalid LE Audio channel allocation"
  | .parameters => "invalid LE Audio transport parameters"
  | .latency => "invalid LE Audio latency"
  | .mtu => "invalid LE Audio MTU"
  | .path => "invalid BlueZ transport path"
  | .pairDirections => "LE Audio pair directions are incomplete"
  | .notOneBundle =>
      "LE Audio transports are not one bidirectional CIS bundle"

-- == validation

/-- The codec parameters are those of a conversational preset. -/
def Descriptor.presetOK (d : Descriptor) : Bool :=
  conversationalPresets.any fun candidate =>
    d.sampleRate == UInt32.ofNat candidate.sampleRate
      && d.frameDurationUS == UInt32.ofNat (candidate.frameDuration / 1000)
      && d.octetsPerFrame == UInt16.ofNat candidate.octets

/-- `validateDescriptor`: the error, if any. -/
def validateDescriptor (d : Descriptor) : Option DescriptorError :=
  if d.direction ≠ Direction.sink.code
      ∧ d.direction ≠ Direction.source.code then
    some .direction
  else if d.generation = 0 ∨ d.bundleID = 0 then some .generation
  else if d.ownershipTransferred = false ∨ d.linked = false then
    some .notOwned
  else if d.lifecycleOwned ≠ decide (d.direction = Direction.sink.code) then
    some .lifecycle
  else if d.callControlCorrelated ≠ decide (d.callControlToken ≠ 0) then
    some .callToken
  else if d.presetOK = false ∨ d.intervalUS ≠ d.frameDurationUS then
    some .preset
  else if d.channelAllocation = 0 ∨ onesCount32 d.channelAllocation ≠ 1 then
    some .allocation
  else if d.framing > 1 ∨ d.phy &&& 0x02 = 0 ∨ d.retransmissions = 0
      ∨ d.retransmissions > 13 ∨ d.targetLatency < 1 ∨ d.targetLatency > 3
      ∨ d.cig > 0xef ∨ d.cis > 0xef then
    some .parameters
  else if d.latencyMS = 0 ∨ d.latencyMS > 100 ∨ d.presentationDelayUS = 0
      ∨ d.presentationDelayUS > 0x00ffffff then
    some .latency
  else if d.readMTU > 4096 ∨ d.writeMTU > 4096
      ∨ (d.direction = Direction.sink.code ∧ d.readMTU < d.octetsPerFrame)
      ∨ (d.direction = Direction.source.code
        ∧ d.writeMTU < d.octetsPerFrame) then
    some .mtu
  else if d.transport.length = 0 ∨ d.transport.length > maximumTransport
      ∨ byteAt d.transport 0 ≠ 0x2f ∨ 0x00 ∈ d.transport then
    some .path
  else none

/-- `validateDescriptorPair`: the error, if any. -/
def validateDescriptorPair (sink source : Descriptor) :
    Option DescriptorError :=
  if sink.direction ≠ Direction.sink.code
      ∨ source.direction ≠ Direction.source.code then
    some .pairDirections
  else if sink.bundleID ≠ source.bundleID
      ∨ sink.sampleRate ≠ source.sampleRate
      ∨ sink.frameDurationUS ≠ source.frameDurationUS
      ∨ sink.octetsPerFrame ≠ source.octetsPerFrame
      ∨ sink.intervalUS ≠ source.intervalUS
      ∨ sink.framing ≠ source.framing ∨ sink.phy ≠ source.phy
      ∨ sink.cig ≠ source.cig ∨ sink.cis ≠ source.cis
      ∨ sink.callControlCorrelated ≠ source.callControlCorrelated
      ∨ sink.callControlToken ≠ source.callControlToken then
    some .notOneBundle
  else none

-- == packets

/-- The flags byte of a descriptor. -/
def Descriptor.flags (d : Descriptor) : UInt8 :=
  handoffFlagOwnership ||| handoffFlagLinked
    ||| (if d.callControlCorrelated then handoffFlagCallToken else 0)
    ||| (if d.lifecycleOwned then handoffFlagLifecycle else 0)

/-- Where `encodeDescriptor` copies what. -/
def Descriptor.fields (d : Descriptor) : List (Nat × Bytes) :=
  [(0, handoffMagic), (4, [handoffVersion]), (5, [d.direction]),
    (6, [descriptorCount]), (7, [d.flags]), (8, putUint64 d.generation),
    (16, putUint64 d.bundleID), (24, putUint64 d.callControlToken),
    (32, putUint32 d.sampleRate), (36, putUint32 d.frameDurationUS),
    (40, putUint32 d.channelAllocation), (44, putUint32 d.intervalUS),
    (48, putUint32 d.presentationDelayUS), (52, putUint16 d.octetsPerFrame),
    (54, putUint16 d.readMTU), (56, putUint16 d.writeMTU),
    (58, putUint16 d.latencyMS), (60, [d.framing]), (61, [d.phy]),
    (62, [d.retransmissions]), (63, [d.targetLatency]), (64, [d.cig]),
    (65, [d.cis]), (66, putUint16 (UInt16.ofNat d.transport.length)),
    (handoffHeaderSize, d.transport)]

def Descriptor.packet (d : Descriptor) : Bytes :=
  fill (handoffHeaderSize + d.transport.length) d.fields

def encodeDescriptor (d : Descriptor) : Except DescriptorError Bytes :=
  match validateDescriptor d with
  | some e => .error e
  | none => .ok d.packet

/-- The checks `decodeDescriptor` makes on the header. -/
def handoffHeaderRefused (packet : Bytes) : Prop :=
  packet.length < handoffHeaderSize ∨ slice packet 0 4 ≠ handoffMagic
    ∨ byteAt packet 4 ≠ handoffVersion ∨ byteAt packet 6 ≠ descriptorCount
    ∨ byteAt packet 7 &&& ~~~handoffKnownFlags ≠ 0
    ∨ byteAt packet 7 &&& handoffFlagOwnership = 0
    ∨ byteAt packet 7 &&& handoffFlagLinked = 0
    ∨ uint32 (slice packet 68 72) ≠ 0

instance (packet : Bytes) : Decidable (handoffHeaderRefused packet) :=
  inferInstanceAs (Decidable (_ ∨ _))

/-- The descriptor `decodeDescriptor` reads off a packet. -/
def readDescriptor (packet : Bytes) : Descriptor where
  direction := byteAt packet 5
  generation := uint64 (slice packet 8 16)
  bundleID := uint64 (slice packet 16 24)
  callControlToken := uint64 (slice packet 24 32)
  callControlCorrelated := byteAt packet 7 &&& handoffFlagCallToken != 0
  ownershipTransferred := true
  linked := true
  lifecycleOwned := byteAt packet 7 &&& handoffFlagLifecycle != 0
  sampleRate := uint32 (slice packet 32 36)
  frameDurationUS := uint32 (slice packet 36 40)
  channelAllocation := uint32 (slice packet 40 44)
  intervalUS := uint32 (slice packet 44 48)
  presentationDelayUS := uint32 (slice packet 48 52)
  octetsPerFrame := uint16 (slice packet 52 54)
  readMTU := uint16 (slice packet 54 56)
  writeMTU := uint16 (slice packet 56 58)
  latencyMS := uint16 (slice packet 58 60)
  framing := byteAt packet 60
  phy := byteAt packet 61
  retransmissions := byteAt packet 62
  targetLatency := byteAt packet 63
  cig := byteAt packet 64
  cis := byteAt packet 65
  transport := packet.drop handoffHeaderSize

def decodeDescriptor (packet : Bytes) : Except DescriptorError Descriptor :=
  if handoffHeaderRefused packet then .error .header
  else
    let pathLength := (uint16 (slice packet 66 68)).toNat
    if pathLength < 1 ∨ pathLength > maximumTransport
        ∨ packet.length ≠ handoffHeaderSize + pathLength then
      .error .length
    else
      match encodeDescriptor (readDescriptor packet) with
      | .error e => .error e
      | .ok _ => .ok (readDescriptor packet)

-- == lifecycle messages

def lifecycleVersion : UInt8 := 1
def lifecycleTypeProgress : UInt8 := 1
def lifecycleTypeNormalEnd : UInt8 := 2
def lifecycleMessageSize : Nat := 32

def lifecycleMagic : Bytes := [0x47, 0x47, 0x4c, 0x43]

inductive LifecycleError where
  | message
  | identity
  deriving DecidableEq

def LifecycleError.text : LifecycleError → String
  | .message => "invalid LE Audio lifecycle message"
  | .identity => "invalid LE Audio lifecycle identity"

/-- The identity `decodeLifecycleMessage` reads off a packet. -/
def readLifecycle (packet : Bytes) : LifecycleProgress where
  bundleID := uint64 (slice packet 8 16)
  sinkGeneration := uint64 (slice packet 16 24)
  sourceGeneration := uint64 (slice packet 24 32)

def decodeLifecycleMessage (packet : Bytes) :
    Except LifecycleError (UInt8 × LifecycleProgress) :=
  if packet.length ≠ lifecycleMessageSize
      ∨ slice packet 0 4 ≠ lifecycleMagic
      ∨ byteAt packet 4 ≠ lifecycleVersion
      ∨ (byteAt packet 5 ≠ lifecycleTypeProgress
        ∧ byteAt packet 5 ≠ lifecycleTypeNormalEnd)
      ∨ byteAt packet 6 ≠ 0 ∨ byteAt packet 7 ≠ 0 then
    .error .message
  else if (readLifecycle packet).bundleID = 0
      ∨ (readLifecycle packet).sinkGeneration = 0
      ∨ (readLifecycle packet).sourceGeneration = 0 then
    .error .identity
  else .ok (byteAt packet 5, readLifecycle packet)

end Callbridge.Bluez
