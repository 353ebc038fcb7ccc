/-
LC3 configurations (internal/bluez/lc3.go): the conversational presets,
the length-type-value lists that BlueZ passes capabilities and
configurations in, and the two routines that pick a preset for a remote
endpoint and read a configuration back.

The parsed list is a Go map from type to value. Here `parseLTV` walks what
is left of the bytes, with the length of the input as fuel, which suffices
because every entry takes at least one byte. `ltvTurn` is a turn of the
loop as the source has it, by offset and with reads that may panic.
-/
import Callbridge.Lib.Checked
import Callbridge.Bluez.Types

namespace Callbridge.Bluez

open Lib

-- == presets

structure Preset where
  name : String
  frequencyCode : UInt8
  frequencyBit : UInt16
  durationCode : UInt8
  durationBit : UInt8
  sampleRate : Nat
  frameDuration : Nat
  octets : Nat
  deriving DecidableEq

/-- The presets in order of preference; durations are in nanoseconds. -/
def conversationalPresets : List Preset :=
  [⟨"32_2", 0x06, 0x20, 0x01, 0x02, 32000, 10000000, 80⟩,
   ⟨"32_1", 0x06, 0x20, 0x00, 0x01, 32000, 7500000, 60⟩,
   ⟨"16_1", 0x03, 0x04, 0x00, 0x01, 16000, 7500000, 30⟩,
   ⟨"24_2", 0x05, 0x10, 0x01, 0x02, 24000, 10000000, 60⟩,
   ⟨"24_1", 0x05, 0x10, 0x00, 0x01, 24000, 7500000, 45⟩,
   ⟨"16_2", 0x03, 0x04, 0x01, 0x02, 16000, 10000000, 40⟩]

def frontLeftLocation : UInt32 := 0x00000001

def ltvFrequency : UInt8 := 0x01
def ltvDuration : UInt8 := 0x02
def ltvChannelAllocation : UInt8 := 0x03
def ltvFrameLength : UInt8 := 0x04
def ltvFrameBlocksPerSDU : UInt8 := 0x05

-- == errors

inductive Lc3Error where
  | ltvLength
  | ltvMalformed
  | ltvDuplicate
  | oneLocation
  | frequencyCapability
  | durationCapability
  | monoCapability
  | lengthCapability
  | lengthRange
  | noPreset
  | frequency
  | duration
  | length
  | frameBlocks
  | allocation
  | notMono
  | requires (preset : Preset)
  | unsupported
  deriving DecidableEq

def Lc3Error.text : Lc3Error → String
  | .ltvLength => "LC3 LTV length outside bound"
  | .ltvMalformed => "malformed LC3 LTV"
  | .ltvDuplicate => "duplicate LC3 LTV type"
  | .oneLocation => "LC3 channel allocation must select one location"
  | .frequencyCapability => "LC3 frequency capability missing"
  | .durationCapability => "LC3 frame duration capability missing"
  | .monoCapability => "LC3 mono capability missing"
  | .lengthCapability => "LC3 frame length capability missing"
  | .lengthRange => "invalid LC3 frame length range"
  | .noPreset => "no supported conversational LC3 preset"
  | .frequency => "LC3 frequency configuration missing"
  | .duration => "unsupported LC3 frame duration"
  | .length => "LC3 frame length configuration missing"
  | .frameBlocks => "LC3 configuration requires one frame block per SDU"
  | .allocation => "invalid LC3 channel allocation"
  | .notMono => "LC3 configuration must be mono"
  | .requires preset =>
      "LC3 " ++ preset.name ++ " requires " ++ toString preset.octets
        ++ " octets"
  | .unsupported => "unsupported LC3 conversational preset"

-- == LTV lists

/-- The entries from one offset on, entered into the map. -/
def parseLTVFrom : Nat → Bytes → GoMap UInt8 Bytes →
    Except Lc3Error (GoMap UInt8 Bytes)
  | _, [], values => .ok values
  | 0, _ :: _, values => .ok values
  | fuel + 1, length :: rest, values =>
      if length < 2 ∨ length.toNat > rest.length then .error .ltvMalformed
      else if (values.lookup (byteAt rest 0)).isSome then
        .error .ltvDuplicate
      else
        parseLTVFrom fuel (rest.drop length.toNat)
          (values.insert (byteAt rest 0) (slice rest 1 length.toNat))

def parseLTV (raw : Bytes) : Except Lc3Error (GoMap UInt8 Bytes) :=
  if raw.length = 0 ∨ raw.length > 64 then .error .ltvLength
  else parseLTVFrom raw.length raw ∅

/-- A turn of the loop of `parseLTV`, in the offset and the map. -/
def ltvTurn (raw : Bytes) (s : Nat × GoMap UInt8 Bytes) :
    Option ((Nat × GoMap UInt8 Bytes)
      ⊕ Except Lc3Error (GoMap UInt8 Bytes)) :=
  let (offset, values) := s
  if offset < raw.length then do
    let length := (← raw[offset]?).toNat
    if length < 2 ∨ offset + 1 + length > raw.length then
      return .inr (.error .ltvMalformed)
    let typeID ← raw[offset + 1]?
    if (values.lookup typeID).isSome then
      return .inr (.error .ltvDuplicate)
    let value ← slice? raw (offset + 2) (offset + 1 + length)
    return .inl (offset + (length + 1), values.insert typeID value)
  else some (.inr (.ok values))

/-- `parseLTV` returns, after as many turns of its loop as it takes. -/
def ParseLTVReturns (raw : Bytes)
    (r : Except Lc3Error (GoMap UInt8 Bytes)) : Prop :=
  if raw.length = 0 ∨ raw.length > 64 then r = .error .ltvLength
  else LoopReturns (ltvTurn raw) (0, ∅) r

-- == selection

/-- `bits.OnesCount32`. -/
def onesCount32 (v : UInt32) : Nat :=
  (List.range 32).countP fun i => v.toBitVec.getLsbD i

/-- An allocation that selects one location. -/
def oneLocation (allocation : UInt32) : Bool :=
  !(allocation == 0 || onesCount32 allocation != 1)

def buildConfiguration (candidate : Preset) (allocation : UInt32) : Bytes :=
  [0x02, ltvFrequency, candidate.frequencyCode,
   0x02, ltvDuration, candidate.durationCode,
   0x05, ltvChannelAllocation, allocation.toUInt8,
     (allocation >>> 8).toUInt8, (allocation >>> 16).toUInt8,
     (allocation >>> 24).toUInt8,
   0x03, ltvFrameLength, UInt8.ofNat candidate.octets,
     UInt8.ofNat (candidate.octets / 256)]

/-- What the remote endpoint can do, read off its capabilities. -/
structure Capabilities where
  frequencyMask : UInt16
  duration : UInt8
  minimum : Nat
  maximum : Nat
  deriving DecidableEq

def readCapabilities (values : GoMap UInt8 Bytes) :
    Except Lc3Error Capabilities :=
  match values.lookup ltvFrequency with
  | none => .error .frequencyCapability
  | some frequency =>
  if frequency.length ≠ 2 then .error .frequencyCapability else
  match values.lookup ltvDuration with
  | none => .error .durationCapability
  | some duration =>
  if duration.length ≠ 1 ∨ byteAt duration 0 &&& 0x03 = 0 then
    .error .durationCapability else
  match values.lookup ltvChannelAllocation with
  | none => .error .monoCapability
  | some channels =>
  if channels.length ≠ 1 ∨ byteAt channels 0 &&& 0x01 = 0 then
    .error .monoCapability else
  match values.lookup ltvFrameLength with
  | none => .error .lengthCapability
  | some frameLength =>
  if frameLength.length ≠ 4 then .error .lengthCapability
  else if (uint16 (slice frameLength 0 2)).toNat = 0
      ∨ (uint16 (slice frameLength 0 2)).toNat
        > (uint16 (slice frameLength 2 4)).toNat then
    .error .lengthRange
  else
    .ok ⟨uint16 frequency, byteAt duration 0,
      (uint16 (slice frameLength 0 2)).toNat,
      (uint16 (slice frameLength 2 4)).toNat⟩

/-- The remote endpoint supports the preset. -/
def Capabilities.admits (c : Capabilities) (candidate : Preset) : Bool :=
  c.frequencyMask &&& candidate.frequencyBit != 0
    && c.duration &&& candidate.durationBit != 0
    && c.minimum ≤ candidate.octets && candidate.octets ≤ c.maximum

def selectConfigurationForAllocation (capabilities : Bytes)
    (allocation : UInt32) : Except Lc3Error Bytes :=
  if !oneLocation allocation then .error .oneLocation
  else
    match parseLTV capabilities with
    | .error e => .error e
    | .ok values =>
        match readCapabilities values with
        | .error e => .error e
        | .ok c =>
            match conversationalPresets.find? c.admits with
            | some candidate => .ok (buildConfiguration candidate allocation)
            | none => .error .noPreset

-- == parsing

/-- The channel allocation of a configuration, front left by default. -/
def parseAllocation (values : GoMap UInt8 Bytes) : Except Lc3Error UInt32 :=
  match values.lookup ltvChannelAllocation with
  | none => .ok frontLeftLocation
  | some raw =>
      if raw.length ≠ 4 then .error .allocation
      else if !oneLocation (uint32 raw) then .error .notMono
      else .ok (uint32 raw)

/-- The preset of a frequency and a duration, which must have the octets
given. -/
def parsePreset (frequency duration : UInt8) (octets : Nat)
    (allocation : UInt32) : Except Lc3Error CodecConfig :=
  match conversationalPresets.find? fun candidate =>
      frequency == candidate.frequencyCode
        && duration == candidate.durationCode with
  | none => .error .unsupported
  | some candidate =>
      if octets ≠ candidate.octets then .error (.requires candidate)
      else .ok ⟨candidate.sampleRate, candidate.frameDuration, octets,
        allocation⟩

/-- An entry for the frame blocks, if there is one, says one block. -/
def frameBlocksRefused (values : GoMap UInt8 Bytes) : Bool :=
  match values.lookup ltvFrameBlocksPerSDU with
  | none => false
  | some frameBlocks => frameBlocks.length != 1 || byteAt frameBlocks 0 != 1

def parseValues (values : GoMap UInt8 Bytes) : Except Lc3Error CodecConfig :=
  match values.lookup ltvFrequency with
  | none => .error .frequency
  | some frequency =>
  if frequency.length ≠ 1 then .error .frequency else
  match values.lookup ltvDuration with
  | none => .error .duration
  | some duration =>
  if duration.length ≠ 1 ∨ byteAt duration 0 > 0x01 then
    .error .duration else
  match values.lookup ltvFrameLength with
  | none => .error .length
  | some frameLength =>
  if frameLength.length ≠ 2 then .error .length
  else if frameBlocksRefused values then .error .frameBlocks
  else
    match parseAllocation values with
    | .error e => .error e
    | .ok allocation =>
        parsePreset (byteAt frequency 0) (byteAt duration 0)
          (uint16 frameLength).toNat allocation

def parseConfiguration (configuration : Bytes) :
    Except Lc3Error CodecConfig :=
  match parseLTV configuration with
  | .error e => .error e
  | .ok values => parseValues values

end Callbridge.Bluez
