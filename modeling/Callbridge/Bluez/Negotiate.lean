/-
What the broker and BlueZ settle over D-Bus (internal/bluez/broker.go):
the device that is followed (`selectDevicePath`), and what an endpoint
negotiates (`SelectProperties`, `SetConfiguration` and the functions under
them): a configuration and a quality of service picked within the remote's
bounds, and the same two read back, first while they are provisional and
then as the transport has them.

A D-Bus dictionary is a list of entries of which the first of a name
counts, so that an entry put in front replaces what was there. Texts that
are only logged are left out.
-/
import Callbridge.Lib.Dbus
import Callbridge.Lib.Guards
import Callbridge.Bluez.Lc3
import Callbridge.Bluez.Broker

namespace Callbridge.Bluez

open Lib Lib.Dbus

-- == the device

def deviceInterface : Bytes := ascii "org.bluez.Device1"

inductive SelectError where
  | found (count : Nat)
  deriving DecidableEq

def SelectError.text : SelectError → String
  | .found count =>
      "expected one BlueZ device for selector, found " ++ toString count

/-- The body of the loop: whether the object is appended to the matches. -/
def selectMatch (text : CaseMapping) (adapter address : Bytes)
    (interfaces : Interfaces) : Bool :=
  match interfaces.lookup deviceInterface with
  | none => false
  | some properties =>
      match properties.get "Address", properties.get "Adapter" with
      | .string addressValue, .path adapterValue =>
          text.equalFold addressValue address
            && adapterValue == ascii "/org/bluez/" ++ adapter
      | _, _ => false

def selectDevicePath (text : CaseMapping) (visit : Visit)
    (adapter address : Bytes) : Except SelectError Path :=
  exactlyOne .found
    ((visit.filter fun object => selectMatch text adapter address object.2)
      |>.map Prod.fst)

-- == dictionaries

abbrev Dict := List (String × Variant)

def Dict.get? (d : Dict) (name : String) : Option Variant :=
  List.lookup name d

def variantByte : Variant → Option UInt8
  | .byte v => some v
  | _ => none

def variantUint16 : Variant → Option UInt16
  | .uint16 v => some v
  | _ => none

def variantUint32 : Variant → Option UInt32
  | .uint32 v => some v
  | _ => none

def variantBytes : Variant → Option Bytes
  | .bytes v => some v
  | _ => none

/-- A delay, which BlueZ also sends in 16 bits. -/
def variantDelay : Variant → Option UInt32
  | .uint32 v => some v
  | .uint16 v => some v.toUInt32
  | _ => none

/-- An entry read as one type; a name that is missing reads as none. -/
def Dict.read {α : Type} (d : Dict) (name : String)
    (variant : Variant → Option α) : Option α :=
  (d.get? name).bind variant

/-- An entry that may be missing, but must pass where it is there. -/
def Dict.optional {ε α : Type} (d : Dict) (name : String) (default : α)
    (variant : Variant → Option α) (test : α → Bool) (e : ε) :
    Except ε α :=
  match d.get? name with
  | none => .ok default
  | some value => require (variant value) test e

-- == errors

/-- What is wrong with a quality of service, offered or configured. -/
inductive QoSError where
  | capabilities
  | framingCapability
  | phyCapability
  | latencyCapability
  | retransmissionPreference
  | minimumDelay
  | maximumDelay
  | delayInverted
  | preferredMinimumDelay
  | preferredMaximumDelay
  | delayNoOverlap
  | cigInvalid
  | cigMissing
  | cisInvalid
  | cisMissing
  | idsUnallocated
  | intervalMismatch
  | sduMismatch
  | framingInvalid
  | phyNotLE2M
  | retransmissionsInvalid
  | latencyInvalid
  | presentationDelayInvalid
  | targetLatencyInvalid
  | targetLatencyFallbackInvalid
  deriving DecidableEq

def QoSError.text : QoSError → String
  | .capabilities => "invalid remote LC3 QoS capabilities"
  | .framingCapability => "invalid remote LC3 framing capability"
  | .phyCapability =>
      "remote endpoint does not support mandatory LE 2M PHY"
  | .latencyCapability =>
      "remote endpoint maximum latency is below TMAP LC3 preset"
  | .retransmissionPreference => "invalid remote retransmission preference"
  | .minimumDelay => "invalid minimum presentation delay"
  | .maximumDelay => "invalid maximum presentation delay"
  | .delayInverted => "remote presentation delay range is inverted"
  | .preferredMinimumDelay => "invalid preferred minimum presentation delay"
  | .preferredMaximumDelay => "invalid preferred maximum presentation delay"
  | .delayNoOverlap => "remote preferred presentation delay has no overlap"
  | .cigInvalid => "invalid LC3 QoS CIG"
  | .cigMissing => "final LC3 QoS CIG missing"
  | .cisInvalid => "invalid LC3 QoS CIS"
  | .cisMissing => "final LC3 QoS CIS missing"
  | .idsUnallocated => "BlueZ did not allocate final CIG/CIS identifiers"
  | .intervalMismatch => "LC3 QoS interval does not match frame duration"
  | .sduMismatch => "LC3 QoS SDU does not match frame"
  | .framingInvalid => "invalid LC3 QoS framing"
  | .phyNotLE2M => "LC3 QoS must use mandatory LE 2M PHY"
  | .retransmissionsInvalid => "LC3 QoS retransmissions outside bound"
  | .latencyInvalid => "LC3 QoS latency outside bound"
  | .presentationDelayInvalid =>
      "LC3 QoS presentation delay outside bound"
  | .targetLatencyInvalid => "LC3 QoS target latency outside bound"
  | .targetLatencyFallbackInvalid =>
      "selected LC3 QoS target latency outside bound"

/-- What an endpoint answers BlueZ with instead of a result. -/
inductive EndpointError where
  | capabilitiesMissing
  | allocation (key : String)
  | lc3 (e : Lc3Error)
  | qos (e : QoSError)
  | configurationMissing
  | qosDictionary
  | transport (e : ConfigureError)
  deriving DecidableEq

def EndpointError.text : EndpointError → String
  | .capabilitiesMissing => "LC3 capabilities missing"
  | .allocation key => "invalid LC3 " ++ key
  | .lc3 e => e.text
  | .qos e => e.text
  | .configurationMissing => "LC3 configuration missing"
  | .qosDictionary => "invalid LC3 QoS dictionary"
  | .transport e => e.text

-- == selection

/-- The location taken out of those the remote offers: front left where it
is among them, otherwise the lowest. -/
def allocationFrom (key : String) (value : Variant) :
    Except EndpointError UInt32 := do
  let locations ← require (variantUint32 value) (· != 0) (.allocation key)
  return if locations &&& frontLeftLocation ≠ 0 then frontLeftLocation
    else locations &&& (~~~ locations + 1)

def selectChannelAllocation (properties : Dict) :
    Except EndpointError UInt32 :=
  match properties.get? "ChannelAllocation" with
  | some value => allocationFrom "ChannelAllocation" value
  | none =>
      match properties.get? "Locations" with
      | some value => allocationFrom "Locations" value
      | none => .ok frontLeftLocation

def maxPresentationDelay : UInt32 := 0x00ffffff

/-- A bound on the delay that must be given if its entry is. -/
def delayBound (d : UInt32) : Bool := d != 0 && d ≤ maxPresentationDelay

def selectPresentationDelay (bounds : Dict) (preferred : UInt32) :
    Except QoSError UInt32 := do
  let minimum ← bounds.optional "MinimumDelay" 1 variantDelay delayBound
    .minimumDelay
  let maximum ← bounds.optional "MaximumDelay" maxPresentationDelay
    variantDelay delayBound .maximumDelay
  check (minimum ≤ maximum) .delayInverted
  -- a preferred bound of zero is no preference
  let preferredMinimum ← bounds.optional "PreferredMinimumDelay" 0
    variantDelay (· ≤ maxPresentationDelay) .preferredMinimumDelay
  let preferredMaximum ← bounds.optional "PreferredMaximumDelay" 0
    variantDelay (· ≤ maxPresentationDelay) .preferredMaximumDelay
  let minimum := if preferredMinimum ≠ 0 ∧ preferredMinimum > minimum then
    preferredMinimum else minimum
  let maximum := if preferredMaximum ≠ 0 ∧ preferredMaximum < maximum then
    preferredMaximum else maximum
  check (minimum ≤ maximum) .delayNoOverlap
  return if preferred < minimum then minimum
    else if preferred > maximum then maximum else preferred

/-- The frame interval in microseconds. -/
def CodecConfig.intervalUS (codec : CodecConfig) : UInt32 :=
  UInt32.ofNat (codec.frameDuration / 1000)

/-- What is selected where the remote sets no bounds. -/
def presetQoS (codec : CodecConfig) : TransportQoS where
  cig := 0xff
  cis := 0xff
  intervalUS := codec.intervalUS
  framing := 0
  phy := 0x02
  sdu := UInt16.ofNat codec.octetsPerFrame
  retransmissions := 2
  latencyMS := if codec.intervalUS = 7500 then 8 else 10
  presentationDelayUS := 40000
  targetLatency := 2

/-- A selection, fitted to the bounds of the remote. -/
def TransportQoS.within (selected : TransportQoS) (bounds : Dict) :
    Except QoSError TransportQoS := do
  let framing ← bounds.optional "Framing" selected.framing variantByte
    (· ≤ 1) .framingCapability
  let _ ← bounds.optional "PHY" selected.phy variantByte
    (· &&& 0x02 != 0) .phyCapability
  let _ ← bounds.optional "MaximumLatency" selected.latencyMS variantUint16
    (selected.latencyMS ≤ ·) .latencyCapability
  let retransmissions ← bounds.optional "Retransmissions"
    selected.retransmissions variantByte (fun r => r != 0 && r ≤ 13)
    .retransmissionPreference
  let delay ← selectPresentationDelay bounds selected.presentationDelayUS
  return { selected with
    framing := framing
    retransmissions := retransmissions
    presentationDelayUS := delay }

def selectQoS (properties : Dict) (codec : CodecConfig) :
    Except QoSError TransportQoS :=
  match properties.get? "QoS" with
  | none => .ok (presetQoS codec)
  | some (.dict bounds) => (presetQoS codec).within bounds
  | some _ => .error .capabilities

def qosVariants (qos : TransportQoS) : Dict :=
  [("CIG", .byte qos.cig), ("CIS", .byte qos.cis),
    ("Interval", .uint32 qos.intervalUS), ("Framing", .byte qos.framing),
    ("PHY", .byte qos.phy), ("SDU", .uint16 qos.sdu),
    ("Retransmissions", .byte qos.retransmissions),
    ("Latency", .uint16 qos.latencyMS),
    ("PresentationDelay", .uint32 qos.presentationDelayUS),
    ("TargetLatency", .byte qos.targetLatency)]

/-- `SelectProperties`. -/
def selectProperties (properties : Dict) : Except EndpointError Dict := do
  let capabilities ← require (properties.read "Capabilities" variantBytes)
    (fun _ => true) .capabilitiesMissing
  let allocation ← selectChannelAllocation properties
  let configuration ←
    (selectConfigurationForAllocation capabilities allocation).mapError
      EndpointError.lc3
  let codec ← (parseConfiguration configuration).mapError EndpointError.lc3
  let selected ← (selectQoS properties codec).mapError EndpointError.qos
  return [("Capabilities", .bytes configuration),
    ("Metadata", .bytes [0x03, 0x02, 0x02, 0x00]),
    ("QoS", .dict (qosVariants selected))]

-- == read back

/-- An identifier of the isochronous group or stream, which only the final
quality of service must have. -/
def Dict.identifier (qos : Dict) (name : String) (final : Bool)
    (invalid missing : QoSError) : Except QoSError UInt8 :=
  match qos.get? name with
  | some value => require (variantByte value) (fun _ => true) invalid
  | none => if final then .error missing else .ok 0xff

def parseConfiguredQoS (qos : Dict) (codec : CodecConfig) (final : Bool) :
    Except QoSError TransportQoS := do
  let cig ← qos.identifier "CIG" final .cigInvalid .cigMissing
  let cis ← qos.identifier "CIS" final .cisInvalid .cisMissing
  check (!(final && (cig > 0xef || cis > 0xef))) .idsUnallocated
  let intervalUS ← require (qos.read "Interval" variantUint32)
    (· == codec.intervalUS) .intervalMismatch
  let sdu ← require (qos.read "SDU" variantUint16)
    (·.toNat == codec.octetsPerFrame) .sduMismatch
  let framing ← require (qos.read "Framing" variantByte) (· ≤ 1)
    .framingInvalid
  let phy ← require (qos.read "PHY" variantByte) (· &&& 0x02 != 0)
    .phyNotLE2M
  let retransmissions ← require (qos.read "Retransmissions" variantByte)
    (fun r => r != 0 && r ≤ 13) .retransmissionsInvalid
  let latencyMS ← require (qos.read "Latency" variantUint16)
    (fun l => l != 0 && l ≤ 100) .latencyInvalid
  let presentationDelayUS ←
    require (qos.read "PresentationDelay" variantUint32) delayBound
      .presentationDelayInvalid
  let targetLatency ← require (qos.read "TargetLatency" variantByte)
    (fun t => 1 ≤ t && t ≤ 3) .targetLatencyInvalid
  return ⟨cig, cis, intervalUS, framing, phy, sdu, retransmissions,
    latencyMS, presentationDelayUS, targetLatency⟩

/-- The dictionary with a target latency put in. -/
def Dict.withTargetLatency (qos : Dict) (targetLatency : UInt8) : Dict :=
  ("TargetLatency", .byte targetLatency) :: qos

def parseFinalTransportQoS (qos : Dict) (codec : CodecConfig)
    (selected : TransportQoS) : Except QoSError TransportQoS :=
  if (qos.get? "TargetLatency").isSome then
    parseConfiguredQoS qos codec true
  else if selected.targetLatency < 1 ∨ selected.targetLatency > 3 then
    .error .targetLatencyFallbackInvalid
  else
    parseConfiguredQoS (qos.withTargetLatency selected.targetLatency) codec
      true

def parsePreliminaryConfiguredQoS (qos : Dict) (codec : CodecConfig) :
    Except QoSError TransportQoS :=
  if (qos.get? "TargetLatency").isSome then
    parseConfiguredQoS qos codec false
  else do
    let selected ← selectQoS [] codec
    parseConfiguredQoS (qos.withTargetLatency selected.targetLatency) codec
      false

/-- The frame size of another preset of the same duration, in a quality of
service that is otherwise right for it. -/
def boundedStaleConfiguredSDU (qos : Dict) (codec : CodecConfig)
    (parseErr : QoSError) : Option UInt16 :=
  if parseErr ≠ .sduMismatch then none
  else
    match qos.read "SDU" variantUint16 with
    | none => none
    | some staleSDU =>
        if staleSDU = 0 ∨ staleSDU.toNat = codec.octetsPerFrame then none
        else if !(conversationalPresets.any fun candidate =>
            candidate.frameDuration == codec.frameDuration
              && candidate.octets == staleSDU.toNat) then none
        else
          match parsePreliminaryConfiguredQoS qos
              { codec with octetsPerFrame := staleSDU.toNat } with
          | .error _ => none
          | .ok _ => some staleSDU

/-- The state before allocation: no frame size, and both identifiers at
their sentinel. -/
def boundedUnallocatedConfiguredQoS (qos : Dict) (codec : CodecConfig)
    (parseErr : QoSError) : Option (UInt8 × UInt8) :=
  if parseErr ≠ .sduMismatch then none
  else if qos.read "SDU" variantUint16 ≠ some 0 then none
  else if qos.read "CIG" variantByte ≠ some 0xff then none
  else if qos.read "CIS" variantByte ≠ some 0xff then none
  else
    match selectQoS [] codec with
    | .error _ => none
    | .ok selected =>
        match parsePreliminaryConfiguredQoS
            (("SDU", .uint16 selected.sdu) :: qos) codec with
        | .error _ => none
        | .ok _ => some (0xff, 0xff)

/-- The quality of service `SetConfiguration` stores: the one it is given,
or the preset where it is given none yet, or only a provisional one. -/
def configuredQoS (properties : Dict) (codec : CodecConfig) :
    Except EndpointError TransportQoS :=
  match properties.get? "QoS" with
  | none => (selectQoS [] codec).mapError EndpointError.qos
  | some (.dict qos) =>
      match parsePreliminaryConfiguredQoS qos codec with
      | .ok parsed => .ok parsed
      | .error e =>
          if (boundedStaleConfiguredSDU qos codec e).isSome
              ∨ (boundedUnallocatedConfiguredQoS qos codec e).isSome then
            (selectQoS [] codec).mapError EndpointError.qos
          else .error (.qos e)
  | some _ => .error .qosDictionary

/-- What `SetConfiguration` reads before it calls `configure`. -/
def readConfiguration (properties : Dict) :
    Except EndpointError (CodecConfig × TransportQoS) := do
  let configuration ←
    require ((properties.read "Configuration" variantBytes).or
      (properties.read "Capabilities" variantBytes)) (fun _ => true)
      .configurationMissing
  let codec ← (parseConfiguration configuration).mapError EndpointError.lc3
  let qos ← configuredQoS properties codec
  return (codec, qos)

/-- `SetConfiguration` with the broker it leaves, also where it refuses:
the answer, and what `configure` has done. `valid` is what
`transport.IsValid()` says. -/
def Broker.serveSetConfiguration (b : Broker) (valid : Bool)
    (transport : ObjectPath) (direction : Direction) (properties : Dict) :
    Option EndpointError × Broker × List Event :=
  match readConfiguration properties with
  | .error e => (some e, b, [])
  | .ok (codec, qos) =>
      ((b.configureRefused valid transport).map EndpointError.transport,
        b.configure valid transport direction codec qos)

/-- `SetConfiguration`, with the broker where it accepts. -/
def Broker.setConfiguration (b : Broker) (valid : Bool)
    (transport : ObjectPath) (direction : Direction) (properties : Dict) :
    Except EndpointError (Broker × List Event) :=
  match b.serveSetConfiguration valid transport direction properties with
  | (some e, _) => .error e
  | (none, out) => .ok out

end Callbridge.Bluez
