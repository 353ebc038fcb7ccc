/-
The records of the LE Audio broker (internal/bluez/broker.go): what BlueZ
configured, what is held while its peer is missing, the session a
published pair becomes, and the broker that owns them all.

Pointers become numbers. A `*dbus.Conn` is the number of the connection,
an `*activeTransportSession` is its place in the list of all sessions ever
installed (the goroutines watching it hold it longer than it is active),
and a file descriptor is the number of the open, so that two opens are
never the same one.
-/
import Callbridge.Lib.GoMap
import Callbridge.Lib.Strings

namespace Callbridge.Bluez

open Lib

abbrev ObjectPath := Bytes
abbrev ConnId := Nat
abbrev SessionId := Nat
abbrev AcquireId := Nat
abbrev FD := Nat

-- == transports

inductive Direction where
  | sink
  | source
  deriving DecidableEq

/-- `DirectionSink` and `DirectionSource`, the bytes a descriptor names the
directions by. -/
def Direction.code : Direction → UInt8
  | .sink => 1
  | .source => 2

/-- A parsed LC3 configuration; the duration is in nanoseconds, as a
`time.Duration` is. -/
structure CodecConfig where
  sampleRate : Nat
  frameDuration : Nat
  octetsPerFrame : Nat
  channelAllocation : UInt32
  deriving DecidableEq

structure TransportQoS where
  cig : UInt8
  cis : UInt8
  intervalUS : UInt32
  framing : UInt8
  phy : UInt8
  sdu : UInt16
  retransmissions : UInt8
  latencyMS : UInt16
  presentationDelayUS : UInt32
  targetLatency : UInt8
  deriving DecidableEq

structure TransportConfig where
  direction : Direction
  generation : UInt64
  codec : CodecConfig
  qos : TransportQoS
  deriving DecidableEq

structure PendingTransport where
  path : ObjectPath
  release : ObjectPath
  config : TransportConfig
  qos : TransportQoS
  links : List ObjectPath
  fd : FD
  readMTU : UInt16
  writeMTU : UInt16
  deriving DecidableEq

/-- What the handoff socket carries beside each descriptor. The direction
is any byte: only `validateDescriptor` says which of them are one. -/
structure Descriptor where
  direction : UInt8
  generation : UInt64
  bundleID : UInt64
  callControlToken : UInt64
  callControlCorrelated : Bool
  ownershipTransferred : Bool
  linked : Bool
  lifecycleOwned : Bool
  sampleRate : UInt32
  frameDurationUS : UInt32
  octetsPerFrame : UInt16
  channelAllocation : UInt32
  intervalUS : UInt32
  presentationDelayUS : UInt32
  readMTU : UInt16
  writeMTU : UInt16
  latencyMS : UInt16
  framing : UInt8
  phy : UInt8
  retransmissions : UInt8
  targetLatency : UInt8
  cig : UInt8
  cis : UInt8
  transport : Bytes
  deriving DecidableEq

-- == sessions

/-- The identity a lifecycle message carries. -/
structure LifecycleProgress where
  bundleID : UInt64
  sinkGeneration : UInt64
  sourceGeneration : UInt64
  deriving DecidableEq

/-- `activeTransportSession`. `lifecycleDone` says whether the channel of
that name is closed; a time is a clock reading. -/
structure Session where
  connection : ConnId
  releasePaths : List ObjectPath
  sinkPath : ObjectPath
  sourcePath : ObjectPath
  sinkGeneration : UInt64
  sourceGeneration : UInt64
  bundleID : UInt64
  callToken : UInt64
  lifecycleFD : Int
  lifecycleDone : Bool
  startedAt : Nat
  progressArmed : Bool
  lastProgress : Nat
  normalEndSeen : Bool
  normalWaitStarted : Bool
  idlePaths : Finset ObjectPath
  remoteIdleSeen : Bool
  releasing : Bool
  releaseExhausted : Bool
  deriving DecidableEq

/-- Does a state signal on this path concern the session? -/
def Session.concerns (s : Session) (path : ObjectPath) : Bool :=
  path == s.sinkPath || path == s.sourcePath || s.releasePaths.contains path

-- == the broker

/-- The counters `Snapshot` reports. Nothing the broker does depends on
them. -/
structure Stats where
  releaseAttempts : UInt64
  releaseSuccesses : UInt64
  releaseErrors : UInt64
  releaseFallbacks : UInt64
  lifecycleProgress : UInt64
  lifecycleStale : UInt64
  lifecycleHUPs : UInt64
  lifecycleTimeouts : UInt64
  lifecycleStartTimeouts : UInt64
  lifecycleNormalEnds : UInt64
  normalReleaseWaits : UInt64
  normalReleaseIdle : UInt64
  normalReleaseTimeouts : UInt64
  transportIdleComplete : UInt64
  deriving DecidableEq

def Stats.zero : Stats := ⟨0, 0, 0, 0, 0, 0, 0, 0, 0, 0, 0, 0, 0, 0⟩

/-- The part of `Broker` behind its mutex, the advertisement aside (see
`Bluez.Advertise`). A `map[path]bool` only ever holds `true`, so it is
the set of its keys. -/
structure Broker where
  expectedDevice : Bytes
  connection : Option ConnId
  configured : GoMap ObjectPath TransportConfig
  acquiring : Finset ObjectPath
  acquired : Finset ObjectPath
  pairing : Finset ObjectPath
  pending : GoMap ObjectPath PendingTransport
  nextConfig : UInt64
  lastGen : UInt64
  requireToken : Bool
  normalReleaseWait : Nat
  activeSession : Option SessionId
  sessions : List Session
  stats : Stats
  deriving DecidableEq

/-- `NewBroker`, with call control and the release wait as the process
configures them before `Run`. -/
def newBroker (expectedDevice : Bytes) (requireToken : Bool)
    (normalReleaseWait : Nat) : Broker :=
  ⟨expectedDevice, none, ∅, ∅, ∅, ∅, ∅, 0, 0, requireToken,
    normalReleaseWait, none, [], Stats.zero⟩

/-- What a locked region does that is not in the broker's fields: the
descriptors it opens and closes, the calls it makes on others, and marks
on the moments the statements speak of. -/
inductive Event where
  | configured (path : ObjectPath) (generation : UInt64)
  | cleared (path : ObjectPath)
  | idle (path : ObjectPath)
  | connected (conn : ConnId)
  | unregistered
  | disconnected
  | opened (fd : FD)
  | closed (fd : FD)
  | reserved (id : AcquireId) (sink source : PendingTransport)
  | unreserved (id : AcquireId) (sink source : PendingTransport)
  | publishPair (id : AcquireId) (sink source : PendingTransport)
      (sinkDescriptor sourceDescriptor : Descriptor) (ok : Bool)
  | releaseStarted (session : SessionId)
  | releaseReturned (session : SessionId) (ok : Bool)
  | idleCompleted (session : SessionId)
  | expiryArmed (path : ObjectPath) (generation : UInt64)
  deriving DecidableEq

end Callbridge.Bluez
