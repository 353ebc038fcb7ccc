/-
The broker's locked regions (internal/bluez/broker.go): every stretch of
code between a `b.mu.Lock()` and its `Unlock`, as a function from the
broker to the broker it leaves and the events it lets out. The mutex
makes each of them atomic; which goroutine runs which region when is the
business of `Bluez.World`.

What BlueZ and the kernel answer (the reply of `TryAcquire`, the
transport's properties, the clock, the outcome of `PublishPair`) comes in
as arguments, and so does the order in which `findPendingPeerLocked`
ranges over the pending map. The descriptors a goroutine closes right
after it has unlocked are closed with the region.
-/
import Callbridge.Bluez.Types

namespace Callbridge.Bluez

open Lib

-- == small accessors

/-- The active session with its record. -/
def Broker.active (b : Broker) : Option (SessionId × Session) :=
  match b.activeSession with
  | none => none
  | some sid => (b.sessions[sid]?).map fun s => (sid, s)

def Broker.updateSession (b : Broker) (sid : SessionId)
    (f : Session → Session) : Broker :=
  { b with sessions := b.sessions.modify sid f }

/-- No acquire call, session or reservation has the path. -/
def Broker.unclaimed (b : Broker) (path : ObjectPath) : Bool :=
  !(decide (path ∈ b.acquiring) || decide (path ∈ b.acquired)
    || decide (path ∈ b.pairing))

def Broker.dropPending (b : Broker) (path : ObjectPath) : Broker :=
  { b with pending := b.pending.erase path }

def Broker.holdPending (b : Broker) (held : PendingTransport) : Broker :=
  { b with pending := b.pending.insert held.path held }

/-- The `delete`s that `configure`, `clear` and an idle signal share. -/
def Broker.dropFlags (b : Broker) (path : ObjectPath) : Broker :=
  { b with
    acquiring := b.acquiring.erase path
    acquired := b.acquired.erase path
    pairing := b.pairing.erase path }

/-- Closing the transport held at a path, if there is one. -/
def Broker.closeHeld (b : Broker) (path : ObjectPath) : List Event :=
  match b.pending.lookup path with
  | some held => [.closed held.fd]
  | none => []

def closeAll (transports : List PendingTransport) : List Event :=
  transports.map fun held => .closed held.fd

-- == the active session

/-- `signalActiveSessionDone`. -/
def Session.signalDone (s : Session) : Session :=
  { s with lifecycleDone := true }

def Broker.clearActiveSessionLocked (b : Broker) (sid : SessionId) :
    Broker :=
  match b.active with
  | none => b
  | some (current, session) =>
      if current = sid then
        { b with
          acquired :=
            (b.acquired.erase session.sinkPath).erase session.sourcePath
          activeSession := none
          sessions := b.sessions.modify sid Session.signalDone }
      else b

/-- The maps a new connection starts from and a lost one ends with. -/
def Broker.reset (b : Broker) : Broker :=
  { b with
    configured := ∅
    acquiring := ∅
    acquired := ∅
    pairing := ∅
    activeSession := none
    sessions := match b.activeSession with
      | some sid => b.sessions.modify sid Session.signalDone
      | none => b.sessions
    pending := ∅ }

/-- `closePendingLocked`, on the map it empties. -/
def Broker.closePending (b : Broker) : List Event :=
  closeAll (b.pending.sorted.map Prod.snd)

/-- `runBlueZOnce` takes its connection into use. -/
def Broker.connect (b : Broker) (conn : ConnId) (devicePath : Bytes) :
    Broker × List Event :=
  ({ b.reset with
      expectedDevice := devicePath
      connection := some conn },
    .connected conn :: b.closePending)

/-- `runBlueZOnce` returns after the endpoints were registered. -/
def Broker.unregister (b : Broker) : Broker × List Event :=
  (b.reset, .unregistered :: b.closePending)

/-- `runBlueZOnce` gives its connection up. -/
def Broker.disconnect (b : Broker) : Broker × List Event :=
  ({ b with connection := none }, [.disconnected])

-- == configure and clear

inductive ConfigureError where
  | unexpectedTransport
  | generationExhausted
  deriving DecidableEq

def ConfigureError.text : ConfigureError → String
  | .unexpectedTransport => "unexpected BlueZ transport"
  | .generationExhausted => "LE Audio configuration generation exhausted"

/-- The last value of a generation counter, `^uint64(0)`. -/
def maxGeneration : UInt64 := 0xffffffffffffffff

/-- Why `configure` refuses the path; `valid` is what `path.IsValid()`
says. -/
def Broker.configureRefused (b : Broker) (valid : Bool)
    (path : ObjectPath) : Option ConfigureError :=
  if !valid || !(b.expectedDevice ++ [0x2f]).isPrefixOf path then
    some .unexpectedTransport
  else if b.nextConfig = maxGeneration then
    some .generationExhausted
  else none

def Broker.configure (b : Broker) (valid : Bool) (path : ObjectPath)
    (direction : Direction) (codec : CodecConfig) (qos : TransportQoS) :
    Broker × List Event :=
  match b.configureRefused valid path with
  | some _ => (b, [])
  | none =>
      ({ (b.dropPending path).dropFlags path with
          nextConfig := b.nextConfig + 1
          configured := b.configured.insert path
            ⟨direction, b.nextConfig + 1, codec, qos⟩ },
        .configured path (b.nextConfig + 1) :: b.closeHeld path)

/-- The part of `clear` before it looks at the active session. -/
def Broker.forget (b : Broker) (path : ObjectPath) : Broker :=
  { (b.dropPending path).dropFlags path with
    configured := b.configured.erase path }

def Broker.clear (b : Broker) (path : ObjectPath) : Broker × List Event :=
  match b.active with
  | none => (b.forget path, .cleared path :: b.closeHeld path)
  | some (sid, session) =>
      (if session.concerns path then
          (b.forget path).clearActiveSessionLocked sid
        else b.forget path,
        .cleared path :: b.closeHeld path)

-- == idle signals

def Session.withIdle (s : Session) (path : ObjectPath) : Session :=
  { s with idlePaths := insert path s.idlePaths }

/-- Both transports of the session have reported idle. -/
def Session.allRemoteIdle (s : Session) : Bool :=
  decide (s.sinkPath ∈ s.idlePaths) && decide (s.sourcePath ∈ s.idlePaths)

def Session.seeRemoteIdle (s : Session) : Session :=
  { s with remoteIdleSeen := true }

/-- The counters of a session that completes because the remote went
idle. -/
def Broker.countIdleComplete (b : Broker) (remoteNormalIdle : Bool) :
    Broker :=
  { b with stats := { b.stats with
      transportIdleComplete := b.stats.transportIdleComplete + 1
      normalReleaseIdle :=
        if remoteNormalIdle then b.stats.normalReleaseIdle + 1
        else b.stats.normalReleaseIdle } }

/-- An idle signal on a path that concerns the active session. -/
def Broker.noteIdle (b : Broker) (sid : SessionId) (session : Session)
    (path : ObjectPath) : Broker × List Event :=
  if (session.withIdle path).allRemoteIdle then
    if session.releasing then
      (b.updateSession sid fun s => (s.withIdle path).seeRemoteIdle, [])
    else
      (((b.updateSession sid fun s => s.withIdle path).countIdleComplete
          session.normalEndSeen).clearActiveSessionLocked sid,
        [.idleCompleted sid])
  else
    (b.updateSession sid fun s => s.withIdle path, [])

/-- `handleSignal` on a transport whose state became idle. -/
def Broker.idleSignal (b : Broker) (path : ObjectPath) :
    Broker × List Event :=
  match b.active with
  | none => (b.dropFlags path, [.idle path])
  | some (sid, session) =>
      if session.concerns path then
        (((b.dropFlags path).noteIdle sid session path).1,
          .idle path :: ((b.dropFlags path).noteIdle sid session path).2)
      else (b.dropFlags path, [.idle path])

-- == acquire: the plan

/-- `linkedAcquirePlan`: `none` for an invalid set of links, otherwise the
linked peer, if there is one, and whether this side leads. -/
def linkedAcquirePlan (path : ObjectPath) (links : List ObjectPath) :
    Option (Option ObjectPath × Bool) :=
  match links with
  | [] => some (none, true)
  | [peer] =>
      if peer = [] ∨ peer = path then none
      else some (some peer, decide (path < peer))
  | _ => none

/-- The guard `acquire` takes before it asks BlueZ for the links. -/
def Broker.acquirable (b : Broker) (path : ObjectPath) : Bool :=
  (b.configured.lookup path).isSome && b.connection.isSome
    && b.unclaimed path

/-- What one `acquire` call knows once it has marked its paths: the
connection and the configurations it read under the lock. -/
structure Acquisition where
  path : ObjectPath
  conn : ConnId
  config : TransportConfig
  peer : Option (ObjectPath × TransportConfig)
  deriving DecidableEq

/-- The second guard of `acquire`, which marks the paths it passes. -/
def Broker.markAcquiring (b : Broker) (path : ObjectPath)
    (peer : Option ObjectPath) : Option (Acquisition × Broker) :=
  match b.configured.lookup path, b.connection with
  | some config, some conn =>
      if b.unclaimed path then
        match peer with
        | none =>
            some (⟨path, conn, config, none⟩,
              { b with acquiring := insert path b.acquiring })
        | some peerPath =>
            match b.configured.lookup peerPath with
            | none => none
            | some peerConfig =>
                if b.unclaimed peerPath then
                  some (⟨path, conn, config, some (peerPath, peerConfig)⟩,
                    { b with
                      acquiring :=
                        insert path (insert peerPath b.acquiring) })
                else none
      else none
  | _, _ => none

/-- The deferred function of `acquire`. -/
def Broker.unmarkAcquiring (b : Broker) (a : Acquisition) : Broker :=
  match a.peer with
  | none => { b with acquiring := b.acquiring.erase a.path }
  | some (peerPath, _) =>
      { b with acquiring := (b.acquiring.erase a.path).erase peerPath }

-- == acquire: the transports

/-- What BlueZ and the kernel answer once `TryAcquire` has returned a
descriptor: its MTUs, the final properties of the transport and of its
linked peer (`none` where `readTransportDetails` fails), and whether the
descriptor could be duplicated. -/
structure TransportReply where
  readMTU : UInt16
  writeMTU : UInt16
  details : Option (TransportQoS × List ObjectPath)
  peerDetails : Option (TransportQoS × List ObjectPath)
  duplicated : Bool
  deriving DecidableEq

/-- The transport `acquire` ends up holding, with its linked peer, where
`fd` is the descriptor BlueZ passed and `fd + 1` its duplicate. -/
def Acquisition.hold (a : Acquisition) (fd : FD) (r : TransportReply) :
    Option (PendingTransport × Option PendingTransport) :=
  match r.details with
  | none => none
  | some (qos, links) =>
      match a.peer with
      | none =>
          some (⟨a.path, a.path, a.config, qos, links, fd, r.readMTU,
            r.writeMTU⟩, none)
      | some (peerPath, peerConfig) =>
          if links.contains peerPath then
            match r.peerDetails with
            | none => none
            | some (peerQoS, peerLinks) =>
                if peerLinks.contains a.path && r.duplicated then
                  some (⟨a.path, a.path, a.config, qos, links, fd,
                      r.readMTU, r.writeMTU⟩,
                    some ⟨peerPath, a.path, peerConfig, peerQoS, peerLinks,
                      fd + 1, r.readMTU, r.writeMTU⟩)
                else none
          else none

-- == acquire: the pairing

inductive PairError where
  | directions
  | codec
  | notOneCIS
  | firstUnlinked
  | secondUnlinked
  deriving DecidableEq

def PairError.text : PairError → String
  | .directions => "LE Audio pair directions are incomplete"
  | .codec => "LE Audio pair codec mismatch"
  | .notOneCIS => "LE Audio pair is not one bidirectional CIS"
  | .firstUnlinked => "first LE Audio transport does not link its peer"
  | .secondUnlinked => "second LE Audio transport does not link its peer"

/-- `validateTransportPair`: the error, if any. -/
def validateTransportPair (first second : PendingTransport) :
    Option PairError :=
  if first.config.direction = second.config.direction then
    some .directions
  else if first.config.codec.sampleRate ≠ second.config.codec.sampleRate
      ∨ first.config.codec.frameDuration ≠ second.config.codec.frameDuration
      ∨ first.config.codec.octetsPerFrame
        ≠ second.config.codec.octetsPerFrame then
    some .codec
  else if first.qos.cig ≠ second.qos.cig ∨ first.qos.cis ≠ second.qos.cis
      ∨ first.qos.intervalUS ≠ second.qos.intervalUS
      ∨ first.qos.framing ≠ second.qos.framing
      ∨ first.qos.phy ≠ second.qos.phy then
    some .notOneCIS
  else if first.links ≠ [] ∧ ¬ first.links.contains second.path then
    some .firstUnlinked
  else if second.links ≠ [] ∧ ¬ second.links.contains first.path then
    some .secondUnlinked
  else none

/-- `findPendingPeerLocked`, over the pending map in the order given: the
candidate it stops at, with the error `validateTransportPair` finds. -/
def findPendingPeerLocked (current : PendingTransport)
    (order : List (ObjectPath × PendingTransport)) :
    Option (PendingTransport × Option PairError) :=
  match order.find? fun e => !(e.2.path == current.path
      || e.2.config.direction == current.config.direction) with
  | none => none
  | some e => some (e.2, validateTransportPair current e.2)

/-- The transport is still the one that was configured. -/
def Broker.stillConfigured (b : Broker) (held : PendingTransport) : Bool :=
  match b.configured.lookup held.path with
  | some current => current.generation == held.config.generation
  | none => false

/-- How `acquire` leaves its third locked region: with its transports
returned, with one held until its peer comes, or with a reserved pair. -/
inductive HoldOutcome where
  | returned
  | parked
  | paired (sink source : PendingTransport)
  deriving DecidableEq

/-- The sink comes first. -/
def orient (held peer : PendingTransport) :
    PendingTransport × PendingTransport :=
  if held.config.direction = .sink then (held, peer) else (peer, held)

/-- The pairing half of the third locked region. -/
def Broker.pairHeld (b : Broker) (held : PendingTransport)
    (order : List (ObjectPath × PendingTransport)) :
    Option (HoldOutcome × Broker × List Event) :=
  if b.pending.Order order then
    match findPendingPeerLocked held order with
    | none =>
        some (.parked, b, [.expiryArmed held.path held.config.generation])
    | some (peer, some _) =>
        some (.returned, (b.dropPending held.path).dropPending peer.path,
          closeAll [held, peer])
    | some (peer, none) =>
        some (.paired (orient held peer).1 (orient held peer).2,
          { (b.dropPending held.path).dropPending peer.path with
            pairing := insert (orient held peer).2.path
              (insert (orient held peer).1.path b.pairing) }, [])
  else none

/-- The third locked region of `acquire`: the transport and its linked
peer go into the pending map, unless their configuration changed or their
place is taken, and a pair is looked for. -/
def Broker.holdTransport (b : Broker) (held : PendingTransport)
    (linkedPeer : Option PendingTransport)
    (order : List (ObjectPath × PendingTransport)) :
    Option (HoldOutcome × Broker × List Event) :=
  if !b.stillConfigured held || linkedPeer.any (!b.stillConfigured ·)
      || (b.pending.lookup held.path).isSome then
    some (.returned, b, closeAll (linkedPeer.toList ++ [held]))
  else
    match linkedPeer with
    | none => (b.holdPending held).pairHeld held order
    | some peer =>
        if ((b.holdPending held).pending.lookup peer.path).isSome then
          some (.returned, (b.holdPending held).dropPending held.path,
            closeAll [peer, held])
        else ((b.holdPending held).holdPending peer).pairHeld held order

-- == acquire: the publication

/-- One pass of `waitForCallToken`: the token, when the provider has
one. -/
def correlatedToken (answer : Option (UInt64 × Bool)) : Option UInt64 :=
  match answer with
  | some (token, correlated) =>
      if correlated && token != 0 then some token else none
  | none => none

def Broker.pairCurrentLocked (b : Broker) (conn : ConnId)
    (first second : PendingTransport) : Bool :=
  decide (b.connection = some conn) && decide (first.path ∈ b.pairing)
    && decide (second.path ∈ b.pairing) && b.stillConfigured first
    && b.stillConfigured second

/-- One turn of `clearPairingLocked`'s loop. -/
def Broker.clearPairingOf (b : Broker) (held : PendingTransport) : Broker :=
  if b.stillConfigured held then
    { b with pairing := b.pairing.erase held.path }
  else b

def Broker.clearPairingLocked (b : Broker)
    (first second : PendingTransport) : Broker :=
  (b.clearPairingOf first).clearPairingOf second

/-- What a clock reading of seconds and nanoseconds is as a generation. -/
def clockGeneration (sec nsec : Int) : UInt64 :=
  UInt64.ofNat sec.toNat * 1000000000 + UInt64.ofNat nsec.toNat

/-- `nextDescriptorGenerationLocked`, from what the clock reads; `none`
where it returns an error. -/
def Broker.nextGeneration (b : Broker) (clock : Option (Int × Int)) :
    Option (UInt64 × Broker) :=
  match clock with
  | none => none
  | some (sec, nsec) =>
      if sec < 0 ∨ nsec < 0 then none
      else if clockGeneration sec nsec ≤ b.lastGen then
        if b.lastGen = maxGeneration then none
        else some (b.lastGen + 1, { b with lastGen := b.lastGen + 1 })
      else
        some (clockGeneration sec nsec,
          { b with lastGen := clockGeneration sec nsec })

def descriptorForPending (transport : PendingTransport)
    (generation bundleID callToken : UInt64) (callCorrelated : Bool) :
    Descriptor where
  direction := transport.config.direction.code
  generation := generation
  bundleID := bundleID
  callControlToken := callToken
  callControlCorrelated := callCorrelated
  ownershipTransferred := true
  linked := true
  lifecycleOwned := decide (transport.config.direction = .sink)
  sampleRate := UInt32.ofNat transport.config.codec.sampleRate
  frameDurationUS := UInt32.ofNat
    (transport.config.codec.frameDuration / 1000)
  octetsPerFrame := UInt16.ofNat transport.config.codec.octetsPerFrame
  channelAllocation := transport.config.codec.channelAllocation
  intervalUS := transport.qos.intervalUS
  presentationDelayUS := transport.qos.presentationDelayUS
  readMTU := transport.readMTU
  writeMTU := transport.writeMTU
  latencyMS := transport.qos.latencyMS
  framing := transport.qos.framing
  phy := transport.qos.phy
  retransmissions := transport.qos.retransmissions
  targetLatency := transport.qos.targetLatency
  cig := transport.qos.cig
  cis := transport.qos.cis
  transport := transport.path

/-- The argument is a pointer, which may be nil. -/
def pendingReleasePath : Option PendingTransport → ObjectPath
  | none => []
  | some held => if held.release ≠ [] then held.release else held.path

/-- The release paths in order, each once. -/
def pendingReleasePaths (transports : List (Option PendingTransport)) :
    List ObjectPath :=
  transports.foldl (fun paths held =>
    if pendingReleasePath held ≠ []
        ∧ ¬ paths.contains (pendingReleasePath held) then
      paths ++ [pendingReleasePath held]
    else paths) []

def activeSessionForHandoff (conn : ConnId) (sink source : PendingTransport)
    (sinkDescriptor sourceDescriptor : Descriptor) (lifecycleFD : Int)
    (startedAt : Nat) : Session where
  connection := conn
  releasePaths := pendingReleasePaths [some sink, some source]
  sinkPath := sink.path
  sourcePath := source.path
  sinkGeneration := sinkDescriptor.generation
  sourceGeneration := sourceDescriptor.generation
  bundleID := sinkDescriptor.bundleID
  callToken := sinkDescriptor.callControlToken
  lifecycleFD := lifecycleFD
  lifecycleDone := false
  startedAt := startedAt
  progressArmed := false
  lastProgress := 0
  normalEndSeen := false
  normalWaitStarted := false
  idlePaths := ∅
  remoteIdleSeen := false
  releasing := false
  releaseExhausted := false

/-- A published pair becomes the active session, whatever the active
session was. -/
def Broker.install (b : Broker) (session : Session) : Broker :=
  { b with
    acquired := insert session.sourcePath (insert session.sinkPath b.acquired)
    sessions := b.sessions ++ [session]
    activeSession := some b.sessions.length }

/-- Giving a reserved pair back. -/
def Broker.returnPair (b : Broker) (id : AcquireId)
    (sink source : PendingTransport) : Broker × List Event :=
  (b.clearPairingLocked sink source,
    .unreserved id sink source :: closeAll [sink, source])

/-- What the last locked region of `acquire` has at hand: the pair, the
call token it correlated, the two clock readings, the lifecycle
descriptor of a successful `PublishPair` (`none` for an error) and the
time. -/
structure Publication where
  conn : ConnId
  sink : PendingTransport
  source : PendingTransport
  callToken : UInt64
  callCorrelated : Bool
  sinkClock : Option (Int × Int)
  sourceClock : Option (Int × Int)
  lifecycleFD : Option Int
  now : Nat
  deriving DecidableEq

def Publication.sinkDescriptor (p : Publication)
    (sinkGeneration : UInt64) : Descriptor :=
  descriptorForPending p.sink sinkGeneration sinkGeneration p.callToken
    p.callCorrelated

/-- The source descriptor carries the sink's generation as its bundle. -/
def Publication.sourceDescriptor (p : Publication)
    (sinkGeneration sourceGeneration : UInt64) : Descriptor :=
  descriptorForPending p.source sourceGeneration sinkGeneration p.callToken
    p.callCorrelated

def Publication.session (p : Publication)
    (sinkGeneration sourceGeneration : UInt64) (lifecycleFD : Int) :
    Session :=
  activeSessionForHandoff p.conn p.sink p.source
    (p.sinkDescriptor sinkGeneration)
    (p.sourceDescriptor sinkGeneration sourceGeneration) lifecycleFD p.now

/-- `PublishPair` and what follows it, with both generations drawn. -/
def Broker.handOff (b : Broker) (id : AcquireId) (p : Publication)
    (sinkGeneration sourceGeneration : UInt64) : Broker × List Event :=
  match p.lifecycleFD with
  | none =>
      (b.clearPairingLocked p.sink p.source,
        .publishPair id p.sink p.source (p.sinkDescriptor sinkGeneration)
          (p.sourceDescriptor sinkGeneration sourceGeneration) false
          :: .unreserved id p.sink p.source :: closeAll [p.sink, p.source])
  | some lifecycleFD =>
      ((b.install (p.session sinkGeneration sourceGeneration
          lifecycleFD)).clearPairingLocked p.sink p.source,
        .publishPair id p.sink p.source (p.sinkDescriptor sinkGeneration)
          (p.sourceDescriptor sinkGeneration sourceGeneration) true
          :: .unreserved id p.sink p.source :: closeAll [p.sink, p.source])

/-- The last locked region of `acquire`. -/
def Broker.publish (b : Broker) (id : AcquireId) (p : Publication) :
    Broker × List Event :=
  if b.pairCurrentLocked p.conn p.sink p.source then
    match b.nextGeneration p.sinkClock with
    | none => b.returnPair id p.sink p.source
    | some (sinkGeneration, b₁) =>
        match b₁.nextGeneration p.sourceClock with
        | none => b₁.returnPair id p.sink p.source
        | some (sourceGeneration, b₂) =>
            b₂.handOff id p sinkGeneration sourceGeneration
  else b.returnPair id p.sink p.source

/-- `expirePending`, once its timer has fired. -/
def Broker.expirePending (b : Broker) (path : ObjectPath)
    (generation : UInt64) : Broker × List Event :=
  match b.pending.lookup path with
  | none => (b, [])
  | some held =>
      if held.config.generation = generation then
        (b.dropPending path, [.closed held.fd])
      else (b, [])

end Callbridge.Bluez
