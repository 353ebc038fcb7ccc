/-
The configuration of the SMS bridge (internal/config/config.go): how it
is read from the environment, and what `Validate` asks of it.

An environment variable that is missing and one that is blank are the
same, so the environment is a function from names to values. A duration
is a number of nanoseconds. The parser of IPv6 notation is a parameter.
-/
import Callbridge.Lib.Guards
import Callbridge.Lib.Netip
import Callbridge.Config.Recipients

namespace Callbridge.Config

open Lib Lib.Netip Message

/-- The type `Config` of the package. -/
structure Settings where
  bluetoothDevice : Bytes
  adapter : Bytes
  masChannel : UInt8
  mnsChannel : UInt16
  mapTimeout : Int
  pollInterval : Int
  keepalive : Int
  pollMaxCount : Int
  internalListen : Bytes
  outboxListen : Bytes
  allowedSources : List Prefix
  amiAddress : Bytes
  amiUser : Bytes
  amiSecretFile : Bytes
  recipients : List Bytes
  mediaURL : Bytes
  mediaMaxBytes : Int
  mediaTimeout : Int
  leAudioMode : Bytes
  leAudioSocket : Bytes
  leAudioPeerUID : Int
  classicProfileMode : Bytes
  stateFile : Bytes
  logFile : Bytes
  legacySeenFile : Bytes
  legacyMessageLog : Bytes
  legacyForwardState : Bytes
  legacyOutboundQueue : Bytes

inductive ConfigError where
  | deviceRequired
  | bluetoothAddress
  | adapter
  | channels
  | channelsEqual
  | internalListen
  | outboxListen
  | amiAddress
  | relativePath
  | samePath
  | leAudioMode
  | classicProfileMode
  | isolatedMode
  | socketPath
  | allowlistEmpty
  | mediaURL
  | mediaBounds
  | loopbackTooBroad
  | sourceNotExact
  | allowlistTooLong
  | allowedSources
  | recipient (e : RecipientError)
  | outside (name : String) (min max : Int)
  deriving DecidableEq

def ConfigError.text : ConfigError → String
  | .deviceRequired => "BT_DEVICE is required"
  | .bluetoothAddress => "invalid Bluetooth address"
  | .adapter => "invalid Bluetooth adapter"
  | .channels => "Bluetooth channel outside 1..30"
  | .channelsEqual => "MAS and MNS channels must differ"
  | .internalListen => "internal API must listen on loopback IPv4"
  | .outboxListen => "invalid outbox listen address"
  | .amiAddress => "AMI address must be private IPv4"
  | .relativePath => "runtime paths must be absolute"
  | .samePath => "secret, state, and log paths must differ"
  | .leAudioMode => "LE_AUDIO_MODE must be off or le-canary"
  | .classicProfileMode => "CLASSIC_PROFILE_MODE must be normal or isolated"
  | .isolatedMode =>
      "CLASSIC_PROFILE_MODE=isolated requires LE_AUDIO_MODE=le-canary"
  | .socketPath => "LE Audio socket must not overlap persistent paths"
  | .allowlistEmpty => "source and recipient allowlists must not be empty"
  | .mediaURL => "MEDIA_URL must use the pinned Groundwire media service"
  | .mediaBounds => "media bounds invalid"
  | .loopbackTooBroad => "loopback source prefix is too broad"
  | .sourceNotExact =>
      "non-loopback outbox sources must be exact IPv4 addresses"
  | .allowlistTooLong => "source or recipient allowlist exceeds bound"
  | .allowedSources => "invalid OUTBOX_ALLOWED_SOURCES"
  | .recipient e => e.text
  | .outside name min max =>
      name ++ " outside " ++ toString min ++ ".." ++ toString max

-- == the checks

/-- The digit's value in base sixteen. -/
def hexValue (b : UInt8) : Option UInt8 :=
  if 0x30 ≤ b ∧ b ≤ 0x39 then some (b - 0x30)
  else if 0x41 ≤ b ∧ b ≤ 0x46 then some (b - 0x37)
  else if 0x61 ≤ b ∧ b ≤ 0x66 then some (b - 0x57)
  else none

/-- One part of a Bluetooth address: `strconv.ParseUint` of two bytes in
base sixteen, which takes neither a sign nor an underscore. -/
def addressByte : Bytes → Option UInt8
  | [high, low] => do
      let h ← hexValue high
      let l ← hexValue low
      some (h * 16 + l)
  | _ => none

def parseBluetoothAddress (value : Bytes) : Except ConfigError (List UInt8) :=
  let parts := splitByte 0x3a value
  if parts.length ≠ 6 then .error .bluetoothAddress
  else
    match parts.mapM addressByte with
    | some bytes => .ok bytes
    | none => .error .bluetoothAddress

def validAdapter (value : Bytes) : Bool :=
  (ascii "hci").isPrefixOf value && 4 ≤ value.length && value.length ≤ 16
    && (value.drop 3).all isDigit

/-- A path of the loop over the runtime paths. -/
def absolutePath (path : Bytes) : Bool :=
  [0x2f].isPrefixOf path && path.all fun b => b != 0 && b != 0x0d && b != 0x0a

/-- The loop over the allowed sources, at one prefix. -/
def checkSource (p : Prefix) : Option ConfigError :=
  if p.addr.isLoopback then
    if p.bitCount < 8 then some .loopbackTooBroad else none
  else if p.bitCount ≠ 32 then some .sourceNotExact
  else none

def second : Int := 1000000000

section Parsing

variable (parseIPv6 : Bytes → Option (BitVec 128 × Bytes))

/-- `addressOf`, of which no caller looks at the error. -/
def addressOf (value : Bytes) : Option Addr :=
  match splitHostPort value with
  | none => none
  | some (host, _) => (parseAddr parseIPv6 host).filter Addr.is4

def Settings.validate (c : Settings) : Except ConfigError Unit := do
  check (c.bluetoothDevice != []) .deviceRequired
  let _ ← parseBluetoothAddress c.bluetoothDevice
  check (validAdapter c.adapter) .adapter
  check (1 ≤ c.masChannel && c.masChannel ≤ 30
    && 1 ≤ c.mnsChannel && c.mnsChannel ≤ 30) .channels
  check (c.masChannel != c.mnsChannel.toUInt8) .channelsEqual
  let _ ← require (addressOf parseIPv6 c.internalListen)
    (fun ip => ip.isLoopback) .internalListen
  let _ ← require (addressOf parseIPv6 c.outboxListen)
    (fun _ => true) .outboxListen
  let _ ← require (addressOf parseIPv6 c.amiAddress)
    (fun ip => ip.isPrivate || ip.isLoopback) .amiAddress
  check ([c.amiSecretFile, c.stateFile, c.logFile, c.legacySeenFile,
    c.legacyMessageLog, c.legacyForwardState, c.legacyOutboundQueue,
    c.leAudioSocket].all absolutePath) .relativePath
  check (c.amiSecretFile != c.stateFile && c.amiSecretFile != c.logFile
    && c.stateFile != c.logFile) .samePath
  check (c.leAudioMode == ascii "off"
    || c.leAudioMode == ascii "le-canary") .leAudioMode
  check (c.classicProfileMode == ascii "normal"
    || c.classicProfileMode == ascii "isolated") .classicProfileMode
  check (c.classicProfileMode != ascii "isolated"
    || c.leAudioMode == ascii "le-canary") .isolatedMode
  check (c.leAudioSocket != c.amiSecretFile && c.leAudioSocket != c.stateFile
    && c.leAudioSocket != c.logFile) .socketPath
  check (!c.allowedSources.isEmpty && !c.recipients.isEmpty) .allowlistEmpty
  check (c.mediaURL == ascii "https://mmmsg.acrobits.net/") .mediaURL
  check (65536 ≤ c.mediaMaxBytes && c.mediaMaxBytes ≤ 2097152
    && 10 * second ≤ c.mediaTimeout && c.mediaTimeout ≤ 120 * second)
    .mediaBounds
  match c.allowedSources.findSome? checkSource with
  | some e => .error e
  | none =>
      check (c.allowedSources.length ≤ 16 && c.recipients.length ≤ 8)
        .allowlistTooLong

-- == the environment

/-- The loop of `prefixes`. The set `seen` is what is in the result. -/
def prefixesFrom (result : List Prefix) :
    List Bytes → Except ConfigError (List Prefix)
  | [] => .ok result
  | field :: fields =>
      let item := trimSpace field
      if item = [] then prefixesFrom result fields
      else
        let item := if 0x2f ∈ item then item else item ++ ascii "/32"
        match parsePrefix parseIPv6 item with
        | none => .error .allowedSources
        | some p =>
            if p.addr.is4 = false then .error .allowedSources
            else if p.masked ∈ result then prefixesFrom result fields
            else prefixesFrom (result ++ [p.masked]) fields

def prefixes (raw : Bytes) : Except ConfigError (List Prefix) :=
  prefixesFrom parseIPv6 [] (splitByte 0x2c raw)

/-- `strconv.Atoi`. -/
def atoi (s : Bytes) : Option Int :=
  let digits := if s.head? = some 0x2b ∨ s.head? = some 0x2d then s.drop 1
    else s
  let value : Int := if s.head? = some 0x2d then - (decimal digits : Int)
    else decimal digits
  if digits = [] ∨ digits.all isDigit = false then none
  else if value < -2 ^ 63 ∨ 2 ^ 63 ≤ value then none
  else some value

variable (getenv : String → Bytes)

def env (name : String) (fallback : Bytes) : Bytes :=
  let value := trimSpace (getenv name)
  if value = [] then fallback else value

/-- `intEnv`. The fallback goes through `strconv.Itoa` and back in the
source. -/
def intEnv (name : String) (fallback min max : Int) :
    Except ConfigError Int :=
  let value := if trimSpace (getenv name) = [] then some fallback
    else atoi (trimSpace (getenv name))
  match value with
  | none => .error (.outside name min max)
  | some v =>
      if v < min ∨ max < v then .error (.outside name min max) else .ok v

def load : Except ConfigError Settings := do
  let mas ← intEnv getenv "MAS_CHANNEL" 0 1 30
  let mns ← intEnv getenv "MNS_CHANNEL" 19 1 30
  let mapTimeout ← intEnv getenv "MAP_TIMEOUT_SEC" 15 3 60
  let pollInterval ← intEnv getenv "POLL_INTERVAL_SEC" 10 5 300
  let keepalive ← intEnv getenv "KEEPALIVE_SEC" 60 10 600
  let pollMaxCount ← intEnv getenv "POLL_MAX_COUNT" 50 10 500
  let allowedSources ← prefixes parseIPv6
    (env getenv "OUTBOX_ALLOWED_SOURCES" (ascii "127.0.0.0/8"))
  let recipients ← (recipients
    (env getenv "SMS_RECIPIENTS" (ascii "1002"))).mapError .recipient
  let mediaMaxBytes ← intEnv getenv "MEDIA_MAX_BYTES" 1572864 65536 2097152
  let mediaTimeout ← intEnv getenv "MEDIA_TIMEOUT_SEC" 30 10 120
  let leAudioPeerUID ← intEnv getenv "LE_AUDIO_PEER_UID" 0 0 2147483647
  let cfg : Settings :=
    { bluetoothDevice := trimSpace (getenv "BT_DEVICE")
      adapter := env getenv "BT_ADAPTER" (ascii "hci0")
      masChannel := UInt8.ofNat mas.toNat
      mnsChannel := UInt16.ofNat mns.toNat
      mapTimeout := mapTimeout * second
      pollInterval := pollInterval * second
      keepalive := keepalive * second
      pollMaxCount := pollMaxCount
      internalListen := env getenv "INTERNAL_LISTEN" (ascii "127.0.0.1:8765")
      outboxListen := env getenv "OUTBOX_LISTEN" (ascii "0.0.0.0:8788")
      allowedSources := allowedSources
      amiAddress := joinHostPort (env getenv "AMI_HOST" (ascii "127.0.0.1"))
        (env getenv "AMI_PORT" (ascii "5038"))
      amiUser := env getenv "AMI_USER" (ascii "callbridge")
      amiSecretFile := env getenv "AMI_SECRET_FILE"
        (ascii "/etc/callbridge-sms-go/ami-secret")
      recipients := recipients
      mediaURL := env getenv "MEDIA_URL" (ascii "https://mmmsg.acrobits.net/")
      mediaMaxBytes := mediaMaxBytes
      mediaTimeout := mediaTimeout * second
      leAudioMode := env getenv "LE_AUDIO_MODE" (ascii "off")
      leAudioSocket := env getenv "LE_AUDIO_SOCKET"
        (ascii "/run/asterisk-leaudio/leaudio.sock")
      leAudioPeerUID := leAudioPeerUID
      classicProfileMode := env getenv "CLASSIC_PROFILE_MODE" (ascii "normal")
      stateFile := env getenv "STATE_FILE"
        (ascii "/var/log/callbridge_sms_go.state.json")
      logFile := env getenv "LOG_FILE" (ascii "/var/log/callbridge_sms_go.log")
      legacySeenFile := env getenv "LEGACY_SEEN_FILE"
        (ascii "/var/log/callbridge_sms_seen_handles.json")
      legacyMessageLog := env getenv "LEGACY_MESSAGE_LOG"
        (ascii "/var/log/callbridge_sms_messages.jsonl")
      legacyForwardState := env getenv "LEGACY_FORWARD_STATE"
        (ascii "/var/log/callbridge_sms_forward_to_ami.state")
      legacyOutboundQueue := env getenv "LEGACY_OUTBOUND_QUEUE"
        (ascii "/tmp/callbridge_sms_out_queue.jsonl") }
  cfg.validate parseIPv6
  .ok cfg

end Parsing

end Callbridge.Config
