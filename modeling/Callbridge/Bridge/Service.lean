/-
The message bridge as one machine (internal/bridge/service.go): the
goroutine of the MAP session, which fetches messages and forwards them by
AMI and drains the outbound queue, the HTTP handler that fills the queue,
and crashes after which the service opens its store again.

A step is one call out of the service: a fetch, an upload, a store
operation, a send. What it brings back is in the label, and a crash may
fall between any two. The session goroutine is one `Job` at a time; only
`enqueue` runs beside it. A `processEvent` call is known by its number,
which the code does not have.

Of a fetched message the label gives what the parsers of package message
make of it, and of an uploaded attachment what `MarshalSignal` makes of
its descriptor. Logs, the status counters, action identifiers, the sleeps
between fetches and the error a call returns are left out.
-/
import Callbridge.Lib.GoMap
import Callbridge.Lib.Trace
import Callbridge.Message.Split
import Callbridge.State.Store

namespace Callbridge.Bridge

open Lib State Message

-- == messages

/-- `ami.MaxBodyBytes`. -/
def maxBodyBytes : Nat := 1200

/-- `len(fetchDelays)`. -/
def fetchAttempts : Nat := 4

/-- `telecom/msg/`. -/
def messageFolders : Bytes :=
  [0x74, 0x65, 0x6c, 0x65, 0x63, 0x6f, 0x6d, 0x2f, 0x6d, 0x73, 0x67, 0x2f]

/-- `telecom/msg/inbox`. -/
def inbox : Bytes := messageFolders ++ [0x69, 0x6e, 0x62, 0x6f, 0x78]

/-- `model.Event`: whether its type is `NewMessage`, and whether its
message type is `MMS` in any case. -/
structure Event where
  newMessage : Bool
  handle : Bytes
  folder : Bytes
  mms : Bool
  dateTime : Bytes
  deriving DecidableEq

/-- The folder the message is fetched from. -/
def Event.fetchFolder (event : Event) : Bytes :=
  if messageFolders.isPrefixOf event.folder then event.folder else inbox

/-- `model.Message`, with the number of its attachments. -/
structure Parsed where
  body : Bytes
  attachments : Nat
  senderNumber : Bytes
  deriving DecidableEq

/-- A fetched message: what `ParseBMessage` finds in it, what `ParseMMS`
makes of that, if it succeeds, and the body that `StripMMSEnvelope`
leaves. -/
structure Fetched where
  message : Parsed
  mms : Option Parsed
  stripped : Bytes
  deriving DecidableEq

/-- One round of the fetch loop. -/
inductive Fetch where
  | cancelled
  | failed
  | fetched (m : Fetched)
  deriving DecidableEq

/-- What `MarshalSignal` makes of an uploaded attachment, with the text of
the message as caption and without, if it succeeds. -/
structure Signals where
  captioned : Option Bytes
  bare : Option Bytes
  deriving DecidableEq

/-- `sipDelivery`: a signal of an attachment, or a part of the text, whose
media index is -1. -/
structure SipDelivery where
  body : Bytes
  mediaIndex : Option Nat
  deriving DecidableEq

/-- A signal that can be sent. -/
def fitting (signal : Option Bytes) : Option Bytes :=
  signal.filter fun s => s.length ≤ maxBodyBytes

/-- The signal of one attachment and whether it carries the text; only
that of the first may. -/
def signalFor (clean : Bytes) (index : Nat) (s : Signals) :
    Option (Bytes × Bool) :=
  if index = 0 ∧ clean ≠ [] then
    match fitting s.captioned with
    | some signal => some (signal, true)
    | none => (fitting s.bare).map fun signal => (signal, false)
  else (fitting s.bare).map fun signal => (signal, false)

/-- The signals of the attachments from an index on, or none when one
cannot be sent. -/
def signalDeliveries (clean : Bytes) :
    Nat → List Signals → Option (List SipDelivery × Bool)
  | _, [] => some ([], false)
  | index, s :: rest =>
      match signalFor clean index s,
          signalDeliveries clean (index + 1) rest with
      | some (signal, caption), some (deliveries, captions) =>
          some (⟨signal, some index⟩ :: deliveries, caption || captions)
      | _, _ => none

/-- What is sent to each recipient: the signals, and the parts of the text
unless a signal carries it. Nothing when a signal cannot be sent. -/
def deliveriesOf (clean : Bytes) (parts : List Bytes)
    (signals : List Signals) : List SipDelivery :=
  match signalDeliveries clean 0 signals with
  | none => []
  | some (deliveries, captionIncluded) =>
      if captionIncluded then deliveries
      else deliveries ++ parts.map fun part => ⟨part, none⟩

/-- `message.NormalizeSender`. -/
def normalizeSender (value : Bytes) : Bytes :=
  let raw := trimSpace value
  let digits := raw.filter isDigit
  if digits.length < 3 then [0x30, 0x30, 0x30]
  else if [0x2b].isPrefixOf raw then 0x2b :: digits
  else if [0x30, 0x31, 0x30].isPrefixOf digits then
    [0x2b, 0x38, 0x32] ++ digits.drop 1
  else if [0x38, 0x32].isPrefixOf digits then 0x2b :: digits
  else digits

-- == state

/-- `mediaRetry`, with times in seconds. -/
structure MediaRetry where
  attempts : Nat
  next : Int
  deriving DecidableEq

/-- The delays of `deferMedia`. -/
def retryDelays : List Nat := [30, 120, 600, 1800, 3600]

def MediaRetry.defer (retry : Option MediaRetry) (now : Int) : MediaRetry :=
  let attempts := (retry.map MediaRetry.attempts).getD 0 + 1
  ⟨attempts, now + (retryDelays[attempts - 1]?).getD 3600⟩

/-- A `processEvent` call. -/
structure Task where
  call : Nat
  event : Event
  deriving DecidableEq

/-- What is known of a message once it is parsed. -/
structure Prepared where
  sender : Bytes
  clean : Bytes
  parts : List Bytes
  deriving DecidableEq

/-- Where the session goroutine stands. -/
inductive Job where
  | idle
  | fetching (t : Task) (left : Nat)
  | uploading (t : Task) (m : Prepared) (left : Nat)
      (signals : List Signals)
  | marking (t : Task) (sender : Bytes) (deliveries : List SipDelivery)
  | delivering (t : Task) (sender : Bytes)
      (rest : List (Bytes × List SipDelivery))
  | baselining
  | draining
  | handing (item : Outbound)
  deriving DecidableEq

structure Service where
  keeper : Keeper
  mediaRetries : GoMap Bytes MediaRetry
  job : Job
  calls : Nat

/-- The service before it first starts. -/
def newService (disk : Disk) : Service := ⟨⟨disk, none⟩, ∅, .idle, 0⟩

structure Config where
  recipients : List Bytes
  parsers : TimeParsers
  sha256 : Bytes → Bytes

inductive ServiceAct where
  | start (legacy : LegacyFiles) (fault : Option SaveFault)
  | crash
  | enqueue (item : Outbound) (fault : Option SaveFault)
  | bootstrap (handles : List Bytes) (fault : Option SaveFault)
  | setInitialized (fault : Option SaveFault)
  | processEvent (event : Event) (now : Int)
  | fetch (result : Fetch)
  | upload (result : Option Signals) (now : Int)
  | markSeen (fault : Option SaveFault)
  | sendMessage (ok : Bool)
  | takeOutbound (fault : Option SaveFault)
  | sendSMS (ok : Bool)

/-- What can be seen of a step: a file written, a handle added to those
seen, a request for a message, a send attempted, a `processEvent` call
that returned, an item added to the queue, one handed to `SendSMS`. -/
inductive ServiceEvent where
  | wrote (f : StateFile)
  | marked (handle : Bytes)
  | requested (folder handle : Bytes)
  | attempted (call : Nat) (handle recipient sender : Bytes)
      (delivery : SipDelivery)
  | returned (call : Nat) (handle : Bytes)
  | appended (item : Outbound)
  | handed (item : Outbound) (ok : Bool)
  deriving DecidableEq

-- == steps

/-- The keeper after an operation. -/
def Service.put {ρ : Type} (b : Service) (o : Outcome ρ) : Keeper :=
  ⟨b.keeper.disk.after o.written, some o.store⟩

/-- What an operation wrote. -/
def wroteOf {ρ : Type} (o : Outcome ρ) : List ServiceEvent :=
  o.written.toList.map .wrote

/-- The handles an operation added: those of its batch that were not
seen, once the batch is saved. -/
def markedOf {ρ : Type} (s : Store) (handles : List Bytes)
    (o : Outcome ρ) : List ServiceEvent :=
  if o.written.isSome then
    (handles.filter fun h => !s.hasSeen h).map .marked
  else []

/-- The call returns. -/
def Task.done (t : Task) : Job × List ServiceEvent :=
  (.idle, [.returned t.call t.event.handle])

/-- The next recipient for whom anything is left, or the end of the call. -/
def Task.deliver (t : Task) (sender : Bytes) :
    List (Bytes × List SipDelivery) → Job × List ServiceEvent
  | [] => t.done
  | (_, []) :: rest => t.deliver sender rest
  | (recipient, delivery :: more) :: rest =>
      (.delivering t sender ((recipient, delivery :: more) :: rest), [])

/-- Is the message still to be left alone after a failed upload? -/
def Service.deferred (b : Service) (handle : Bytes) (now : Int) : Bool :=
  match b.mediaRetries.lookup handle with
  | some retry => now < retry.next
  | none => false

/-- The head of `processEvent`, up to the fetch loop. -/
def beginEvent (b : Service) (s : Store) (event : Event) (now : Int) :
    Service × List ServiceEvent :=
  let t : Task := ⟨b.calls, event⟩
  let b := { b with calls := b.calls + 1 }
  if !event.newMessage || event.handle == [] || s.hasSeen event.handle
      || b.deferred event.handle now then
    ({ b with job := t.done.1 }, t.done.2)
  else ({ b with job := .fetching t fetchAttempts }, [])

/-- All attachments are uploaded: the message is marked next. -/
def Service.prepared (b : Service) (t : Task) (m : Prepared)
    (signals : List Signals) : Service :=
  { b with
    mediaRetries := b.mediaRetries.erase t.event.handle
    job := .marking t m.sender (deliveriesOf m.clean m.parts signals) }

/-- The message is marked with nothing to send. -/
def Service.consume (b : Service) (t : Task) : Service :=
  { b with job := .marking t [] [] }

/-- A parsed message has its attachments uploaded, unless it has too many
parts. -/
def Service.collect (b : Service) (t : Task) (m : Prepared)
    (attachments : Nat) : Service :=
  if maxSIPParts < m.parts.length then b.consume t
  else if attachments = 0 then b.prepared t m []
  else { b with job := .uploading t m attachments [] }

/-- From the fetched message to its attachments. A message that cannot be
parsed or is empty has nothing to send. -/
def Config.parse (cfg : Config) (b : Service) (t : Task) (m : Fetched) :
    Service :=
  match if t.event.mms then m.mms else some m.message with
  | none => b.consume t
  | some parsed =>
      if parsed.body = [] ∧ parsed.attachments = 0 then b.consume t
      else
        let clean := if t.event.mms then parsed.body else m.stripped
        let parts :=
          if clean = [] then []
          else visibleParts cfg.parsers clean t.event.dateTime
        b.collect t ⟨normalizeSender parsed.senderNumber, clean, parts⟩
          parsed.attachments

/-- One round of the fetch loop; a message that cannot be fetched is
marked with nothing to send. -/
def Config.fetchRound (cfg : Config) (b : Service) (t : Task) (left : Nat) :
    Fetch → Service × List ServiceEvent
  | .cancelled => ({ b with job := t.done.1 }, t.done.2)
  | .failed =>
      (if left ≤ 1 then b.consume t
        else { b with job := .fetching t (left - 1) },
        [.requested t.event.fetchFolder t.event.handle])
  | .fetched m =>
      (cfg.parse b t m, [.requested t.event.fetchFolder t.event.handle])

/-- One attachment; a failed upload puts the message off. -/
def uploadRound (b : Service) (t : Task) (m : Prepared) (left : Nat)
    (signals : List Signals) (now : Int) :
    Option Signals → Service × List ServiceEvent
  | none =>
      ({ b with
          mediaRetries := b.mediaRetries.insert t.event.handle
            (.defer (b.mediaRetries.lookup t.event.handle) now)
          job := t.done.1 }, t.done.2)
  | some signal =>
      if left ≤ 1 then (b.prepared t m (signals ++ [signal]), [])
      else ({ b with
        job := .uploading t m (left - 1) (signals ++ [signal]) }, [])

/-- `MarkSeen`, and then the sends, if there is anything to send. -/
def Config.markRound (cfg : Config) (b : Service) (s : Store) (t : Task)
    (sender : Bytes) (deliveries : List SipDelivery)
    (fault : Option SaveFault) : Service × List ServiceEvent :=
  let o := s.markSeen t.event.handle fault
  let next :=
    match o.result with
    | .error _ => t.done
    | .ok _ => t.deliver sender
        (cfg.recipients.map fun recipient => (recipient, deliveries))
  ({ b with keeper := b.put o, job := next.1 },
    wroteOf o ++ markedOf s [t.event.handle] o ++ next.2)

/-- `SendMessage`; a failure ends what this recipient is sent. -/
def sendRound (b : Service) (t : Task) (sender recipient : Bytes)
    (delivery : SipDelivery) (more : List SipDelivery)
    (rest : List (Bytes × List SipDelivery)) (ok : Bool) :
    Service × List ServiceEvent :=
  let next := t.deliver sender
    (if ok then (recipient, more) :: rest else rest)
  ({ b with job := next.1 },
    .attempted t.call t.event.handle recipient sender delivery :: next.2)

/-- `drainOutbound` hands on what it took, or returns. -/
def Job.afterTake : Except StoreError (Option Outbound) → Job
  | .ok (some item) => .handing item
  | .ok none => .idle
  | .error _ => .idle

/-- A step of the running service with its store. -/
def runningStep (cfg : Config) (b : Service) (s : Store) :
    ServiceAct → Option (Service × List ServiceEvent)
  | .start _ _ => none
  | .crash => none
  | .enqueue item fault =>
      let o := s.addOutbound item fault
      some ({ b with keeper := b.put o },
        wroteOf o ++ if o.written.isSome then [.appended item] else [])
  | .bootstrap handles fault =>
      match b.job with
      | .idle =>
          if s.isInitialized then some (b, [])
          else
            let o := s.markSeenMany handles fault
            let job := match o.result with
              | .error _ => .idle
              | .ok _ => .baselining
            some ({ b with keeper := b.put o, job := job },
              wroteOf o ++ markedOf s handles o)
      | _ => none
  | .setInitialized fault =>
      match b.job with
      | .baselining =>
          let o := s.setInitialized fault
          some ({ b with keeper := b.put o, job := .idle }, wroteOf o)
      | _ => none
  | .processEvent event now =>
      match b.job with
      | .idle => some (beginEvent b s event now)
      | _ => none
  | .fetch result =>
      match b.job with
      | .fetching t left => some (cfg.fetchRound b t left result)
      | _ => none
  | .upload result now =>
      match b.job with
      | .uploading t m left signals =>
          some (uploadRound b t m left signals now result)
      | _ => none
  | .markSeen fault =>
      match b.job with
      | .marking t sender deliveries =>
          some (cfg.markRound b s t sender deliveries fault)
      | _ => none
  | .sendMessage ok =>
      match b.job with
      | .delivering t sender ((recipient, delivery :: more) :: rest) =>
          some (sendRound b t sender recipient delivery more rest ok)
      | _ => none
  | .takeOutbound fault =>
      match b.job with
      | .idle | .draining =>
          let o := s.takeOutbound fault
          some ({ b with keeper := b.put o, job := .afterTake o.result },
            wroteOf o)
      | _ => none
  | .sendSMS ok =>
      match b.job with
      | .handing item =>
          some ({ b with job := if ok then .draining else .idle },
            [.handed item ok])
      | _ => none

/-- One step of the service. It starts where its store can be opened,
with nothing in memory but the store. -/
def serviceStep (cfg : Config) (b : Service) (a : ServiceAct) :
    Option (Service × List ServiceEvent) :=
  match b.keeper.store, a with
  | none, .start legacy fault =>
      match openStore cfg.sha256 b.keeper.disk legacy fault with
      | .ok (s, _, written) =>
          some ({ b with keeper := ⟨b.keeper.disk.after written, some s⟩ },
            written.toList.map .wrote)
      | .error _ => some (b, [])
  | none, _ => none
  | some _, .crash =>
      some ({ b with
        keeper := ⟨b.keeper.disk, none⟩
        mediaRetries := ∅
        job := .idle }, [])
  | some s, a => runningStep cfg b s a

abbrev ServiceTrans := Trans Service ServiceAct ServiceEvent

end Callbridge.Bridge
