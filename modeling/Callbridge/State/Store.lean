/-
The SMS bridge's state store (internal/state/store.go): the handles of the
messages already seen and the queue of messages to send, kept in memory
and in one file that every change rewrites.

A write goes to a temporary file that is renamed over the old one, so
`saveLocked` either leaves a file with the whole state or leaves the file
that was there; which of its steps fails is a label of the call. What a
file holds is what decoding it yields. The JSON decoder replaces every
byte that is not valid UTF-8, and so does the encoder: the file written
for a state decodes to the state with its strings made valid. Times are
instants, which the encoder writes in UTC and refuses outside the years 0
to 9999.

Legacy files are given by the rows a scanner finds and what each decodes
to. The path of the store, its mutex, and the permission bits of the
directory are left out.
-/
import Callbridge.Lib.Guards
import Callbridge.Lib.Roster
import Callbridge.Lib.Utf8

namespace Callbridge.State

open Lib

-- == constants

def stateVersion : Int := 1

def maximumSeenHandles : Nat := 4096

def maximumOutbound : Nat := 128

/-- `32 << 20`. -/
def maximumLegacyBytes : Nat := 33554432

-- == types

/-- A `time.Time`, as an instant: seconds since 1970 and nanoseconds. -/
structure Stamp where
  seconds : Int
  nanos : Fin 1000000000
  deriving DecidableEq

/-- `model.Outbound`; `destination` is its `To`. -/
structure Outbound where
  id : Bytes
  destination : Bytes
  text : Bytes
  queuedAt : Stamp
  deriving DecidableEq

structure DiskState where
  version : Int
  initialized : Bool
  seenHandles : List Bytes
  outbound : List Outbound
  deriving DecidableEq

structure Store where
  data : DiskState
  seen : Finset Bytes
  deriving DecidableEq

/-- The step of `saveLocked` that fails. -/
inductive SaveFault where
  | mkdirAll
  | createTemp
  | chmod
  | encode
  | sync
  | close
  | rename
  deriving DecidableEq

inductive StoreError where
  | notExist
  | unreadable
  | fileExceedsBound
  | permissionsInvalid
  | decode
  | trailingData
  | schemaInvalid
  | containsInvalidItem
  | legacyExceedsBound
  | invalidHandle
  | invalidItem
  | queueFull
  | save (fault : SaveFault)
  deriving DecidableEq

/-- The texts of the errors that do not come from the system. -/
def StoreError.text : StoreError → Option String
  | .fileExceedsBound => some "state file exceeds bound"
  | .permissionsInvalid => some "state file permissions invalid"
  | .trailingData => some "state file has trailing data"
  | .schemaInvalid => some "state schema or bounds invalid"
  | .containsInvalidItem => some "state contains invalid outbound item"
  | .legacyExceedsBound => some "legacy state exceeds bound"
  | .invalidHandle => some "invalid message handle"
  | .invalidItem => some "invalid outbound item"
  | .queueFull => some "outbound queue is full"
  | .notExist | .unreadable | .decode | .save _ => none

-- == validation

def validHandle (value : Bytes) : Bool :=
  value != [] && value.length ≤ 64 && value.all isHexDigit

/-- `strings.TrimPrefix(to, "+")`. -/
def trimPlus : Bytes → Bytes
  | 0x2b :: digits => digits
  | value => value

def validOutbound (item : Outbound) : Bool :=
  item.id != [] && item.id.length ≤ 128
    && !(item.id.any fun b => b == 0x00 || b == 0x0d || b == 0x0a)
    && item.text != [] && item.text.length ≤ 16384
    && 3 ≤ (trimPlus item.destination).length
    && (trimPlus item.destination).length ≤ 20
    && (trimPlus item.destination).all isDigit
    && (item.destination == trimPlus item.destination
      || item.destination == 0x2b :: trimPlus item.destination)

-- == files

/-- A string as the JSON decoder yields it. -/
abbrev JsonString := { s : Bytes // ValidUTF8 s }

/-- The item as its encoding decodes. -/
def Outbound.toValid (item : Outbound) : Outbound :=
  { item with
    id := toValidUTF8 item.id
    destination := toValidUTF8 item.destination
    text := toValidUTF8 item.text }

def Outbound.ValidText (item : Outbound) : Prop := item.toValid = item

instance : DecidablePred Outbound.ValidText := fun item =>
  inferInstanceAs (Decidable (item.toValid = item))

/-- The state as its encoding decodes. -/
def DiskState.toValid (d : DiskState) : DiskState :=
  { d with
    seenHandles := d.seenHandles.map toValidUTF8
    outbound := d.outbound.map Outbound.toValid }

def DiskState.ValidText (d : DiskState) : Prop := d.toValid = d

/-- A decoded state. -/
abbrev Document := { d : DiskState // d.ValidText }

/-- A file that can be opened: its size and mode, what it decodes to, if
it does, and whether anything follows the document. -/
structure StateFile where
  size : Nat
  regular : Bool
  perm : UInt16
  document : Option Document
  trailing : Bool
  deriving DecidableEq

/-- What is found at the store's path. -/
inductive Disk where
  | absent
  | unreadable
  | file (f : StateFile)
  deriving DecidableEq

-- == encoding

/-- The bytes the encoder writes for one rune. -/
def escapedSize (c : Char) : Nat :=
  if c = '"' ∨ c = '\\' then 2
  else if c = '\x08' ∨ c = '\x0c' ∨ c = '\n' ∨ c = '\r' ∨ c = '\t' then 2
  else if c.toNat < 0x20 ∨ c = '\u2028' ∨ c = '\u2029' then 6
  else c.utf8Size

/-- The bytes it writes between the quotes, where the first `skip` bytes
belong to the rune before. A byte that is no rune is written `\ufffd`. -/
def escapedSizeFrom : Nat → Bytes → Nat
  | _, [] => 0
  | skip + 1, _ :: s => escapedSizeFrom skip s
  | 0, b :: s =>
      match firstRune (b :: s) with
      | some c => escapedSize c + escapedSizeFrom (c.utf8Size - 1) s
      | none => 6 + escapedSizeFrom 0 s

def jsonStringSize (s : Bytes) : Nat := 2 + escapedSizeFrom 0 s

/-- The digits of a fraction of the given width without the zeros that
end it. -/
def significantDigits : Nat → Nat → Nat
  | 0, _ => 0
  | width + 1, v =>
      if v % 10 = 0 then significantDigits width (v / 10) else width + 1

/-- `2006-01-02T15:04:05.999999999Z` in quotes. -/
def Stamp.jsonSize (t : Stamp) : Nat :=
  match significantDigits 9 t.nanos with
  | 0 => 22
  | digits => 23 + digits

/-- `Time.MarshalJSON` refuses a year that does not have four digits. -/
def Stamp.marshals (t : Stamp) : Bool :=
  -62167219200 ≤ t.seconds && t.seconds < 253402300800

/-- `{"id":…,"to":…,"text":…,"queued_at":…}`. -/
def Outbound.jsonSize (item : Outbound) : Nat :=
  34 + jsonStringSize item.id + jsonStringSize item.destination
    + jsonStringSize item.text + item.queuedAt.jsonSize

/-- An array, with a comma behind every element but the last; a slice
without elements may be nil, which is written `null`. -/
def jsonArraySize (sizes : List Nat) : Nat :=
  match sizes with
  | [] => 4
  | sizes => 1 + (sizes.map (· + 1)).sum

/-- `{"version":…,"initialized":…,"seen_handles":…,"outbound":…}` and the
newline the encoder ends with. -/
def DiskState.jsonSize (d : DiskState) : Nat :=
  56 + (toString d.version).length + (if d.initialized then 4 else 5)
    + jsonArraySize (d.seenHandles.map jsonStringSize)
    + jsonArraySize (d.outbound.map Outbound.jsonSize)

theorem Outbound.toValid_toValid (item : Outbound) :
    item.toValid.toValid = item.toValid := by
  simp only [Outbound.toValid]
  rw [validUTF8_toValidUTF8, validUTF8_toValidUTF8, validUTF8_toValidUTF8]

theorem DiskState.toValid_toValid (d : DiskState) :
    d.toValid.toValid = d.toValid := by
  have hhandles : toValidUTF8 ∘ toValidUTF8 = toValidUTF8 :=
    funext fun h => validUTF8_toValidUTF8 h
  have hitems : Outbound.toValid ∘ Outbound.toValid = Outbound.toValid :=
    funext Outbound.toValid_toValid
  simp only [DiskState.toValid, List.map_map]
  rw [hhandles, hitems]

/-- The file `saveLocked` leaves. -/
def stateFile (d : DiskState) : StateFile where
  size := d.jsonSize
  regular := true
  perm := 0o600
  document := some ⟨d.toValid, d.toValid_toValid⟩
  trailing := false

-- == saving and loading

def Store.saveLocked (s : Store) (fault : Option SaveFault) :
    Except StoreError StateFile :=
  match fault with
  | some f => .error (.save f)
  | none =>
      if s.data.outbound.all fun item => item.queuedAt.marshals then
        .ok (stateFile s.data)
      else .error (.save .encode)

/-- The seen set from the list, of which invalid and repeated handles are
dropped. -/
def rebuildSeen (d : DiskState) : Store :=
  let r := Roster.empty.enterAll (d.seenHandles.filter validHandle)
  ⟨{ d with seenHandles := r.order }, r.members⟩

def load : Disk → Except StoreError Store
  | .absent => .error .notExist
  | .unreadable => .error .unreadable
  | .file f => do
      check (f.size ≤ maximumLegacyBytes) .fileExceedsBound
      check (f.regular && f.perm &&& 0o077 == 0) .permissionsInvalid
      let d ← require f.document (fun _ => true) .decode
      check (!f.trailing) .trailingData
      check (d.val.version == stateVersion
        && d.val.seenHandles.length ≤ maximumSeenHandles
        && d.val.outbound.length ≤ maximumOutbound) .schemaInvalid
      check (d.val.outbound.all validOutbound) .containsInvalidItem
      pure (rebuildSeen d.val)

@[simp] theorem rebuildSeen_outbound (d : DiskState) :
    (rebuildSeen d).data.outbound = d.outbound := rfl

-- == legacy

/-- A file of the bridge's predecessor. -/
inductive Legacy (α : Type) where
  | absent
  | failing
  | present (a : α)

/-- The seen file: its size and what it decodes to, as an object with the
handles in it and as a plain list of them. -/
structure SeenFile where
  size : Nat
  envelope : Option (List Bytes)
  values : Option (List Bytes)

/-- The rows a scanner found, and whether it stopped with an error. -/
structure Scanned (ρ : Type) where
  rows : List ρ
  failed : Bool

/-- A row of the legacy queue, what it decodes to and when it is read. -/
structure QueueRow where
  line : Bytes
  decoded : Option (JsonString × JsonString)
  now : Stamp

structure LegacyFiles where
  seenFile : Legacy SeenFile
  messageLog : Legacy (Scanned (Option Bytes))
  forwardState : Legacy Bytes
  outboundQueue : Legacy (Scanned QueueRow)

def readBounded {α : Type} (size : α → Nat) :
    Legacy α → Except StoreError (Option α)
  | .absent => .ok none
  | .failing => .error .unreadable
  | .present raw =>
      if maximumLegacyBytes < size raw then .error .legacyExceedsBound
      else .ok (some raw)

def scanRows {ρ : Type} :
    Legacy (Scanned ρ) → Except StoreError (Option (List ρ))
  | .absent => .ok none
  | .failing => .error .unreadable
  | .present file =>
      if file.failed then .error .unreadable else .ok (some file.rows)

/-- The object's handles if the file decodes as one, else the list's. -/
def SeenFile.handles (file : SeenFile) : List Bytes :=
  match file.envelope with
  | some handles => handles
  | none => file.values.getD []

/-- `add`: a window over the last handles. -/
def addLegacy (r : Roster Bytes) (handle : Bytes) : Roster Bytes :=
  if !validHandle handle then r
  else if handle ∈ r.members then r
  else
    let r := r.enter handle
    if maximumSeenHandles < r.order.length then r.evict 1 else r

def hexChar (v : UInt8) : UInt8 := if v < 10 then 0x30 + v else 0x57 + v

def hexEncode (s : Bytes) : Bytes :=
  s.flatMap fun b => [hexChar (b / 16), hexChar (b % 16)]

section Import

variable (sha256 : Bytes → Bytes)

/-- The identifier is `legacy-` and a digest of the row and its index. -/
def legacyItem (index : Nat) (row : QueueRow) : Option Outbound :=
  match row.decoded with
  | none => none
  | some (destination, text) =>
      let digest := sha256 (row.line ++ [UInt8.ofNat index])
      let item : Outbound :=
        { id := [0x6c, 0x65, 0x67, 0x61, 0x63, 0x79, 0x2d]
            ++ hexEncode (digest.take 8)
          destination := destination.val
          text := text.val
          queuedAt := row.now }
      if validOutbound item then some item else none

/-- Rows are taken until the queue is full. -/
def legacyQueue : Nat → List QueueRow → List Outbound → List Outbound
  | _, [], queue => queue
  | index, row :: rows, queue =>
      if queue.length < maximumOutbound then
        legacyQueue (index + 1) rows
          (queue ++ (legacyItem sha256 index row).toList)
      else queue

def importLegacy (paths : LegacyFiles) : Except StoreError DiskState := do
  let seenFile ← readBounded SeenFile.size paths.seenFile
  let messageLog ← scanRows paths.messageLog
  let forwardState ← readBounded List.length paths.forwardState
  let outboundQueue ← scanRows paths.outboundQueue
  let handles := seenFile.toList.flatMap SeenFile.handles
    ++ messageLog.toList.flatMap (List.filterMap id)
    ++ forwardState.toList.map trimSpace
  pure
    { version := stateVersion
      initialized := seenFile.isSome || messageLog.isSome
        || forwardState.isSome || outboundQueue.isSome
      seenHandles := (handles.foldl addLegacy Roster.empty).order
      outbound := legacyQueue sha256 0 (outboundQueue.getD []) [] }

/-- `Open`: the store, whether it was imported, and the file written. -/
def openStore (disk : Disk) (legacy : LegacyFiles)
    (fault : Option SaveFault) :
    Except StoreError (Store × Bool × Option StateFile) :=
  match load disk with
  | .ok s => .ok (s, false, none)
  | .error .notExist => do
      let s := rebuildSeen (← importLegacy sha256 legacy)
      let f ← s.saveLocked fault
      pure (s, true, some f)
  | .error e => .error e

end Import

-- == operations

/-- What an operation returns, the store it leaves and the file it wrote,
if it wrote one. -/
structure Outcome (ρ : Type) where
  result : Except StoreError ρ
  store : Store
  written : Option StateFile

/-- Save a changed store; where that fails, `undo` is what the operation
does to it before it returns the error. -/
def Store.commit {ρ : Type} (s : Store) (fault : Option SaveFault)
    (undo : Store → Store) (r : ρ) : Outcome ρ :=
  match s.saveLocked fault with
  | .ok f => ⟨.ok r, s, some f⟩
  | .error e => ⟨.error e, undo s, none⟩

def Store.isInitialized (s : Store) : Bool := s.data.initialized

def Store.hasSeen (s : Store) (handle : Bytes) : Bool := handle ∈ s.seen

def Store.counts (s : Store) : Nat × Nat :=
  (s.seen.card, s.data.outbound.length)

/-- The flag stays set when the save fails. -/
def Store.setInitialized (s : Store) (fault : Option SaveFault) :
    Outcome Unit :=
  if s.data.initialized then ⟨.ok (), s, none⟩
  else
    let s := { s with data := { s.data with initialized := true } }
    s.commit fault id ()

/-- The list of seen handles and the set beside it. -/
def Store.roster (s : Store) : Roster Bytes := ⟨s.data.seenHandles, s.seen⟩

def Store.setRoster (s : Store) (r : Roster Bytes) : Store :=
  { s with data := { s.data with seenHandles := r.order }, seen := r.members }

/-- The handles that are not in the set are appended, and what then
exceeds the bound is dropped from the front. -/
def Store.marked (s : Store) (handles : List Bytes) : Store :=
  s.setRoster ((s.roster.enterAll handles).trim maximumSeenHandles)

/-- `changed` of the source is that some handle was not in the set. -/
def Store.markSeenMany (s : Store) (handles : List Bytes)
    (fault : Option SaveFault) : Outcome Unit :=
  if handles = [] then ⟨.ok (), s, none⟩
  else if !handles.all validHandle then ⟨.error .invalidHandle, s, none⟩
  else if handles.all fun handle => handle ∈ s.seen then ⟨.ok (), s, none⟩
  else
    let original := s.roster
    (s.marked handles).commit fault (fun s => s.setRoster original) ()

def Store.markSeen (s : Store) (handle : Bytes)
    (fault : Option SaveFault) : Outcome Unit :=
  s.markSeenMany [handle] fault

def Store.setOutbound (s : Store) (queue : List Outbound) : Store :=
  { s with data := { s.data with outbound := queue } }

def Store.addOutbound (s : Store) (item : Outbound)
    (fault : Option SaveFault) : Outcome Unit :=
  if !validOutbound item then ⟨.error .invalidItem, s, none⟩
  else if maximumOutbound ≤ s.data.outbound.length then
    ⟨.error .queueFull, s, none⟩
  else if s.data.outbound.any fun existing => existing.id == item.id then
    ⟨.ok (), s, none⟩
  else
    (s.setOutbound (s.data.outbound ++ [item])).commit fault
      (fun s => s.setOutbound s.data.outbound.dropLast) ()

/-- The item, or none when the queue is empty. -/
def Store.takeOutbound (s : Store) (fault : Option SaveFault) :
    Outcome (Option Outbound) :=
  match s.data.outbound with
  | [] => ⟨.ok none, s, none⟩
  | item :: rest =>
      (s.setOutbound rest).commit fault
        (fun s => s.setOutbound (item :: rest)) (some item)

-- == the machine

/-- A call of an operation that may change the store. -/
inductive StoreOp where
  | setInitialized
  | markSeen (handle : Bytes)
  | markSeenMany (handles : List Bytes)
  | addOutbound (item : Outbound)
  | takeOutbound
  deriving DecidableEq

/-- The operation, without what `takeOutbound` hands out. -/
def Store.exec (s : Store) (op : StoreOp) (fault : Option SaveFault) :
    Outcome Unit :=
  match op with
  | .setInitialized => s.setInitialized fault
  | .markSeen handle => s.markSeen handle fault
  | .markSeenMany handles => s.markSeenMany handles fault
  | .addOutbound item => s.addOutbound item fault
  | .takeOutbound =>
      let o := s.takeOutbound fault
      ⟨o.result.map fun _ => (), o.store, o.written⟩

/-- The file at the path and the store of the process, when it runs. -/
structure Keeper where
  disk : Disk
  store : Option Store

inductive KeeperAct where
  | start (legacy : LegacyFiles) (fault : Option SaveFault)
  | call (op : StoreOp) (fault : Option SaveFault)
  | crash

/-- The item a step is given to queue. -/
def KeeperAct.adds : KeeperAct → Option Outbound
  | .call (.addOutbound item) _ => some item
  | _ => none

/-- A file written, an operation that succeeded, one that failed. -/
inductive KeeperEvent where
  | wrote (f : StateFile)
  | succeeded (op : StoreOp)
  | failed (op : StoreOp) (e : StoreError)
  deriving DecidableEq

def Disk.after (disk : Disk) : Option StateFile → Disk
  | some f => .file f
  | none => disk

def StoreOp.report (op : StoreOp) : Except StoreError Unit → KeeperEvent
  | .ok _ => .succeeded op
  | .error e => .failed op e

/-- One step of the process that keeps the store: it opens it, calls an
operation, or stops at any moment. -/
def keeperStep (sha256 : Bytes → Bytes) (k : Keeper) :
    KeeperAct → Option (Keeper × List KeeperEvent)
  | .start legacy fault =>
      if k.store.isSome then none
      else
        match openStore sha256 k.disk legacy fault with
        | .ok (s, _, written) =>
            some (⟨k.disk.after written, some s⟩,
              written.toList.map .wrote)
        | .error _ => some (k, [])
  | .call op fault =>
      match k.store with
      | none => none
      | some s =>
          let o := s.exec op fault
          some (⟨k.disk.after o.written, some o.store⟩,
            o.written.toList.map .wrote ++ [op.report o.result])
  | .crash => some (⟨k.disk, none⟩, [])

end Callbridge.State
