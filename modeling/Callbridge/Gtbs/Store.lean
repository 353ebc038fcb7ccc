/-
The call store of the GTBS client (internal/gtbs/state.go): what one Call
State notification parses to, how it rewrites the maps `calls`, `claimed`
and `identities`, and the predicates the rest of the program reads off
them.

Every method returns its result paired with the store it leaves, also when
it fails. Two liberties are taken with the source text and none with its
meaning. A `range` over a map takes the visiting order as an argument
where the answer can depend on it (`handsetAnswered`), and reads the
entries in ascending index order where it cannot. The loop of `nextToken`
is `Lib.skip`, which carries its own proof that it returns.
-/
import Callbridge.Lib.GoMap
import Callbridge.Lib.SkipCounter
import Callbridge.Protocol.Message

namespace Callbridge.Gtbs

open Lib Protocol

-- == constants

def stateIncoming : UInt8 := 0x00
def stateDialing : UInt8 := 0x01
def stateAlerting : UInt8 := 0x02
def stateActive : UInt8 := 0x03
def stateLocallyHeld : UInt8 := 0x04
def stateRemotelyHeld : UInt8 := 0x05
def stateLocallyRemotelyHeld : UInt8 := 0x06
def callFlagOutgoing : UInt8 := 0x01
def callFlagWithheldByServer : UInt8 := 0x02
def callFlagWithheldByNetwork : UInt8 := 0x04

/-- The flag bits a Call State entry may carry. -/
def knownFlags : UInt8 :=
  callFlagOutgoing ||| callFlagWithheldByServer ||| callFlagWithheldByNetwork

-- == records

structure Call where
  index : UInt8
  state : UInt8
  flags : UInt8
  token : UInt64
  identity : Identity
  deriving DecidableEq

structure Snapshot where
  sequence : UInt64
  calls : List Call
  deriving DecidableEq

structure Store where
  calls : GoMap UInt8 Call
  claimed : GoMap UInt8 UInt64
  identities : GoMap UInt8 Identity
  sequence : UInt64
  seed : UInt64
  tokens : UInt64
  deriving DecidableEq

inductive StoreError where
  | callStateLength
  | callStateEntry
  | noCallIdentity
  | identityUnchanged
  deriving DecidableEq

def StoreError.text : StoreError → String
  | .callStateLength => "invalid GTBS Call State length"
  | .callStateEntry => "invalid GTBS Call State entry"
  | .noCallIdentity => "no GTBS call identity"
  | .identityUnchanged => "GTBS call identity unchanged"

/-- A new store: `now` is the clock reading the seed is taken from. -/
def newStore (now : UInt64) : Store :=
  let seed := if now = 0 then 1 else now
  ⟨∅, ∅, ∅, seed, seed, seed⟩

-- == parsing

/-- One triple of the value, before it has a token. -/
def rawCall (index state flags : UInt8) : Call :=
  ⟨index, state, flags, 0, Identity.zero⟩

/-- Does the parser refuse this entry, having seen these indexes? -/
def entryRefused (seen : List UInt8) (call : Call) : Bool :=
  call.index == 0 || call.state > stateLocallyRemotelyHeld
    || (call.flags &&& ~~~knownFlags) != 0 || seen.contains call.index

/-- The parser's loop over the triples, with the indexes seen so far. -/
def parseEntries (seen : List UInt8) : Bytes → Except StoreError (List Call)
  | index :: state :: flags :: rest =>
      if entryRefused seen (rawCall index state flags) then
        .error .callStateEntry
      else
        match parseEntries (index :: seen) rest with
        | .error e => .error e
        | .ok calls => .ok (rawCall index state flags :: calls)
  | _ => .ok []

/-- `sort.Slice` by index. -/
def sortCalls (calls : List Call) : List Call :=
  calls.insertionSort fun a b => a.index ≤ b.index

def parseCallState (value : Bytes) : Except StoreError (List Call) :=
  if value.length % 3 ≠ 0 ∨ value.length > 3 * 255 then
    .error .callStateLength
  else
    match parseEntries [] value with
    | .error e => .error e
    | .ok calls => .ok (sortCalls calls)

/-- The `[call index][value]` shape of GTBS Incoming Call. -/
def parseCallIdentifier : Bytes → Except StoreError (UInt8 × Bytes)
  | [] => .error .noCallIdentity
  | index :: raw =>
      if index = 0 then .error .noCallIdentity else .ok (index, raw)

/-- A character a dialable string may hold. -/
def dialable (c : UInt8) : Bool :=
  (0x30 ≤ c && c ≤ 0x39) || c == 0x2b || c == 0x2a || c == 0x23 || c == 0x2d

/-- The part of a caller URI worth showing, or nothing. -/
def stripURIScheme (uri : Bytes) : Bytes :=
  let trimmed := trimSpace (beforeAny [0x3b, 0x3f]
    (afterByte 0x3a (trimSpace uri)))
  if trimmed = [] ∨ trimmed.length > identityURIMax then []
  else if trimmed.all dialable then trimmed
  else []

-- == tokens

/-- `nextToken`: the next counter value that is neither zero nor the
seed. -/
def Store.nextToken (s : Store) : UInt64 × Store :=
  (skip s.seed s.tokens, { s with tokens := skip s.seed s.tokens })

/-- The body of `Apply`'s loop: an index that is already live keeps its
token, any other gets the next one. -/
def assignToken (acc : GoMap UInt8 Call × Store) (call : Call) :
    GoMap UInt8 Call × Store :=
  match acc.2.calls.lookup call.index with
  | some prior =>
      (acc.1.insert call.index { call with token := prior.token }, acc.2)
  | none =>
      (acc.1.insert call.index { call with token := acc.2.nextToken.1 },
        acc.2.nextToken.2)

-- == snapshots

/-- The identity map read at an index, Go's zero value when absent. -/
def identityAt (identities : GoMap UInt8 Identity) (index : UInt8) :
    Identity :=
  (identities.lookup index).getD Identity.zero

def snapshotLocked (sequence : UInt64) (calls : GoMap UInt8 Call)
    (identities : GoMap UInt8 Identity) : Snapshot :=
  ⟨sequence, calls.sorted.map fun e =>
    { e.2 with identity := identityAt identities e.2.index }⟩

def Store.snapshot (s : Store) : Snapshot :=
  snapshotLocked s.sequence s.calls s.identities

/-- `sequence++`, stepping over zero. -/
def bumpSequence (sequence : UInt64) : UInt64 :=
  if sequence + 1 = 0 then 1 else sequence + 1

-- == operations

/-- Does a claim still name the call at its index? -/
def claimStands (calls : GoMap UInt8 Call) (index : UInt8)
    (token : UInt64) : Bool :=
  match calls.lookup index with
  | some call => call.token == token
  | none => false

/-- What a parsed Call State value does to the store. -/
def Store.replaceCalls (s : Store) (parsed : List Call) : Store :=
  let next := parsed.foldl assignToken (∅, s)
  { next.2 with
    calls := next.1
    claimed := s.claimed.filter (claimStands next.1)
    identities := s.identities.filter fun index _ =>
      (next.1.lookup index).isSome
    sequence := bumpSequence s.sequence }

def Store.apply (s : Store) (value : Bytes) :
    Except StoreError Snapshot × Store :=
  match parseCallState value with
  | .error e => (.error e, s)
  | .ok parsed =>
      (.ok (s.replaceCalls parsed).snapshot, s.replaceCalls parsed)

/-- `setIdentityLocked`: whether anything changed, and the store. -/
def Store.setIdentityLocked (s : Store) (index : UInt8)
    (identity : Identity) : Bool × Store :=
  if identity.uri = [] ∧ identity.name = [] then
    if s.identities.lookup index = none then (false, s)
    else (true, { s with
      identities := s.identities.erase index
      sequence := bumpSequence s.sequence })
  else if s.identities.lookup index = some identity then (false, s)
  else (true, { s with
    identities := s.identities.insert index identity
    sequence := bumpSequence s.sequence })

def Store.applyIncomingCall (s : Store) (value : Bytes) :
    Except StoreError Unit × Store :=
  match parseCallIdentifier value with
  | .error e => (.error e, s)
  | .ok (index, raw) =>
      match s.setIdentityLocked index
        ⟨stripURIScheme raw, (identityAt s.identities index).name⟩ with
      | (true, s') => (.ok (), s')
      | (false, s') => (.error .identityUnchanged, s')

def Store.claimCall (s : Store) (index : UInt8) (token : UInt64) : Store :=
  if token = 0 then s
  else
    match s.calls.lookup index with
    | some call =>
        if call.token = token then
          { s with claimed := s.claimed.insert index token }
        else s
    | none => s

-- == predicates

/-- The claim map read at an index, zero when absent. -/
def Store.claimAt (s : Store) (index : UInt8) : UInt64 :=
  (s.claimed.lookup index).getD 0

/-- Did this side originate the call? -/
def Call.outgoing (call : Call) : Bool :=
  (call.flags &&& callFlagOutgoing) != 0

/-- A call the phone answered by itself: it has left Incoming, this side
did not originate it and has not claimed it. -/
def Store.handsetCall (s : Store) (call : Call) : Bool :=
  !(call.token == 0 || call.outgoing || call.state == stateIncoming)
    && s.claimAt call.index != call.token

/-- The token of the first handset-answered call in the order the map is
visited in, or zero. -/
def Store.handsetAnswered (s : Store) (order : List (UInt8 × Call)) :
    UInt64 :=
  match order.find? fun e => s.handsetCall e.2 with
  | some e => e.2.token
  | none => 0

def Store.currentCallToken (s : Store) : UInt64 × Bool :=
  if s.calls.len ≠ 1 then (0, false)
  else
    match s.calls.sorted with
    | [] => (0, false)
    | (_, call) :: _ =>
        if call.token = 0 then (0, false)
        else if !call.outgoing && call.state != stateIncoming
            && s.claimAt call.index != call.token then (0, false)
        else (call.token, true)

def Store.validateIndexedCommand (s : Store) (index : UInt8)
    (token : UInt64) (opcode : UInt8) : Bool :=
  match s.calls.lookup index with
  | none => false
  | some call =>
      if token = 0 ∨ call.token ≠ token then false
      else if opcode = opcodeAccept then call.state == stateIncoming
      else if opcode = opcodeTerminate then true
      else if opcode = opcodeLocalHold then
        call.state == stateIncoming || call.state == stateActive
          || call.state == stateRemotelyHeld
      else if opcode = opcodeLocalRetrieve then
        call.state == stateLocallyHeld
          || call.state == stateLocallyRemotelyHeld
      else false

def Store.tokenForIndex (s : Store) (index : UInt8) : UInt64 × Bool :=
  match s.calls.lookup index with
  | some call => (call.token, call.token != 0)
  | none => (0, false)

-- == runs

/-- One call of a mutating store method. -/
inductive StoreOp where
  | apply (value : Bytes)
  | applyIncomingCall (value : Bytes)
  | claimCall (index : UInt8) (token : UInt64)
  deriving DecidableEq

/-- What one method call does to the store. -/
def Store.exec (s : Store) : StoreOp → Store
  | .apply value => (s.apply value).2
  | .applyIncomingCall value => (s.applyIncomingCall value).2
  | .claimCall index token => s.claimCall index token

/-- The store as a machine: every method may be called in every state. -/
def storeStep (s : Store) (op : StoreOp) : Option (Store × List Unit) :=
  some (s.exec op, [])

/-- How many tokens a method call issues: one for every index of the
value that is not live. -/
def Store.tokensIssued (s : Store) : StoreOp → Nat
  | .apply value =>
      match parseCallState value with
      | .ok parsed =>
          parsed.countP fun call => (s.calls.lookup call.index).isNone
      | .error _ => 0
  | _ => 0

end Callbridge.Gtbs
