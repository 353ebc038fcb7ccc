/-
The GTBS client (internal/gtbs/client.go), as far as the control socket
and the notifications touch it: the session it holds, the commands it
waits on a result for, and `Command`.

`Command` is cut where it takes and gives up a lock: the checks against
the store, the look at the session, the entry in `pending`, the write, and
the removal of the entry after a write that failed. `runOnce` appears as
the regions it changes the client with: a session is opened, declared
ready, and closed again.

Of the inventory only the Call Control Point matters here, and of the
connection only whether there is one: `runOnce` holds at most one session,
so the comparison its deferred function makes always succeeds.
-/
import Callbridge.Gtbs.Store

namespace Callbridge.Gtbs

open Lib Protocol

-- == records

structure Client where
  device : Bytes
  conn : Bool
  control : Bool
  ready : Bool
  pending : GoMap (UInt8 × UInt8) UInt64
  pendingOriginate : Bool
  deriving DecidableEq

/-- A client of a device, its address normalised, with no session. -/
def newClient (device : Bytes) : Client :=
  ⟨normalizedDevice device, false, false, false, ∅, false⟩

inductive CommandError where
  | unavailable
  | stale
  | invalid
  | writeFailed
  deriving DecidableEq

def CommandError.text : CommandError → String
  | .unavailable => "GTBS control unavailable"
  | .stale => "stale GTBS call command"
  | .invalid => "invalid GTBS call command"
  | .writeFailed => "write GTBS Call Control Point"

inductive ResultError where
  | invalid
  | unexpectedOriginate
  | unexpectedIndexed
  deriving DecidableEq

def ResultError.text : ResultError → String
  | .invalid => "invalid GTBS Call Control Point result"
  | .unexpectedOriginate => "unexpected GTBS originate result"
  | .unexpectedIndexed => "unexpected GTBS indexed result"

-- == session

/-- A session takes the client over, with nothing pending. -/
def Client.opened (c : Client) (control : Bool) : Client :=
  { c with
    conn := true
    control := control
    pending := ∅
    pendingOriginate := false }

/-- The session's deferred function. -/
def Client.closed (c : Client) : Client :=
  { c with
    conn := false
    control := false
    pending := ∅
    pendingOriginate := false }

def Client.setReady (c : Client) (ready : Bool) : Client :=
  { c with ready := ready }

-- == command

/-- The key a command waits for its result under. -/
def commandKey (m : Message) : UInt8 × UInt8 := (m.code, m.index)

/-- The checks `Command` makes first, against the store. -/
def Client.refused (c : Client) (store : Store) (m : Message) :
    Option CommandError :=
  if m.type ≠ typeCommand ∨ normalizedDevice m.device ≠ c.device then
    some .invalid
  else if m.code = opcodeOriginate then
    if validURI m.payload then none else some .invalid
  else if store.validateIndexedCommand m.index m.token m.code then none
  else some .stale

/-- Is there a session to write to? -/
def Client.available (c : Client) : Bool := c.conn && c.ready && c.control

/-- The entry in `pending`, refused to a second originate. -/
def Client.register (c : Client) (m : Message) : Option Client :=
  if m.code = opcodeOriginate then
    if c.pendingOriginate then none
    else some { c with pendingOriginate := true }
  else some { c with pending := c.pending.insert (commandKey m) m.token }

/-- What a write that failed takes back. -/
def Client.unregister (c : Client) (m : Message) : Client :=
  if m.code = opcodeOriginate then { c with pendingOriginate := false }
  else if (c.pending.lookup (commandKey m)).getD 0 = m.token then
    { c with pending := c.pending.erase (commandKey m) }
  else c

/-- The value written to the Call Control Point. -/
def controlValue (m : Message) : Bytes :=
  if m.code = opcodeOriginate then m.code :: m.payload
  else [m.code, m.index]

-- == result

/-- A Call Control Point notification: the result passed on with the token
of the command it answers, and the client. -/
def Client.handleControlResult (c : Client) (store : Store) :
    Bytes → Except ResultError (UInt8 × UInt8 × UInt8 × UInt64) × Client
  | [opcode, index, result] =>
      if opcode > opcodeJoin ∨ (opcode ≠ opcodeOriginate ∧ index = 0)
          ∨ validResult result = false then
        (.error .invalid, c)
      else if opcode = opcodeOriginate then
        if c.pendingOriginate then
          (.ok (opcode, index, result, (store.tokenForIndex index).1),
            { c with pendingOriginate := false })
        else
          (.error .unexpectedOriginate, { c with pendingOriginate := false })
      else if (c.pending.lookup (opcode, index)).getD 0 = 0 then
        (.error .unexpectedIndexed,
          { c with pending := c.pending.erase (opcode, index) })
      else
        (.ok (opcode, index, result,
            (c.pending.lookup (opcode, index)).getD 0),
          { c with pending := c.pending.erase (opcode, index) })
  | _ => (.error .invalid, c)

end Callbridge.Gtbs
