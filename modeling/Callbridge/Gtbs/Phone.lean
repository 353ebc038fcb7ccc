/-
The phone at the other end of the GTBS session, and what reaches the store
from it.

A call of the phone is told apart by its `id`, which the protocol does not
carry; what the phone sends of it is an index, a state and flags, and the
index is free for another call as soon as the call ends. While the client
is subscribed every change of the list is notified, and nothing is while
it is not.

`runOnce` subscribes, then reads the current list, then handles the
notifications in the order they came. A session that ends takes the
notifications it has not handled along, and leaves the store as it is.
`listed` records which calls the last applied value was about.
-/
import Callbridge.Gtbs.Store

namespace Callbridge.Gtbs

open Lib Protocol

-- == the phone

structure PhoneCall where
  id : Nat
  index : UInt8
  state : UInt8
  flags : UInt8
  deriving DecidableEq

/-- An index, a state and flags the GTBS specification allows. -/
def PhoneCall.valid (c : PhoneCall) : Bool :=
  c.index != 0 && decide (c.state ≤ stateLocallyRemotelyHeld)
    && (c.flags &&& ~~~knownFlags) == 0

/-- The Call State value of a list of calls. -/
def encodeCalls : List PhoneCall → Bytes
  | [] => []
  | c :: rest => c.index :: c.state :: c.flags :: encodeCalls rest

inductive SessionPhase where
  | down
  | subscribed
  | up
  deriving DecidableEq

structure Phone where
  calls : List PhoneCall
  nextId : Nat
  session : SessionPhase
  queue : List (List PhoneCall)
  store : Store
  listed : List PhoneCall
  deriving DecidableEq

/-- No call, no session, and a store seeded at this clock reading. -/
def newPhone (now : UInt64) : Phone :=
  ⟨[], 0, .down, [], newStore now, []⟩

/-- The list changes, and is notified if anybody listens. -/
def Phone.changeTo (s : Phone) (calls : List PhoneCall) : Phone :=
  { s with
    calls := calls
    queue := if s.session = .down then s.queue else s.queue ++ [calls] }

/-- A value about these calls is applied to the store. -/
def Phone.apply (s : Phone) (calls : List PhoneCall) : Phone :=
  match s.store.apply (encodeCalls calls) with
  | (.ok _, store) => { s with store := store, listed := calls }
  | (.error _, store) => { s with store := store }

-- == steps

inductive PhoneAct where
  | start (index state flags : UInt8)
  | change (id : Nat) (state : UInt8)
  | finish (id : Nat)
  | subscribe
  | read
  | deliver
  | lose
  | claim (index : UInt8) (token : UInt64)
  deriving DecidableEq

/-- The call goes to another state. -/
def PhoneCall.setState (id : Nat) (state : UInt8) (c : PhoneCall) :
    PhoneCall :=
  if c.id = id then { c with state := state } else c

def phoneStep (s : Phone) : PhoneAct → Option (Phone × List Unit)
  | .start index state flags =>
      if (PhoneCall.mk s.nextId index state flags).valid
          && s.calls.all (fun c => c.index != index) then
        some ({ s.changeTo (s.calls ++ [⟨s.nextId, index, state, flags⟩])
          with nextId := s.nextId + 1 }, [])
      else none
  | .change id state =>
      if state ≤ stateLocallyRemotelyHeld then
        some (s.changeTo (s.calls.map (PhoneCall.setState id state)), [])
      else none
  | .finish id =>
      some (s.changeTo (s.calls.filter fun c => c.id != id), [])
  | .subscribe =>
      if s.session = .down then
        some ({ s with session := .subscribed, queue := [] }, [])
      else none
  | .read =>
      if s.session = .subscribed then
        some ({ s.apply s.calls with session := .up }, [])
      else none
  | .deliver =>
      match s.session, s.queue with
      | .up, calls :: rest => some ({ s.apply calls with queue := rest }, [])
      | _, _ => none
  | .lose =>
      if s.session = .down then none
      else some ({ s with session := .down, queue := [] }, [])
  | .claim index token =>
      some ({ s with store := s.store.claimCall index token }, [])

end Callbridge.Gtbs
