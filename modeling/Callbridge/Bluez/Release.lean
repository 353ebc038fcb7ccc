/-
Giving transports back to BlueZ (internal/bluez/broker.go):
`releaseMediaTransport`, `releaseTransportPaths` and
`fallbackTransportOwner`.

What BlueZ answers is not the program's to decide. The invoker is a
function of how often it has been called and of the path, and the answer
of the fallback is an argument; an `error` is of any type, and nil is
`none`. The calls are recorded next to the broker, whose counters move by
the regions of `Bluez.Session`. The sleep between two attempts and the log
lines are left out.
-/
import Callbridge.Bluez.Session

namespace Callbridge.Bluez

open Lib

variable {ε : Type}

-- == one release

/-- A release under way: the broker, and what was called with what
answer. -/
structure Releasing (ε : Type) where
  broker : Broker
  invoked : List (ObjectPath × Option ε)
  fellBack : List (Option ε)

/-- The answers of the invoker, by the number of the call. -/
abbrev Invoker (ε : Type) := Nat → ObjectPath → Option ε

def releaseMediaTransport (invoker : Invoker ε) (st : Releasing ε)
    (path : ObjectPath) : Option ε × Releasing ε :=
  let err := invoker st.invoked.length path
  (err, { st with
    broker := (st.broker.statistic .releaseAttempt).statistic
      (.releaseOutcome err.isNone)
    invoked := st.invoked ++ [(path, err)] })

def fallbackTransportOwner (fallback : Option ε) (st : Releasing ε) :
    Option ε × Releasing ε :=
  (fallback, { st with
    broker := st.broker.statistic .releaseFallback
    fellBack := st.fellBack ++ [fallback] })

-- == the loops

def transportReleaseRetries : Nat := 3

/-- The variables of the inner loop. -/
structure Attempt (ε : Type) where
  state : Releasing ε
  succeeded : Finset ObjectPath
  allReleased : Bool

/-- The body of the inner loop. -/
def releasePath (invoker : Invoker ε) (acc : Attempt ε)
    (path : ObjectPath) : Attempt ε :=
  if path ∈ acc.succeeded then acc
  else
    match releaseMediaTransport invoker acc.state path with
    | (some _, state) => { acc with state := state, allReleased := false }
    | (none, state) =>
        { acc with state := state, succeeded := insert path acc.succeeded }

/-- The outer loop, with the attempts that are left. -/
def releaseAttempts (invoker : Invoker ε) (fallback : Option ε)
    (paths : List ObjectPath) :
    Nat → Finset ObjectPath → Releasing ε → Option ε × Releasing ε
  | 0, _, st => fallbackTransportOwner fallback st
  | left + 1, succeeded, st =>
      let acc := paths.foldl (releasePath invoker) ⟨st, succeeded, true⟩
      if acc.allReleased then (none, acc.state)
      else releaseAttempts invoker fallback paths left acc.succeeded
        acc.state

def releaseTransportPaths (invoker : Invoker ε) (fallback : Option ε)
    (b : Broker) (paths : List ObjectPath) : Option ε × Releasing ε :=
  releaseAttempts invoker fallback paths transportReleaseRetries ∅
    ⟨b, [], []⟩

end Callbridge.Bluez
