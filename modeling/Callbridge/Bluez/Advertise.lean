/-
The targeted advertisement: the event loop of `runBlueZOnce`, the hold
that is laid on it from another goroutine, and BlueZ and the LE link
around it (internal/bluez/broker.go).

The loop goroutine is `loopStep`. It stops wherever another goroutine,
BlueZ or the link can get in between: before and after every D-Bus call,
and before it takes the mutex to look at the hold. `HoldAdvertisement` is
its locked update followed, when it releases the hold, by a send that may
come any time later (`sending`). `rearmRequest` is a channel with one
slot, and a send to a full slot is dropped.

Of the D-Bus signals only the two are kept that move this loop, a change
of the bearer's Connected property and the loss of the name org.bluez; the
others are `handleSignal`'s. A closed connection takes what it registered
along, so BlueZ holds no advertisement once `runBlueZOnce` has returned.
-/
import Callbridge.Lib.Trace

namespace Callbridge.Bluez

open Lib

-- == the loop

/-- What makes the loop call `setAdvertisement`. -/
inductive Cause where
  | startup
  | connected
  | disconnected
  | rearm
  deriving DecidableEq

/-- The argument of the call: only an LE connect takes the advertisement
down. -/
def Cause.enable : Cause → Bool
  | .connected => false
  | _ => true

/-- Why `runBlueZOnce` returns. -/
inductive LoopExit where
  | contextDone
  | handoffStopped
  | busDisconnected
  | signalsClosed
  | nameDisappeared
  | readInitial
  | readRearm
  | setFailed (cause : Cause)
  deriving DecidableEq

/-- The text of the error, up to the D-Bus error it wraps. -/
def LoopExit.text : LoopExit → String
  | .contextDone => ""
  | .handoffStopped => "LE Audio handoff server stopped"
  | .busDisconnected => "BlueZ system bus disconnected"
  | .signalsClosed => "BlueZ signal channel closed"
  | .nameDisappeared => "BlueZ bus name disappeared"
  | .readInitial => "read initial LE bearer state"
  | .readRearm => "read LE bearer state for rearm"
  | .setFailed .startup => "register targeted LE Audio advertisement"
  | .setFailed .connected => "stop targeted advertisement after LE connect"
  | .setFailed .disconnected =>
      "rearm targeted advertisement after LE disconnect"
  | .setFailed .rearm => "rearm targeted advertisement after hold"

/-- `Run` calls `runBlueZOnce` again unless the process is going down. -/
def LoopExit.final : LoopExit → Bool
  | .contextDone => true
  | .handoffStopped => true
  | _ => false

/-- Does the loop's select leave it this way? -/
def LoopExit.selected : LoopExit → Bool
  | .contextDone => true
  | .handoffStopped => true
  | .busDisconnected => true
  | .signalsClosed => true
  | _ => false

/-- Where the loop goroutine is. -/
inductive LoopPc where
  /-- Not in `runBlueZOnce`, or not yet subscribed to its signals. -/
  | stopped
  | finished
  /-- About to read the initial LE bearer state. -/
  | startRead
  /-- In `resetLEBearer`. -/
  | startReset
  | waiting
  /-- Took a rearm request, about to read the bearer state. -/
  | rearmRead
  /-- Read it, about to look at the hold. -/
  | rearmCheck (connected : Bool)
  /-- Saw an LE disconnect, about to look at the hold. -/
  | disconnectCheck
  /-- About to call `setAdvertisement`. -/
  | set (cause : Cause)
  /-- BlueZ has answered, the flags are not yet set. -/
  | record (cause : Cause)
  /-- Returning, the deferred calls not yet run. -/
  | leaving (e : LoopExit)
  deriving DecidableEq

inductive Signal where
  | bearer (connected : Bool)
  | nameLost
  deriving DecidableEq

structure Adv where
  pc : LoopPc
  /-- The loop's own `advertisementRegistered`. -/
  registered : Bool
  signals : List Signal
  advertisementHold : Bool
  rearmRequest : Bool
  /-- Calls of `HoldAdvertisement` between their update and their send. -/
  sending : Nat
  /-- `Broker.advertising`, and `Broker.discoverable` with it. -/
  advertising : Bool
  /-- The bearer's Connected property. -/
  connected : Bool
  /-- Does BlueZ hold the advertisement? -/
  advertised : Bool
  deriving DecidableEq

/-- The broker before `Run`, with the LE link up or down. -/
def newAdv (connected : Bool) : Adv :=
  ⟨.stopped, false, [], false, false, 0, false, connected, false⟩

inductive AdvEvent where
  /-- RegisterAdvertisement or UnregisterAdvertisement is invoked. -/
  | invoked (enable : Bool)
  /-- `handleLEBearerDisconnected` is called. -/
  | bearerDisconnected
  | returned (e : LoopExit)
  deriving DecidableEq

def Adv.goto (s : Adv) (pc : LoopPc) : Adv := { s with pc := pc }

/-- `setAdvertisement` up to BlueZ's answer. -/
def Adv.setAdvertisement (s : Adv) (cause : Cause) (ok : Bool) :
    Adv × List AdvEvent :=
  if cause.enable = s.registered then (s.goto .waiting, [])
  else if ok then
    ({ s with pc := .record cause, advertised := cause.enable },
      [.invoked cause.enable])
  else (s.goto (.leaving (.setFailed cause)), [.invoked cause.enable])

/-- The deferred calls of `runBlueZOnce`, in reverse order. -/
def Adv.leave (s : Adv) (e : LoopExit) : Adv × List AdvEvent :=
  ({ s with
    pc := if e.final then .finished else .stopped
    registered := false
    signals := []
    advertising := false
    advertised := false },
    (if s.registered then [.invoked false] else []) ++ [.returned e])

/-- The next statement of the loop goroutine outside its select; `ok` is
the outcome of the D-Bus call it makes, if it makes one. -/
def Adv.advance (s : Adv) (ok : Bool) : Option (Adv × List AdvEvent) :=
  match s.pc with
  | .startRead =>
      if !ok then some (s.goto (.leaving .readInitial), [])
      else if s.connected then some (s.goto .startReset, [])
      else some (s.goto (.set .startup), [])
  | .startReset =>
      -- it polls until the link is down; a reset that fails is skipped
      if !ok then some (s.goto .waiting, [])
      else if s.connected then none
      else some (s.goto (.set .startup), [])
  | .rearmRead =>
      if !ok then some (s.goto (.leaving .readRearm), [])
      else some (s.goto (.rearmCheck s.connected), [])
  | .rearmCheck connected =>
      if connected || s.advertisementHold then some (s.goto .waiting, [])
      else some (s.goto (.set .rearm), [])
  | .disconnectCheck =>
      if s.advertisementHold then some (s.goto .waiting, [])
      else some (s.goto (.set .disconnected), [])
  | .set cause => some (s.setAdvertisement cause ok)
  | .record cause =>
      some ({ s with
        pc := .waiting
        registered := cause.enable
        advertising := cause.enable }, [])
  | .leaving e => some (s.leave e)
  | _ => none

/-- What the loop does with a signal. -/
def Adv.handle (s : Adv) : Signal → Adv × List AdvEvent
  | .nameLost => (s.goto (.leaving .nameDisappeared), [])
  | .bearer true => (s.goto (.set .connected), [])
  | .bearer false => (s.goto .disconnectCheck, [.bearerDisconnected])

inductive LoopAct where
  | start
  | advance (ok : Bool)
  | takeRearm
  | takeSignal
  deriving DecidableEq

/-- The loop goroutine: `Run`, `runBlueZOnce` and the two cases of its
select that keep it going. -/
def loopStep (s : Adv) : LoopAct → Option (Adv × List AdvEvent)
  | .start =>
      if s.pc = .stopped then
        some ({ s with pc := .startRead, signals := [] }, [])
      else none
  | .advance ok => s.advance ok
  | .takeRearm =>
      if s.pc = .waiting ∧ s.rearmRequest = true then
        some ({ s with pc := .rearmRead, rearmRequest := false }, [])
      else none
  | .takeSignal =>
      match s.pc, s.signals with
      | .waiting, x :: rest => some (Adv.handle { s with signals := rest } x)
      | _, _ => none

-- == what goes on around it

/-- The locked update of `HoldAdvertisement`. -/
def Adv.holdAdvertisement (s : Adv) (hold : Bool) : Adv :=
  { s with
    advertisementHold := hold
    sending :=
      if s.advertisementHold ≠ hold ∧ hold = false then s.sending + 1
      else s.sending }

/-- The send at the end of a `HoldAdvertisement` that releases the hold. -/
def Adv.sendRearm (s : Adv) : Adv :=
  { s with sending := s.sending - 1, rearmRequest := true }

/-- Is the loop's signal channel in place? -/
def Adv.subscribed (s : Adv) : Bool :=
  s.pc ≠ .stopped && s.pc ≠ .finished

def Adv.emit (s : Adv) (x : Signal) : Adv :=
  if s.subscribed then { s with signals := s.signals ++ [x] } else s

/-- The LE link goes up or down. -/
def Adv.setLink (s : Adv) (connected : Bool) : Adv :=
  Adv.emit { s with connected := connected } (.bearer connected)

inductive AdvAct where
  | loop (act : LoopAct)
  /-- The select's other cases: the process, the bus or the handoff server
  goes down. -/
  | quit (e : LoopExit)
  | hold (on : Bool)
  | send
  | link (connected : Bool)
  /-- BlueZ drops the advertisement by itself and calls `Release`. -/
  | release
  /-- bluetoothd leaves the bus. -/
  | bluezGone
  deriving DecidableEq

def advStep (s : Adv) : AdvAct → Option (Adv × List AdvEvent)
  | .loop act => loopStep s act
  | .quit e =>
      if s.pc = .waiting ∧ e.selected = true then
        some (s.goto (.leaving e), [])
      else none
  | .hold on => some (s.holdAdvertisement on, [])
  | .send => if 0 < s.sending then some (s.sendRearm, []) else none
  | .link connected =>
      if s.connected = connected then none
      else some (s.setLink connected, [])
  | .release =>
      if s.advertised then
        some ({ s with advertised := false, advertising := false }, [])
      else none
  | .bluezGone =>
      some (Adv.emit { s with connected := false, advertised := false }
        .nameLost, [])

end Callbridge.Bluez
