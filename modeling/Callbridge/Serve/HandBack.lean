/-
Handing a call back to the phone: what `runServe` composes out of the
phone, the GTBS session, the Snapshot callback (cmd/le-call-go/main.go)
and the broker's advertisement loop.

The phone brings the LE link up only in answer to the advertisement; it
goes down when the phone leaves, when the loop resets it at startup, or
when `DropLEBearer` disconnects it. A session is started on a link that is
up. When the link goes the session has the notifications it received still
in its queue, the Connected signal behind them (`cut`): it handles those,
hears of no later change, and ends.

The callback runs in the session's goroutine, so the next notification
waits for it, while the loop, a claim from the control socket and the
goroutine that drops the link come in between its steps. Left out are the
ways the process, the bus or bluetoothd go down (`AdvAct.quit`,
`AdvAct.bluezGone`) and an advertisement that BlueZ drops by itself
(`AdvAct.release`). The values the phone sends always parse.
-/
import Callbridge.Bluez.Advertise
import Callbridge.Gtbs.Phone

namespace Callbridge.Serve

open Lib Protocol Gtbs Bluez

-- == the state

/-- Where the Snapshot callback is. -/
inductive Callback where
  | idle
  /-- `emitSnapshot` has called it. -/
  | emitted
  /-- `HandsetAnswered` has returned. -/
  | answered (token : UInt64)
  /-- `HoldAdvertisement` has made its update. -/
  | held (token : UInt64)
  deriving DecidableEq

structure HandBack where
  phone : Phone
  cut : Bool
  callback : Callback
  droppedForToken : UInt64
  /-- Calls of `DropLEBearer` that are under way. -/
  drops : Nat
  adv : Adv
  deriving DecidableEq

/-- The process starts with the link up or down. -/
def newHandBack (now : UInt64) (connected : Bool) : HandBack :=
  ⟨newPhone now, false, .idle, 0, 0, newAdv connected⟩

-- == its parts

/-- Something the phone does with its calls. -/
def isCallChange : PhoneAct → Bool
  | .start _ _ _ => true
  | .change _ _ => true
  | .finish _ => true
  | _ => false

/-- The phone, for a change of its calls: once the link is gone nobody
listens. -/
def HandBack.audience (s : HandBack) : Phone :=
  if s.cut then { s.phone with session := .down } else s.phone

/-- May the client's goroutine take this step? -/
def HandBack.allows (s : HandBack) : PhoneAct → Bool
  | .subscribe => s.adv.connected
  | .read => !s.cut
  | .deliver => s.callback = .idle
  | .lose =>
      -- before it is up a session ends on any failed call
      s.phone.session = .subscribed
        || (s.cut && s.callback = .idle && s.phone.queue = [])
  | _ => false

/-- The client's goroutine has taken the step. -/
def HandBack.session (s : HandBack) (phone : Phone) :
    PhoneAct → HandBack
  | .subscribe => { s with phone := phone, cut := false }
  | .lose => { s with phone := phone, cut := false }
  | _ => { s with phone := phone, callback := .emitted }

/-- A caller identity that is new is followed by the callback. -/
def HandBack.identity (s : HandBack) (value : Bytes) : HandBack :=
  match s.phone.store.applyIncomingCall value with
  | (.ok _, store) =>
      { s with
        phone := { s.phone with store := store }
        callback := .emitted }
  | (.error _, store) => { s with phone := { s.phone with store := store } }

/-- The end of the callback: one drop for each token. -/
def HandBack.dropOnce (s : HandBack) (token : UInt64) : HandBack :=
  if token = 0 then { s with callback := .idle, droppedForToken := 0 }
  else if token ≠ s.droppedForToken then
    { s with
      callback := .idle
      droppedForToken := token
      drops := s.drops + 1 }
  else { s with callback := .idle }

/-- The link goes down, with the Connected signal behind whatever the
session has received. -/
def HandBack.loseLink (s : HandBack) : HandBack :=
  { s with
    adv := s.adv.setLink false
    cut := s.cut || s.phone.session ≠ .down }

def HandBack.withAdv (s : HandBack) (adv : Adv) : HandBack :=
  { s with adv := adv }

-- == steps

inductive HandBackAct where
  | calls (act : PhoneAct)
  | session (act : PhoneAct)
  | identity (value : Bytes)
  | claim (index : UInt8) (token : UInt64)
  | callback (order : List (UInt8 × Call))
  | send
  | drop (ok : Bool)
  | linkUp
  | linkDown
  | loop (act : LoopAct)
  deriving DecidableEq

/-- The next statement of the callback. -/
def HandBack.callbackStep (s : HandBack) (order : List (UInt8 × Call)) :
    Option HandBack :=
  match s.callback with
  | .idle => none
  | .emitted =>
      if s.phone.store.calls.Order order then
        some { s with
          callback := .answered (s.phone.store.handsetAnswered order) }
      else none
  | .answered token =>
      some { s with
        adv := s.adv.holdAdvertisement (token != 0)
        callback := .held token }
  | .held token =>
      if s.adv.sending = 0 then some (s.dropOnce token) else none

def handBackStep (s : HandBack) :
    HandBackAct → Option (HandBack × List AdvEvent)
  | .calls act =>
      if isCallChange act then
        match phoneStep s.audience act with
        | some (phone, _) =>
            some ({ s with
              phone := { phone with session := s.phone.session } }, [])
        | none => none
      else none
  | .session act =>
      if s.allows act then
        match phoneStep s.phone act with
        | some (phone, _) => some (s.session phone act, [])
        | none => none
      else none
  | .identity value =>
      if s.phone.session = .up ∧ s.callback = .idle then
        some (s.identity value, [])
      else none
  | .claim index token =>
      some ({ s with
        phone := { s.phone with
          store := s.phone.store.claimCall index token } }, [])
  | .callback order =>
      match s.callbackStep order with
      | some s' => some (s', [])
      | none => none
  | .send =>
      if 0 < s.adv.sending then some (s.withAdv s.adv.sendRearm, [])
      else none
  | .drop ok =>
      if s.drops = 0 then none
      else if ok && s.adv.connected then
        some ({ s.loseLink with drops := s.drops - 1 }, [])
      else some ({ s with drops := s.drops - 1 }, [])
  | .linkUp =>
      if s.adv.connected = false ∧ s.adv.advertised = true then
        some (s.withAdv (s.adv.setLink true), [])
      else none
  | .linkDown =>
      if s.adv.connected = true then some (s.loseLink, []) else none
  | .loop act =>
      match loopStep s.adv act with
      | some (adv, es) => some (s.withAdv adv, es)
      | none => none

-- == the callback by itself

/-- A snapshot as the callback finds it: the store, and the order in which
`HandsetAnswered` visits the calls. -/
abbrev Visit := Store × List (UInt8 × Call)

/-- What `HandsetAnswered` reports. -/
def Visit.reports (v : Visit) : UInt64 := v.1.handsetAnswered v.2

/-- The tokens a sequence of callbacks starts a drop for. -/
def HandBack.dropsFor (s : HandBack) : List Visit → List UInt64
  | [] => []
  | v :: rest =>
      let s' := s.dropOnce v.reports
      if s.drops < s'.drops then v.reports :: s'.dropsFor rest
      else s'.dropsFor rest

end Callbridge.Serve
