/-
The command handler `runServe` installs (cmd/le-call-go/main.go). It marks
the media session of a terminated call, claims a call that is accepted,
and only then asks the client to check and write the command.

The handler runs on the control server's goroutine while the GTBS client's
goes on applying notifications. An `Interleaving` says which of them come
between which two regions, and what the write returns; `seen` lists the
notifications that had come when the command returned.

`runServe` also makes the store's `CurrentCallToken` the broker's call
token provider, and requires a token. Nothing else connects the store and
the media broker, so `Media` interleaves the two machines; the one step
they share is a pass of `waitForCallToken`, whose answer is read off the
store at that moment.
-/
import Callbridge.Gtbs.Client
import Callbridge.Bluez.World

namespace Callbridge.Serve

open Lib Protocol Gtbs Bluez

/-- The parts of the process the handler acts on. -/
structure Process where
  store : Store
  client : Client
  broker : Broker

-- == notifications

/-- A region of the GTBS client's goroutine. -/
inductive Notification where
  | callState (value : Bytes)
  | incomingCall (value : Bytes)
  | controlResult (value : Bytes)
  | opened (control : Bool)
  | ready (up : Bool)
  | closed
  deriving DecidableEq

def Process.notify (s : Process) : Notification → Process
  | .callState value => { s with store := (s.store.apply value).2 }
  | .incomingCall value =>
      { s with store := (s.store.applyIncomingCall value).2 }
  | .controlResult value =>
      { s with client := (s.client.handleControlResult s.store value).2 }
  | .opened control => { s with client := s.client.opened control }
  | .ready up => { s with client := s.client.setReady up }
  | .closed => { s with client := s.client.closed }

def Process.notifyAll (s : Process) (ns : List Notification) : Process :=
  ns.foldl Process.notify s

-- == the handler

/-- The notifications that come before each region of the handler, and
whether `WriteValue` succeeds. -/
structure Interleaving where
  entry : List Notification
  mark : List Notification
  validate : List Notification
  available : List Notification
  register : List Notification
  write : List Notification
  cleanup : List Notification
  writeOk : Bool
  deriving DecidableEq

/-- What a command comes to: its error, the state it leaves and the
notifications that had come by then. -/
structure Outcome where
  error : Option CommandError
  state : Process
  seen : List Notification

/-- The second region of `ReleaseCallToken`, on the session the first one
found. -/
def Process.markSession (s : Process) (found : Option SessionId) : Process :=
  match found with
  | none => s
  | some sid =>
      match s.broker.sessions[sid]? with
      | none => s
      | some session =>
          { s with
            broker := s.broker.markNormalReleasePending sid session false }

/-- The first region of `ReleaseCallToken`, run for a Terminate. -/
def Process.findSession (s : Process) (m : Message) : Option SessionId :=
  if m.code = opcodeTerminate then s.broker.callTokenSession m.token
  else none

/-- `ClaimCall`, run for an Accept. -/
def Process.claim (s : Process) (m : Message) : Process :=
  if m.code = opcodeAccept then
    { s with store := s.store.claimCall m.index m.token }
  else s

/-- What the handler does before it calls `Client.Command`. -/
def Process.prepare (s : Process) (m : Message) (i : Interleaving) :
    Process :=
  ((s.notifyAll (i.entry ++ i.mark)).markSession
    ((s.notifyAll i.entry).findSession m)).claim m

def Process.withClient (s : Process) (client : Client) : Process :=
  { s with client := client }

/-- More notifications had come before. -/
def Outcome.after (o : Outcome) (ns : List Notification) : Outcome :=
  { o with seen := ns ++ o.seen }

/-- `Client.Command` once the command waits for its result. -/
def Process.write (s : Process) (m : Message) (i : Interleaving) : Outcome :=
  if i.writeOk then ⟨none, s.notifyAll i.write, i.write⟩
  else
    ⟨some .writeFailed,
      (s.notifyAll (i.write ++ i.cleanup)).withClient
        ((s.notifyAll (i.write ++ i.cleanup)).client.unregister m),
      i.write ++ i.cleanup⟩

/-- `Client.Command` once it has a session. -/
def Process.register (s : Process) (m : Message) (i : Interleaving) :
    Outcome :=
  match (s.notifyAll i.register).client.register m with
  | none => ⟨some .stale, s.notifyAll i.register, i.register⟩
  | some client =>
      (((s.notifyAll i.register).withClient client).write m i).after
        i.register

/-- `Client.Command` once the command is validated. -/
def Process.lookSession (s : Process) (m : Message) (i : Interleaving) :
    Outcome :=
  if (s.notifyAll i.available).client.available then
    ((s.notifyAll i.available).register m i).after i.available
  else ⟨some .unavailable, s.notifyAll i.available, i.available⟩

def Process.clientCommand (s : Process) (m : Message)
    (i : Interleaving) : Outcome :=
  match (s.notifyAll i.validate).client.refused
      (s.notifyAll i.validate).store m with
  | some e => ⟨some e, s.notifyAll i.validate, i.validate⟩
  | none => ((s.notifyAll i.validate).lookSession m i).after i.validate

def Process.command (s : Process) (m : Message) (i : Interleaving) :
    Outcome :=
  ((s.prepare m i).clientCommand m i).after (i.entry ++ i.mark)

-- == runs

/-- Notifications and whole commands, one after the other. -/
inductive ServeAct where
  | notify (n : Notification)
  | command (m : Message) (i : Interleaving)
  deriving DecidableEq

/-- A command lets out the error it returned, if any. -/
def serveStep (s : Process) :
    ServeAct → Option (Process × List (Message × Option CommandError))
  | .notify n => some (s.notify n, [])
  | .command m i =>
      some ((s.command m i).state, [(m, (s.command m i).error)])

-- == the call token provider

structure Media where
  store : Store
  world : World

/-- The state `runServe` starts from: the clock reading the store is seeded
with, the device and the normal-release wait. -/
def newMedia (now : UInt64) (device : Bytes) (wait : Nat) : Media :=
  ⟨newStore now, newWorld (newBroker device true wait)⟩

inductive MediaAct where
  | store (op : StoreOp)
  | broker (act : Action)
  | callToken (id : AcquireId) (expired : Bool)
  deriving DecidableEq

/-- Does the region read the call token provider? -/
def polls : Action → Bool
  | .acquire _ (.poll _ _) => true
  | _ => false

/-- The region of the broker an action stands for. -/
def Media.region (s : Media) : MediaAct → Option Action
  | .store _ => none
  | .broker act => if polls act then none else some act
  | .callToken id expired =>
      some (.acquire id (.poll (some s.store.currentCallToken) expired))

def mediaStep (s : Media) (a : MediaAct) : Option (Media × List Event) :=
  match a with
  | .store op => some ({ s with store := s.store.exec op }, [])
  | _ =>
      match s.region a with
      | none => none
      | some act =>
          match step s.world act with
          | none => none
          | some (w, es) => some ({ s with world := w }, es)

end Callbridge.Serve
