/-
Commands and their results within one GTBS session: any number of calls of
`Client.Command` side by side, the store under them, and a phone that
answers every command written to it with one result, in the order they
were written.

A call of `Command` is cut where it takes and gives up a lock, as in
`Gtbs.Client`; `Commanding` says where it is. A command is in the phone's
hands (`written`) from its successful write to the moment the client
handles the result, whatever lies between the two on the way.
-/
import Callbridge.Gtbs.Client
import Callbridge.Lib.Trace

namespace Callbridge.Gtbs

open Lib Protocol

-- == the state

/-- Where a call of `Command` is. -/
inductive Commanding where
  /-- It has been checked against the store. -/
  | validated (m : Message)
  /-- It has found a session. -/
  | looked (m : Message)
  /-- It is entered in `pending`, and `WriteValue` is under way. -/
  | registered (m : Message)
  /-- `WriteValue` has failed. -/
  | failed (m : Message)
  | returned
  deriving DecidableEq

structure Exchange where
  store : Store
  client : Client
  commands : List Commanding
  /-- Commands written and not answered yet, the oldest first. -/
  written : List Message
  deriving DecidableEq

/-- A session has just taken the client over. -/
def newExchange (store : Store) (client : Client) (control : Bool) :
    Exchange :=
  ⟨store, client.opened control, [], []⟩

def Exchange.goto (s : Exchange) (id : Nat) (c : Commanding) : Exchange :=
  { s with commands := s.commands.set id c }

def Exchange.withClient (s : Exchange) (client : Client) : Exchange :=
  { s with client := client }

/-- The call index in a result: the phone's own choice for an Originate. -/
def resultIndex (m : Message) (index : UInt8) : UInt8 :=
  if m.code = opcodeOriginate then index else m.index

-- == steps

inductive ExchangeAct where
  /-- A method of the store is called. -/
  | store (op : StoreOp)
  | ready (up : Bool)
  | command (m : Message)
  | look (id : Nat)
  | register (id : Nat)
  | write (id : Nat) (ok : Bool)
  | cleanup (id : Nat)
  /-- The result of the oldest command is handled. -/
  | answer (index result : UInt8)
  deriving DecidableEq

/-- The arguments of a Result callback: opcode, index, result, token. -/
abbrev ResultCall := UInt8 × UInt8 × UInt8 × UInt64

def exchangeStep (s : Exchange) :
    ExchangeAct → Option (Exchange × List ResultCall)
  | .store op => some ({ s with store := s.store.exec op }, [])
  | .ready up => some (s.withClient (s.client.setReady up), [])
  | .command m =>
      match s.client.refused s.store m with
      | some _ => some (s, [])
      | none => some ({ s with commands := s.commands ++ [.validated m] }, [])
  | .look id =>
      match s.commands[id]? with
      | some (.validated m) =>
          if s.client.available then some (s.goto id (.looked m), [])
          else some (s.goto id .returned, [])
      | _ => none
  | .register id =>
      match s.commands[id]? with
      | some (.looked m) =>
          match s.client.register m with
          | none => some (s.goto id .returned, [])
          | some client =>
              some ((s.withClient client).goto id (.registered m), [])
      | _ => none
  | .write id ok =>
      match s.commands[id]? with
      | some (.registered m) =>
          if ok then
            some ({ s.goto id .returned with
              written := s.written ++ [m] }, [])
          else some (s.goto id (.failed m), [])
      | _ => none
  | .cleanup id =>
      match s.commands[id]? with
      | some (.failed m) =>
          some ((s.withClient (s.client.unregister m)).goto id .returned, [])
      | _ => none
  | .answer index result =>
      match s.written with
      | [] => none
      | m :: rest =>
          match s.client.handleControlResult s.store
              [m.code, resultIndex m index, result] with
          | (.ok call, client) =>
              some ({ s.withClient client with written := rest }, [call])
          | (.error _, client) =>
              some ({ s.withClient client with written := rest }, [])

/-- A step of the exchange, as it stands in a run. -/
abbrev ExchangeTrans := Lib.Trans Exchange ExchangeAct ResultCall

end Callbridge.Gtbs
