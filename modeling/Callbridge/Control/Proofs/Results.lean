/-
Control results on their way to the client. For an Originate the handler
looks the new call's token up in the store, while the codec wants an index
and a token or neither: the result gets through exactly when the store
already knows the call it names (`accepted_result_sent_iff`). An
acknowledgement is never lost like that.
-/
import Callbridge.Control.Proofs.Sending

namespace Callbridge.Control

open Lib Protocol Gtbs

variable {store : Store} {opcode index result : UInt8} {token : UInt64}

-- == the handler

/-- What is known of a result that was reported. -/
structure Reported (store : Store)
    (opcode index result : UInt8) (token : UInt64) : Prop where
  opcode_le : opcode ≤ opcodeJoin
  result_ok : validResult result = true
  originate : opcode = opcodeOriginate →
    token = (store.tokenForIndex index).1
  indexed : opcode ≠ opcodeOriginate → index ≠ 0 ∧ token ≠ 0

/-- A result that is passed on has the store's token. -/
theorem handleControlResult_ok {c : Client} {value : Bytes}
    (h : (c.handleControlResult store value).1
      = .ok (opcode, index, result, token)) :
    value = [opcode, index, result]
      ∧ Reported store opcode index result token := by
  unfold Client.handleControlResult at h
  split at h
  case h_2 => cases h
  case h_1 o i r =>
    split at h
    case isTrue => cases h
    case isFalse hok =>
      push Not at hok
      obtain ⟨hle, hidx, hres⟩ := hok
      split at h
      case isTrue horig =>
        split at h
        case isFalse => cases h
        case isTrue =>
          cases h
          refine ⟨rfl, UInt8.not_lt.mp (by simpa using hle),
            by simpa using hres, fun _ => rfl, fun hne => absurd horig hne⟩
      case isFalse hne =>
        split at h
        case isTrue => cases h
        case isFalse htok =>
          cases h
          refine ⟨rfl, UInt8.not_lt.mp (by simpa using hle),
            by simpa using hres, fun horig => absurd horig hne,
            fun _ => ⟨hidx hne, htok⟩⟩

/-- `TokenForIndex` reports a call exactly when the token is not zero. -/
theorem tokenForIndex_found (store : Store) (index : UInt8) :
    (store.tokenForIndex index).2 = true
      ↔ (store.tokenForIndex index).1 ≠ 0 := by
  unfold Store.tokenForIndex
  split <;> simp

-- == the message

/-- Of a reported result the codec checks no more than the reference. -/
theorem resultMessage_valid_iff {device : Bytes} {sequence : UInt64}
    (hd : Canonical device) (hs : sequence ≠ 0)
    (h : Reported store opcode index result token) :
    validate (resultMessage device sequence opcode index result token) = none
      ↔ validCallReference opcode index token = true := by
  rw [validate_body
    (m := resultMessage device sequence opcode index result token)
    (show typeState ≤ typeResult ∧ typeResult ≤ typeReady by decide)
    (show 0 &&& ~~~(flagSnapshot ||| flagLast) = 0 by decide) hs
    (Nat.zero_le _) hd.accepted]
  show validateResult _ = none ↔ _
  have hcode : ¬ opcode > opcodeJoin := UInt8.not_lt.mpr h.opcode_le
  unfold validateResult
  simp [resultMessage, hcode, h.result_ok]

/-- The reference of a reported result: an Originate's names a call the
store knows, or none. -/
theorem reference_iff (h : Reported store opcode index result token) :
    validCallReference opcode index token = true
      ↔ (opcode = opcodeOriginate →
        (index ≠ 0 ↔ (store.tokenForIndex index).2 = true)) := by
  unfold validCallReference
  split
  case isTrue horig =>
    rw [tokenForIndex_found, ← h.originate horig]
    by_cases hi : index = 0 <;> by_cases ht : token = 0 <;>
      simp [horig, hi, ht]
  case isFalse hne =>
    obtain ⟨hi, ht⟩ := h.indexed hne
    simp [hne, hi, ht]

/-- A valid result is written to the client that is connected. -/
theorem broadcastResult_sent {server : Server} {client : ClientId}
    (hclient : server.client = some client)
    (hvalid : validate (resultMessage server.device server.nextSequence.1
      opcode index result token) = none) :
    (server.broadcastResult opcode index result token true).2
      = [.sent client (resultMessage server.device server.nextSequence.1
          opcode index result token).packet] := by
  have hthere : server.nextSequence.2.client = some client := hclient
  unfold Server.broadcastResult
  rw [sendMessagesLocked_cons _ _ _ hthere, if_neg (by simpa using hvalid)]
  rfl

/-- Whatever the client and the store, a result that was reported is
encoded, and sent to the client that is connected, exactly when it is not
an Originate's with an index the store knows no call at, or without one
where the store has a call at index zero. -/
theorem accepted_result_sent_iff {address : Bytes} {now : UInt64}
    {server₀ server : Server} (h₀ : newServer address now = some server₀)
    (hdevice : server.device = server₀.device) (c : Client) (store : Store)
    {value : Bytes} {opcode index result : UInt8} {token : UInt64}
    (h : (c.handleControlResult store value).1
      = .ok (opcode, index, result, token)) :
    (∃ packet, (resultMessage server.device server.nextSequence.1 opcode
          index result token).encode = .ok packet
        ∧ ∀ client, server.client = some client →
          (server.broadcastResult opcode index result token true).2
            = [.sent client packet])
      ↔ (byteAt value 0 = opcodeOriginate → (byteAt value 1 ≠ 0
        ↔ (store.tokenForIndex (byteAt value 1)).2 = true)) := by
  obtain ⟨rfl, hrep⟩ := handleControlResult_ok h
  have hd : Canonical server.device := hdevice ▸ newServer_canonical h₀
  have hvalid := resultMessage_valid_iff hd (nextSequence_ne server) hrep
  show _ ↔ (opcode = opcodeOriginate → (index ≠ 0
    ↔ (store.tokenForIndex index).2 = true))
  rw [← reference_iff hrep, ← hvalid]
  constructor
  · rintro ⟨packet, hencode, -⟩
    exact (encode_ok_iff.mp hencode).1
  · intro hnone
    have hencode := encode_ok_iff.mpr ⟨hnone, rfl⟩
    refine ⟨_, hencode, fun client hclient => ?_⟩
    exact broadcastResult_sent hclient hnone

/-- A client with one Originate and one Terminate on their way. -/
def awaiting : Client :=
  { newClient (upperAddress [0, 0x11, 0x22, 0x33, 0x44, 0x55]) with
    conn := true
    control := true
    ready := true
    pending := (∅ : GoMap _ _).insert (opcodeTerminate, 1) 8
    pendingOriginate := true }

/-- The store, once the phone has listed the call it is dialling. -/
def dialling : Store := ((newStore 7).apply [1, 1, 1]).2

/-- Both results that name what the store knows are sent: the Originate's
with the call the phone has already listed, and the Terminate's. -/
theorem accepted_result_sent_listed :
    ∃ server, newServer (upperAddress [0, 0x11, 0x22, 0x33, 0x44, 0x55]) 5
        = some server
      ∧ (∃ packet, (resultMessage server.device server.nextSequence.1
            opcodeOriginate 1 0 8).encode = .ok packet)
      ∧ ∃ packet, (resultMessage server.device server.nextSequence.1
            opcodeTerminate 1 0 8).encode = .ok packet := by
  obtain ⟨server, hserver⟩ : ∃ server, newServer
      (upperAddress [0, 0x11, 0x22, 0x33, 0x44, 0x55]) 5 = some server :=
    ⟨_, rfl⟩
  have horiginate : (awaiting.handleControlResult dialling
      [opcodeOriginate, 1, 0]).1 = .ok (opcodeOriginate, 1, 0, 8) := by
    decide +kernel
  have hterminate : (awaiting.handleControlResult dialling
      [opcodeTerminate, 1, 0]).1 = .ok (opcodeTerminate, 1, 0, 8) := by
    decide +kernel
  obtain ⟨p, hp, -⟩ := (accepted_result_sent_iff hserver rfl awaiting
    dialling horiginate).mpr (by decide +kernel)
  obtain ⟨q, hq, -⟩ := (accepted_result_sent_iff hserver rfl awaiting
    dialling hterminate).mpr (by decide +kernel)
  exact ⟨server, hserver, ⟨p, hp⟩, ⟨q, hq⟩⟩

/-- The phone answers an Originate with the new call's index before it
lists the call: the result is accepted and reported, and not sent. -/
theorem originate_result_lost :
    (awaiting.handleControlResult (newStore 7) [opcodeOriginate, 1, 0]).1
        = .ok (opcodeOriginate, 1, 0, 0)
      ∧ ∃ server, newServer (upperAddress [0, 0x11, 0x22, 0x33, 0x44, 0x55])
          5 = some server
        ∧ (resultMessage server.device server.nextSequence.1
            opcodeOriginate 1 0 0).encode = .error .result
        ∧ (Server.broadcastResult { server with client := some 0 }
            opcodeOriginate 1 0 0 true).2 = [] := by
  refine ⟨by decide +kernel, _, rfl, by decide +kernel, by decide +kernel⟩

-- == acknowledgements

/-- What a packet taken for a command says. -/
theorem command_eq_some {s : Server} {packet : Bytes} {m : Message}
    (h : s.command packet = some m) :
    m.sequence ≠ 0 ∧ m.code ≤ opcodeJoin
      ∧ validCallReference m.code m.index m.token = true := by
  obtain ⟨-, h⟩ := Option.ite_none_left_eq_some.mp h
  split at h
  case h_1 => cases h
  case h_2 hdecode =>
    obtain ⟨hcommand, h⟩ := Option.ite_none_left_eq_some.mp h
    cases h
    obtain ⟨f, -, -, -, hvalid, rfl⟩ := decode_ok_iff.mp hdecode
    push Not at hcommand
    have hother : typeCommand ≠ typeState := by decide
    simp only [validate, validateCommand, hcommand.1, if_neg hother,
      if_true] at hvalid
    unfold validCallReference
    split_ifs at hvalid ⊢ with hhead _ _ hcode horig href href <;> simp_all

theorem classifyCommandError_le (e : Option CommandError) :
    classifyCommandError e ≤ ackWriteFailed := by
  rcases e with _ | _ | _ | _ | _ <;> decide

/-- Whatever its handler returns, the acknowledgement of a command encodes. -/
theorem ackMessage_valid {s : Server} {packet device : Bytes} {m : Message}
    (hd : Canonical device) (h : s.command packet = some m)
    (e : Option CommandError) :
    validate (ackMessage device m (classifyCommandError e)) = none := by
  obtain ⟨hseq, hcode, href⟩ := command_eq_some h
  rw [validate_body (m := ackMessage device m (classifyCommandError e))
    (show typeState ≤ typeAck ∧ typeAck ≤ typeReady by decide)
    (show 0 &&& ~~~(flagSnapshot ||| flagLast) = 0 by decide) hseq
    (Nat.zero_le _) hd.accepted]
  show validateAck _ = none
  have hle : ¬ m.code > opcodeJoin := UInt8.not_lt.mpr hcode
  have hvalue : ¬ classifyCommandError e > ackWriteFailed :=
    UInt8.not_lt.mpr (classifyCommandError_le e)
  unfold validateAck
  simp [ackMessage, hle, hvalue, href]

/-- No acknowledgement is lost in the server: whatever it takes for a
command and whatever the handler returns, the client that is there when
the handler is done is sent one acknowledgement and reads the command's
own sequence, call and opcode off it. -/
theorem command_acknowledged {address : Bytes} {now : UInt64}
    {server₀ server later : Server} {client : ClientId} {packet : Bytes}
    {m : Message} (h₀ : newServer address now = some server₀)
    (hlater : later.device = server₀.device)
    (hclient : later.client = some client)
    (h : server.command packet = some m)
    (handler : Message → Option CommandError) :
    (server.receive later packet handler true).1 = later
      ∧ received client (server.receive later packet handler true).2
        = [ackMessage server₀.device m
            (classifyCommandError (handler m))] := by
  have hd : Canonical later.device := hlater ▸ newServer_canonical h₀
  have hvalid := ackMessage_valid hd h (handler m)
  have hsend : server.receive later packet handler true
      = (later, sentTo client [ackMessage later.device m
        (classifyCommandError (handler m))]) := by
    unfold Server.receive Server.acknowledge
    rw [h]
    simp only
    rw [sendMessagesLocked_cons _ _ _ hclient, if_neg (by simpa using hvalid)]
    rfl
  rw [hsend, ← hlater]
  refine ⟨rfl, ?_⟩
  rw [received_sentTo hd, if_pos rfl]
  intro a ha
  rw [List.mem_singleton.mp ha]
  exact ⟨hvalid, rfl⟩

def sampleCommand (device : Bytes) : Message :=
  ⟨typeCommand, 0, 9, 8, device, 1, opcodeTerminate, 0, []⟩

/-- A Terminate that its handler finds stale. -/
theorem command_acknowledged_stale :
    ∃ server : Server,
      received 0 (server.receive { server with client := some 0 }
        (sampleCommand server.device).packet (fun _ => some .stale) true).2
      = [ackMessage server.device (sampleCommand server.device)
          ackStale] := by
  obtain ⟨server, hserver, hm⟩ : ∃ server, newServer
      (upperAddress [0, 0x11, 0x22, 0x33, 0x44, 0x55]) 5 = some server
      ∧ server.command (sampleCommand server.device).packet
        = some (sampleCommand server.device) :=
    ⟨_, rfl, by decide +kernel⟩
  have hclient : Server.client { server with client := some 0 } = some 0 :=
    rfl
  exact ⟨server,
    (command_acknowledged hserver (by rfl) hclient hm _).2⟩

end Callbridge.Control
