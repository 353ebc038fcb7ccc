/-
What the proofs about calls share: how a conversation goes on from a
request, what a request does before it is written, and what follows once
a call has reached its folder. From there on (`Settled`) the session
stays as it is, nothing panics, and no request is a SetPath.
-/
import Callbridge.Obex.Proofs.Names
import Callbridge.MapClient.Session

namespace Callbridge.MapClient

open Lib
open Obex

-- == conversations

theorem converse_request (s : Session) (opcode : UInt8) (payload : Bytes)
    (pending : Pending) (answer : Except LinkError Packet)
    (answers : List (Except LinkError Packet)) :
    converse (s, .request opcode payload pending) (answer :: answers)
      = (⟨opcode, payload⟩ :: (converse (s.resume pending answer)
          answers).1, (converse (s.resume pending answer) answers).2) := rfl

theorem converse_finished (s : Session) (result : Except MapError Bytes)
    (answers : List (Except LinkError Packet)) :
    converse (s, .finished result) answers
      = ([], (s, .finished result)) := by
  cases answers with
  | nil | cons answer answers => rfl

-- == requests

theorem connectionHeader_eq (s : Session) : s.connectionHeader
    = some (headerConnectionID :: bePutUint32 s.connection) :=
  uint32Header_eq (by decide) (by decide) s.connection

theorem rootHeaders_eq (s : Session) : s.rootHeaders
    = some ([0x02, 0x00]
        ++ (headerConnectionID :: bePutUint32 s.connection)) := by
  rfl

/-- A packet of this payload is written, not refused by the session. -/
def Session.sends (s : Session) (payload : Bytes) : Prop :=
  s.closed = false ∧ payload.length + 3 ≤ s.packetMax

theorem request_sent {s : Session} {payload : Bytes} (h : s.sends payload)
    (opcode : UInt8) (pending : Pending) :
    s.request opcode payload pending
      = (s, .request opcode payload pending) := by
  have hsize := h.2
  rw [Session.request, h.1, if_neg Bool.false_ne_true, if_neg (by omega)]

/-- A request that cannot be sent fails in the session. -/
theorem request_refused {s : Session} {payload : Bytes}
    (h : ¬ s.sends payload) (opcode : UInt8) (pending : Pending) :
    ∃ e, s.request opcode payload pending
      = (s.failed pending, .finished (.error e)) := by
  unfold Session.request
  by_cases hclosed : s.closed = true
  · exact ⟨_, if_pos hclosed⟩
  · rw [if_neg hclosed]
    by_cases hsize : s.packetMax < payload.length + 3
    · exact ⟨_, if_pos hsize⟩
    · refine absurd ⟨?_, by omega⟩ h
      exact Bool.eq_false_iff.mpr hclosed

/-- A session as `Connect` leaves it. -/
def freshSession : Session := ⟨false, 1, 0xffff, [], le_refl _⟩

-- == the bodies

/-- The body of a packet's payload, as its receiver reads it. -/
def payloadBody (payload : Bytes) : Bytes :=
  match parseHeaders payload 0 with
  | .error _ => []
  | .ok headers => collectBody headers headerBody headerEndOfBody

/-- A packet after which `collectGET` asks for more. -/
structure GoesOn (body : Bytes) (response : Packet) : Prop where
  parses : ∃ headers, parseHeaders response.payload 0 = .ok headers
  code : response.code = responseContinue
  size : (body ++ payloadBody response.payload).length ≤ maxCollectedBody

/-- The turn of `collectGET`'s loop after such a packet. -/
theorem resume_get_goesOn (s : Session) {body : Bytes} {response : Packet}
    (h : GoesOn body response) :
    s.resume (.get body) (.ok response)
      = s.requestHeaders opGetFinal s.connectionHeader
          (.get (body ++ payloadBody response.payload)) := by
  obtain ⟨⟨headers, hparse⟩, hcode, hsize⟩ := h
  have hbody : payloadBody response.payload
      = collectBody headers headerBody headerEndOfBody := by
    rw [payloadBody, hparse]
  rw [hbody] at hsize
  simp only [Session.resume, Session.getAnswered, hparse]
  rw [if_neg (by omega), hcode, if_neg (by decide), if_neg (by simp),
    hbody]

/-- After any other packet it returns, and if not with an error then with
what it has. -/
theorem resume_get_returns (s : Session) {body : Bytes}
    {response : Packet} (h : ¬ GoesOn body response) :
    ∃ result, s.resume (.get body) (.ok response) = (s, .finished result)
      ∧ ∀ bytes, result = .ok bytes →
        bytes = body ++ payloadBody response.payload := by
  cases hparse : parseHeaders response.payload 0 with
  | error e =>
    simp only [Session.resume, Session.getAnswered, hparse]
    exact ⟨_, rfl, by rintro bytes ⟨⟩⟩
  | ok headers =>
    have hbody : collectBody headers headerBody headerEndOfBody
        = payloadBody response.payload := by
      rw [payloadBody, hparse]
    simp only [Session.resume, Session.getAnswered, hparse, hbody]
    by_cases hsize : maxCollectedBody
        < (body ++ payloadBody response.payload).length
    · exact ⟨_, if_pos hsize, by rintro bytes ⟨⟩⟩
    rw [if_neg hsize]
    by_cases hok : response.code = responseOK
    · refine ⟨_, if_pos hok, ?_⟩
      intro bytes hbytes
      exact (Except.ok.inj hbytes).symm
    rw [if_neg hok]
    by_cases hcode : response.code = responseContinue
    · exact absurd ⟨⟨headers, hparse⟩, hcode, by omega⟩ h
    · exact ⟨_, if_pos hcode, by rintro bytes ⟨⟩⟩

-- == behind the folder

/-- A call that has reached its folder. -/
def Pending.arrived : Pending → Prop
  | .get _ => True
  | .put _ _ => True
  | _ => False

/-- The session is left as it was, and the call is over or awaits the
answer to a request of its body. -/
def Settled (s : Session) (x : Session × Progress) : Prop :=
  (∃ result, x = (s, .finished result))
    ∨ ∃ opcode payload pending, pending.arrived ∧ opcode ≠ opSetPath
      ∧ x = (s, .request opcode payload pending)

/-- A request past the folder moves nothing more. -/
theorem settled_request (s : Session) {opcode : UInt8}
    (hopcode : opcode ≠ opSetPath) (payload : Bytes) {pending : Pending}
    (h : pending.arrived) :
    Settled s (s.request opcode payload pending) := by
  by_cases hsends : s.sends payload
  · rw [request_sent hsends]
    exact Or.inr ⟨_, _, _, h, hopcode, rfl⟩
  · obtain ⟨e, he⟩ := request_refused hsends opcode pending
    have hkept : s.failed pending = s := by
      cases pending with
      | get body | put final rest => rfl
      | keepalive | root folder parts task | descend folder rest task =>
        cases h
    rw [he, hkept]
    exact Or.inl ⟨_, rfl⟩

/-- Nor does a body. -/
theorem settled_putBody (s : Session) (headers body : Bytes) :
    Settled s (s.putBody headers body) := by
  have hmax := s.packetMax_le
  unfold Session.putBody
  simp only []
  split
  case isTrue => exact Or.inl ⟨_, rfl⟩
  case isFalse hroom =>
    split
    case isTrue hfit =>
      rw [mustHeader_length (by decide) (by omega)]
      exact settled_request s (by decide) _ trivial
    case isFalse hlong =>
      have htake := List.length_take_le
        (s.packetMax - 3 - headers.length - 3) body
      rw [mustHeader_length (by decide) (by omega)]
      exact settled_request s (by decide) _ trivial

/-- Each answer leaves it so. -/
theorem settled_resume (s : Session) {pending : Pending}
    (h : pending.arrived) (answer : Except LinkError Packet) :
    Settled s (s.resume pending answer) := by
  cases answer with
  | error e =>
    cases pending with
    | get body | put final rest => exact Or.inl ⟨_, rfl⟩
    | keepalive | root folder parts task | descend folder rest task => cases h
  | ok response =>
    cases pending with
    | keepalive | root folder parts task | descend folder rest task => cases h
    | get body =>
      by_cases hgoes : GoesOn body response
      · rw [resume_get_goesOn s hgoes, connectionHeader_eq]
        exact settled_request s (by decide) _ trivial
      · obtain ⟨result, hresult, -⟩ := resume_get_returns s hgoes
        rw [hresult]
        exact Or.inl ⟨_, rfl⟩
    | put final rest =>
      simp only [Session.resume, Session.putAnswered]
      split
      · split <;> exact Or.inl ⟨_, rfl⟩
      · split
        · exact Or.inl ⟨_, rfl⟩
        · exact settled_putBody s _ rest

/-- A handle short enough for a name header. -/
def Task.Fits : Task → Prop
  | .get handle => nameLength handle ≤ maxNameLength
  | _ => True

/-- Nor does the task of a call. -/
theorem settled_perform (s : Session) {task : Task} (h : task.Fits) :
    Settled s (s.perform task) := by
  cases task with
  | list maximum offset =>
    simp only [Session.perform, Session.collectGET, Session.listHeaders]
    exact settled_request s (by decide) _ trivial
  | get handle =>
    obtain ⟨name, hname, -⟩ := nameHeader_eq_some h
    simp only [Session.perform, Session.collectGET, Session.messageHeaders]
    rw [connectionHeader_eq, headerName, hname,
      mustHeader_length (by decide) (by decide),
      mustHeader_length (by decide) (by decide)]
    exact settled_request s (by decide) _ trivial
  | push body transparent retry =>
    simp only [Session.perform, Session.pushHeaders]
    exact settled_putBody s _ body

/-- A handle that passes its check is short. -/
theorem fits_of_safeHandle {handle : Bytes} (h : safeHandle handle = true) :
    (Task.get handle).Fits := by
  have hlen : handle.length ≤ 64 := by
    by_contra hlong
    rw [safeHandle, if_pos (by simp; omega)] at h
    cases h
  have hname := nameLength_le handle
  show nameLength handle ≤ maxNameLength
  unfold maxNameLength
  omega

end Callbridge.MapClient
