/-
The requests of `GetMessage`.

A call for a message walks to its folder (`Pending.toward`), asks for the
message by its handle, and then for more until the phone has no more. Up
to that first request it cannot return anything but an error (`Seeks`);
from there on every packet adds its body to what is returned (`Turn`).
-/
import Callbridge.MapClient.Proofs.Requests

namespace Callbridge.MapClient

open Lib
open Obex

variable {s : Session} {handle : Bytes} {opcode : UInt8}
  {pending : Pending}

/-- On the way to the folder of a message. -/
def Pending.toward (handle : Bytes) : Pending → Prop
  | .root _ _ task => task = .get handle
  | .descend _ _ task => task = .get handle
  | .keepalive | .get _ | .put _ _ => False

/-- The call is on its way to the folder, or it asks for the message. -/
def Seeks (handle : Bytes) : Session × Progress → Prop
  | (s, .request opcode payload pending) =>
      pending.toward handle ∨ (pending = .get [] ∧ opcode = opGetFinal
        ∧ s.messageHeaders handle = some payload)
  | (_, .finished result) => ∃ e, result = .error e
  | (_, .panicked) => True

theorem seeks_request {payload : Bytes}
    (h : Seeks handle (s, .request opcode payload pending)) :
    Seeks handle (s.request opcode payload pending) := by
  by_cases hsends : s.sends payload
  · rw [request_sent hsends]
    exact h
  · obtain ⟨e, he⟩ := request_refused hsends opcode pending
    rw [he]
    exact ⟨e, rfl⟩

theorem seeks_requestHeaders {payload : Option Bytes}
    (h : ∀ bytes, payload = some bytes →
      Seeks handle (s, .request opcode bytes pending)) :
    Seeks handle (s.requestHeaders opcode payload pending) := by
  cases payload with
  | none => exact trivial
  | some bytes => exact seeks_request (h bytes rfl)

theorem seeks_perform (s : Session) (handle : Bytes) :
    Seeks handle (s.perform (.get handle)) := by
  apply seeks_requestHeaders
  intro bytes hbytes
  exact Or.inr ⟨rfl, rfl, hbytes⟩

theorem seeks_descend (s : Session) (folder handle : Bytes)
    (parts : List Bytes) :
    Seeks handle (s.descend folder (.get handle) parts) := by
  cases parts with
  | nil => exact seeks_perform _ handle
  | cons part rest =>
    apply seeks_requestHeaders
    intro bytes _
    exact Or.inl rfl

theorem seeks_call (s : Session) (folder handle : Bytes) :
    Seeks handle (s.call (.get folder handle)) := by
  simp only [Session.call, Session.getMessage]
  split
  · exact ⟨_, rfl⟩
  simp only [Session.gotoFolder]
  split
  · exact ⟨_, rfl⟩
  split
  · exact seeks_perform s handle
  split
  · exact seeks_descend s _ handle _
  · apply seeks_requestHeaders
    intro bytes _
    exact Or.inl rfl

/-- A call for a message asks for nothing else. -/
theorem seeks_resume (s : Session) (h : pending.toward handle)
    (answer : Except LinkError Packet) :
    Seeks handle (s.resume pending answer) := by
  cases answer with
  | error e => exact ⟨_, rfl⟩
  | ok response =>
    cases pending with
    | root folder parts task =>
      have htask : task = .get handle := h
      simp only [Session.resume, Session.rootAnswered, htask]
      split
      · exact ⟨_, rfl⟩
      · exact seeks_descend _ folder handle parts
    | descend folder rest task =>
      have htask : task = .get handle := h
      simp only [Session.resume, Session.descendAnswered, htask]
      split
      · exact ⟨_, rfl⟩
      · exact seeks_descend _ folder handle rest
    | keepalive | get body | put final rest => cases h

/-- What a turn of `collectGET`'s loop comes to. -/
inductive Turn (s : Session) (body : Bytes) (response : Packet) :
    Session × Progress → Prop
  | more {payload : Bytes} (hmore : s.connectionHeader = some payload) :
      Turn s body response (s, .request opGetFinal payload
        (.get (body ++ payloadBody response.payload)))
  | done : Turn s body response
      (s, .finished (.ok (body ++ payloadBody response.payload)))
  | failed (e : MapError) :
      Turn s body response (s, .finished (.error e))

/-- What the loop makes of an answer. -/
theorem turn_resume (s : Session) (body : Bytes) (response : Packet) :
    Turn s body response (s.resume (.get body) (.ok response)) := by
  by_cases hgoes : GoesOn body response
  · rw [resume_get_goesOn s hgoes, connectionHeader_eq,
      Session.requestHeaders]
    by_cases hsends : s.sends
        (headerConnectionID :: bePutUint32 s.connection)
    · rw [request_sent hsends]
      exact .more (connectionHeader_eq s)
    · obtain ⟨e, he⟩ := request_refused hsends opGetFinal
        (.get (body ++ payloadBody response.payload))
      rw [he]
      exact .failed e
  · obtain ⟨result, hresult, hok⟩ := resume_get_returns s hgoes
    rw [hresult]
    cases result with
    | error e => exact .failed e
    | ok bytes =>
      rw [hok bytes rfl]
      exact .done

end Callbridge.MapClient
