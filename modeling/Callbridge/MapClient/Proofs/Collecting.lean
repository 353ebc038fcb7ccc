/-
When a MAP GET comes to its end.

A packet ends the call exactly if its code is not Continue, if its headers
do not parse, if the bodies up to it exceed the bound, or if the session
has no room for a request for more (`Session.Ends`). A Continue without a
body brings the call no closer to any of these: how many packets a call
reads has no bound. Where every Continue carries a byte of body, the bound
on the bytes is one on the packets.
-/
import Callbridge.MapClient.Proofs.Requests

namespace Callbridge.MapClient

open Lib
open Obex

/-- The call has returned. -/
def Returned (x : Session × Progress) : Prop :=
  ∃ result, x.2 = .finished result

/-- The first `n` answers of a phone that sends these packets. -/
def reading (stream : Nat → Packet) (n : Nat) :
    List (Except LinkError Packet) :=
  (List.range n).map fun i => .ok (stream i)

/-- The bodies of the first `n` packets. -/
def streamBody (stream : Nat → Packet) (n : Nat) : Bytes :=
  (List.range n).flatMap fun i => payloadBody (stream i).payload

/-- A packet after which `collectGET` asks for nothing more, in a call that
has collected `body` before the stream starts. -/
def EndsFrom (body : Bytes) (stream : Nat → Packet) (i : Nat) : Prop :=
  (stream i).code ≠ responseContinue
    ∨ (∀ headers, parseHeaders (stream i).payload 0 ≠ .ok headers)
    ∨ maxCollectedBody < (body ++ streamBody stream (i + 1)).length

/-- The request for more, the connection header alone, fits a packet. -/
def Session.roomToAsk (s : Session) : Prop := 8 ≤ s.packetMax

/-- The packet that ends a call. -/
def Session.Ends (s : Session) (stream : Nat → Packet) (i : Nat) : Prop :=
  EndsFrom [] stream i ∨ ¬ s.roomToAsk

theorem reading_succ (stream : Nat → Packet) (n : Nat) :
    reading stream (n + 1)
      = .ok (stream 0) :: reading (fun i => stream (i + 1)) n := by
  rw [reading, List.range_succ_eq_map, List.map_cons, List.map_map]
  rfl

theorem streamBody_succ (stream : Nat → Packet) (n : Nat) :
    streamBody stream (n + 1) = payloadBody (stream 0).payload
      ++ streamBody (fun i => stream (i + 1)) n := by
  rw [streamBody, List.range_succ_eq_map, List.flatMap_cons,
    List.flatMap_map]
  rfl

/-- The rest of the stream, for a call that has the first packet. -/
theorem endsFrom_succ (body : Bytes) (stream : Nat → Packet) (i : Nat) :
    EndsFrom body stream (i + 1)
      ↔ EndsFrom (body ++ payloadBody (stream 0).payload)
          (fun i => stream (i + 1)) i := by
  unfold EndsFrom
  rw [streamBody_succ stream (i + 1), List.append_assoc]

/-- The call goes on exactly if the packet does not end it. -/
theorem goesOn_iff (body : Bytes) (stream : Nat → Packet) :
    GoesOn body (stream 0) ↔ ¬ EndsFrom body stream 0 := by
  have hfirst : streamBody stream (0 + 1)
      = payloadBody (stream 0).payload := by
    exact List.append_nil _
  unfold EndsFrom
  rw [hfirst]
  constructor
  · rintro ⟨⟨headers, hparse⟩, hcode, hsize⟩ hends
    rcases hends with h | h | h
    · exact h hcode
    · exact h headers hparse
    · omega
  · intro h
    simp only [not_or, not_not, not_forall, not_lt] at h
    exact ⟨h.2.1, h.1, h.2.2⟩

theorem collectGET_sent {s : Session} {initial : Bytes}
    (h : s.sends initial) : s.collectGET (some initial)
      = (s, .request opGetFinal initial (.get [])) :=
  request_sent h opGetFinal (.get [])

section Call

variable {s : Session} (hopen : s.closed = false)
include hopen

/-- The request for more is sent where there is room for it. -/
theorem asks_for_more (hroom : s.roomToAsk) (body : Bytes) :
    ∃ payload, s.requestHeaders opGetFinal s.connectionHeader (.get body)
      = (s, .request opGetFinal payload (.get body)) := by
  have hsends : s.sends
      (headerConnectionID :: bePutUint32 s.connection) := by
    refine ⟨hopen, ?_⟩
    exact hroom
  exact ⟨_, request_sent hsends opGetFinal (.get body)⟩

omit hopen in
/-- Where there is none, the call returns with the error. -/
theorem fails_to_ask (hroom : ¬ s.roomToAsk) (body : Bytes) :
    ∃ t result, s.requestHeaders opGetFinal s.connectionHeader (.get body)
      = (t, .finished result) := by
  have hsends : ¬ s.sends
      (headerConnectionID :: bePutUint32 s.connection) := by
    intro h
    have hsize := h.2
    exact hroom hsize
  obtain ⟨e, he⟩ := request_refused hsends opGetFinal (.get body)
  exact ⟨_, _, he⟩

/-- By induction on the packets read: the call has returned as soon as
one of them ends it, and not before. -/
theorem returned_iff (opcode : UInt8) (payload body : Bytes)
    (stream : Nat → Packet) (n : Nat) :
    Returned (converse (s, .request opcode payload (.get body))
        (reading stream n)).2
      ↔ ∃ i < n, EndsFrom body stream i ∨ ¬ s.roomToAsk := by
  induction n generalizing payload opcode body stream with
  | zero =>
    constructor
    · rintro ⟨result, h⟩
      cases h
    · rintro ⟨i, hi, -⟩
      cases hi
  | succ n ih =>
    rw [reading_succ, converse_request]
    -- the body ends here, cannot be asked for, or goes on
    by_cases hgoes : GoesOn body (stream 0)
    · rw [resume_get_goesOn s hgoes]
      by_cases hroom : s.roomToAsk
      · obtain ⟨more, hmore⟩ := asks_for_more hopen hroom
          (body ++ payloadBody (stream 0).payload)
        rw [hmore, ih]
        simp only [not_true_eq_false, hroom, or_false]
        constructor
        · rintro ⟨i, hi, hends⟩
          exact ⟨i + 1, by omega, (endsFrom_succ body stream i).mpr hends⟩
        · rintro ⟨i, hi, hends⟩
          cases i with
          | zero => exact absurd hends ((goesOn_iff body stream).mp hgoes)
          | succ i =>
            exact ⟨i, by omega, (endsFrom_succ body stream i).mp hends⟩
      · obtain ⟨t, result, hresult⟩ := fails_to_ask hroom
          (body ++ payloadBody (stream 0).payload)
        rw [hresult, converse_finished]
        constructor
        · intro _
          exact ⟨0, by omega, Or.inr hroom⟩
        · intro _
          exact ⟨result, rfl⟩
    · obtain ⟨result, hresult, -⟩ := resume_get_returns s hgoes
      rw [hresult, converse_finished]
      have hends : EndsFrom body stream 0 := by
        by_contra hno
        exact hgoes ((goesOn_iff body stream).mpr hno)
      constructor
      · intro _
        exact ⟨0, by omega, Or.inl hends⟩
      · intro _
        exact ⟨result, rfl⟩

end Call

/-- A call whose first request is refused has returned at once. -/
theorem returned_unsent {s : Session} {initial : Bytes}
    (h : ¬ s.sends initial) (answers : List (Except LinkError Packet)) :
    Returned (converse (s.collectGET (some initial)) answers).2 := by
  obtain ⟨e, he⟩ := request_refused h opGetFinal (.get [])
  rw [show s.collectGET (some initial) = _ from he, converse_finished]
  exact ⟨_, rfl⟩

/-- Where every Continue brings a byte, the packets that end nothing are
no more than the bytes that fit. -/
theorem length_streamBody (stream : Nat → Packet)
    (hbody : ∀ i, (stream i).code = responseContinue →
      payloadBody (stream i).payload ≠ [])
    (n : Nat) (hgoes : ∀ i < n, ¬ EndsFrom [] stream i) :
    n ≤ (streamBody stream n).length := by
  induction n with
  | zero => exact Nat.zero_le _
  | succ n ih =>
    have hcode : (stream n).code = responseContinue := by
      by_contra hcode
      exact hgoes n (by omega) (Or.inl hcode)
    have hpos := List.length_pos_iff.mpr (hbody n hcode)
    have hrest := ih fun i hi => hgoes i (by omega)
    have hlast : streamBody stream (n + 1)
        = streamBody stream n ++ payloadBody (stream n).payload := by
      simp [streamBody, List.range_succ]
    rw [hlast, List.length_append]
    omega

/-- With a byte in each packet the bound is reached. -/
theorem ends_within_bound (stream : Nat → Packet)
    (hbody : ∀ i, (stream i).code = responseContinue →
      payloadBody (stream i).payload ≠ []) :
    ∃ i < maxCollectedBody + 1, EndsFrom [] stream i := by
  by_contra hno
  have hgoes : ∀ i < maxCollectedBody + 1, ¬ EndsFrom [] stream i := by
    intro i hi hends
    exact hno ⟨i, hi, hends⟩
  have hlen := length_streamBody stream hbody _ hgoes
  have hlast := hgoes maxCollectedBody (by omega)
  refine hlast (Or.inr (Or.inr ?_))
  rw [List.nil_append]
  omega

-- == the theorem

/-- A GET returns after `n` packets exactly if it sends no request at all,
if one of the packets is not a Continue, does not parse or brings what was
collected over the bound, or if the session has no room to ask for more.
A phone whose every Continue carries a byte of body therefore ends it
within the bound's number of packets and one. -/
theorem collectGET_returns_iff (s : Session) (initial : Bytes)
    (stream : Nat → Packet) :
    (∀ n, Returned (converse (s.collectGET (some initial))
        (reading stream n)).2
          ↔ ¬ s.sends initial ∨ ∃ i < n, s.Ends stream i)
      ∧ ((∀ i, (stream i).code = responseContinue →
          payloadBody (stream i).payload ≠ []) →
        Returned (converse (s.collectGET (some initial))
          (reading stream (maxCollectedBody + 1))).2) := by
  by_cases hsends : s.sends initial
  · rw [collectGET_sent hsends]
    constructor
    · intro n
      rw [returned_iff hsends.1]
      simp only [hsends, not_true_eq_false, false_or]
      rfl
    · intro hbody
      rw [returned_iff hsends.1]
      obtain ⟨i, hi, hends⟩ := ends_within_bound stream hbody
      exact ⟨i, hi, Or.inl hends⟩
  · have hreturned := returned_unsent hsends
    constructor
    · intro n
      exact ⟨fun _ => Or.inl hsends, fun _ => hreturned _⟩
    · intro _
      exact hreturned _

/-- A phone that sends all it has in one packet. -/
theorem collectGET_returns_at_once :
    Returned (converse (freshSession.collectGET (some []))
        (reading (fun _ => ⟨responseOK, []⟩) 1)).2
      ∧ Returned (converse (freshSession.collectGET (some []))
        (reading (fun _ => ⟨responseOK, []⟩) (maxCollectedBody + 1))).2 := by
  have h := collectGET_returns_iff freshSession [] fun _ => ⟨responseOK, []⟩
  constructor
  · refine (h.1 1).mpr (Or.inr ⟨0, by decide, Or.inl (Or.inl ?_)⟩)
    decide
  · exact h.2 fun _ hcode => absurd hcode (by decide)

theorem streamBody_bodiless {stream : Nat → Packet}
    (h : ∀ i, payloadBody (stream i).payload = []) (n : Nat) :
    streamBody stream n = [] := by
  rw [streamBody, List.flatMap_eq_nil_iff]
  intro i _
  exact h i

/-- No number of packets is enough for every phone: one that keeps
answering Continue, with no headers at all, is asked for more each time. -/
theorem bodiless_continue_never_ends :
    ¬ ∃ bound, ∀ stream : Nat → Packet,
      (∀ i, ∃ headers, parseHeaders (stream i).payload 0 = .ok headers) →
      Returned (converse (freshSession.collectGET (some []))
        (reading stream bound)).2 := by
  rintro ⟨bound, h⟩
  have hback := h (fun _ => ⟨responseContinue, []⟩) fun _ => ⟨[], rfl⟩
  have hsends : freshSession.sends [] := ⟨rfl, by decide⟩
  rw [collectGET_sent hsends, returned_iff rfl] at hback
  obtain ⟨i, -, hends⟩ := hback
  rcases hends with (hcode | hparse | hsize) | hroom
  · exact hcode rfl
  · exact hparse [] rfl
  · rw [streamBody_bodiless fun _ => rfl] at hsize
    simp [maxCollectedBody] at hsize
  · exact hroom (by decide : 8 ≤ freshSession.packetMax)

end Callbridge.MapClient
