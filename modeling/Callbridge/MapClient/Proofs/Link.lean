/-
The link between two requests, and while an answer is read.

Between requests every request is answered and every answer is read. While
an answer is awaited, it has not come at all, or what was read and what is
in the stream make it up. An answer that does not run past the length it
gives is then read whole, and the packet is the answer.
-/
import Callbridge.MapClient.Link

namespace Callbridge.MapClient

open Lib
open Obex

variable {l : Link} {buffer reply : Bytes} {packet : Packet} {l' : Link}

/-- Every request is answered, and every answer read. -/
structure Link.Quiet (l : Link) : Prop where
  read : l.stream = []
  answered : l.answers.length = l.requests.length

/-- The last request is the only one whose answer is not read, and the
buffer is what was read of it. -/
inductive Link.Awaits (l : Link) (buffer : Bytes) : Prop
  | unanswered (hread : l.stream = []) (hbuffer : buffer = [])
      (hcount : l.answers.length + 1 = l.requests.length)
  | answered {earlier : List Bytes} {reply : Bytes}
      (hanswers : l.answers = earlier ++ [reply])
      (hcount : l.answers.length = l.requests.length)
      (hsplit : buffer ++ l.stream = reply)
      (hdelimited : delimited reply = true)

-- == packets

/-- A packet is read off exactly the bytes that `WritePacket` makes of
it. -/
theorem writePacket_of_arrived (h : arrived buffer = some (.ok packet)) :
    writePacket packet.code packet.payload = .ok buffer
      ∧ packet.payload = buffer.drop 3 := by
  rcases buffer with _ | ⟨code, _ | ⟨high, _ | ⟨low, rest⟩⟩⟩
  · cases h
  · cases h
  · cases h
  · have hslice : slice (code :: high :: low :: rest) 1 3 = [high, low] :=
      rfl
    have hfirst : byteAt (code :: high :: low :: rest) 0 = code := rfl
    rw [arrived, if_neg (by simp), packetHeader, hslice, hfirst] at h
    split at h
    case h_1 => cases h
    case h_2 c more hheader =>
      split at hheader
      · cases hheader
      case isFalse hbound =>
        cases hheader
        split at h
        case isFalse => cases h
        case isTrue hlen =>
          cases h
          rw [List.length_cons, List.length_cons, List.length_cons] at hlen
          have hsize : rest.length + 3 = (beUint16 [high, low]).toNat := by
            omega
          refine ⟨?_, rfl⟩
          show writePacket code rest = _
          rw [writePacket, if_neg (by omega), hsize, UInt16.ofNat_toNat,
            put_beUint16 rfl]
          rfl

/-- The only packet a reader rejects is one whose length is wrong. -/
theorem error_of_arrived {e : LinkError}
    (h : arrived buffer = some (.error e)) : e = .packet .packetLength := by
  rw [arrived] at h
  split at h
  · cases h
  rw [packetHeader] at h
  split at h
  case h_1 e' herror =>
    split at herror
    · cases herror
      cases h
      rfl
    · cases herror
  case h_2 =>
    split at h <;> cases h

theorem length_of_arrived (h : arrived buffer = some (.ok packet)) :
    3 ≤ buffer.length := by
  by_contra hshort
  rw [arrived, if_pos (by omega)] at h
  cases h

/-- The first three bytes decide how long a packet is. -/
theorem packetHeader_append (maximum : Nat) (hlen : 3 ≤ buffer.length)
    (stream : Bytes) :
    packetHeader maximum (buffer ++ stream)
      = packetHeader maximum buffer := by
  rcases buffer with _ | ⟨code, _ | ⟨high, _ | ⟨low, rest⟩⟩⟩
  · cases hlen
  · simp at hlen
  · simp at hlen
  · rfl

/-- With the packet there, nothing of the answer is left. -/
theorem stream_of_arrived {stream : Bytes}
    (h : arrived buffer = some (.ok packet))
    (hdelimited : delimited (buffer ++ stream) = true) : stream = [] := by
  have hlen := length_of_arrived h
  rw [arrived, if_neg (by omega)] at h
  rw [delimited, packetHeader_append _ hlen] at hdelimited
  cases hheader : packetHeader 0xffff buffer with
  | error e =>
    rw [hheader] at h
    cases h
  | ok header =>
    simp only [hheader] at h hdelimited
    split at h
    case isFalse => cases h
    case isTrue hwhole =>
      have hle := of_decide_eq_true hdelimited
      rw [List.length_append] at hle
      exact List.length_eq_zero_iff.mp (by omega)

-- == the stages

theorem Link.Quiet.write (h : l.Quiet) (r : Request) :
    (l.write r).Awaits [] := by
  refine Awaits.unanswered h.read rfl ?_
  rw [Link.write, List.length_append, ← h.answered]
  rfl

theorem Link.answer_eq_some (h : l.answer reply = some l') :
    l.answers.length < l.requests.length
      ∧ l' = ⟨l.requests, l.answers ++ [reply], l.stream ++ reply⟩ := by
  rw [Link.answer] at h
  split at h
  case isTrue hopen =>
    cases h
    exact ⟨hopen, rfl⟩
  case isFalse => cases h

/-- A quiet link has nothing for the phone to answer. -/
theorem Link.Quiet.answer (h : l.Quiet) (reply : Bytes) :
    l.answer reply = none := by
  rw [Link.answer, if_neg]
  rw [h.answered]
  exact Nat.lt_irrefl _

theorem Link.Awaits.answer (h : l.Awaits buffer)
    (hanswer : l.answer reply = some l')
    (hdelimited : delimited reply = true) : l'.Awaits buffer := by
  obtain ⟨hopen, rfl⟩ := Link.answer_eq_some hanswer
  cases h with
  | unanswered hread hbuffer hcount =>
    refine .answered rfl ?_ ?_ hdelimited
    · rw [List.length_append]
      exact hcount
    · rw [hbuffer, hread]
      rfl
  | answered hanswers hcount hsplit hold => omega

/-- One byte more. -/
theorem Link.Awaits.read {b : UInt8} {stream : Bytes}
    (h : l.Awaits buffer) (hstream : l.stream = b :: stream) :
    Link.Awaits { l with stream := stream } (buffer ++ [b]) := by
  cases h with
  | unanswered hread hbuffer hcount =>
    rw [hread] at hstream
    cases hstream
  | answered hanswers hcount hsplit hdelimited =>
    refine .answered hanswers hcount ?_ hdelimited
    rw [← hsplit, hstream, List.append_assoc]
    rfl

/-- A packet has been read: it is the answer to the last request, and the
link is quiet again. -/
theorem Link.Awaits.arrived (h : l.Awaits buffer)
    (harrived : arrived buffer = some (.ok packet)) :
    l.Quiet ∧ ∃ earlier, l.answers = earlier ++ [buffer] := by
  cases h with
  | unanswered hread hbuffer hcount =>
    rw [hbuffer] at harrived
    cases harrived
  | @answered earlier reply hanswers hcount hsplit hdelimited =>
    rw [← hsplit] at hdelimited
    have hread := stream_of_arrived harrived hdelimited
    rw [hread, List.append_nil] at hsplit
    rw [← hsplit] at hanswers
    exact ⟨⟨hread, hcount⟩, earlier, hanswers⟩

-- == what was asked

/-- Before the request that is just written, every answer is there. -/
theorem Link.Quiet.earlier_write (h : l.Quiet) (r : Request) :
    (l.write r).answers.take ((l.write r).requests.length - 1)
      = l.answers := by
  have hcount : (l.write r).requests.length - 1 = l.answers.length := by
    rw [Link.write, List.length_append, h.answered]
    rfl
  rw [hcount]
  exact List.take_length

/-- An answer to the last request leaves those to the requests before. -/
theorem Link.Awaits.earlier_answer (h : l.Awaits buffer)
    (hanswer : l.answer reply = some l') :
    l'.answers.take (l'.requests.length - 1)
      = l.answers.take (l.requests.length - 1) := by
  obtain ⟨hopen, rfl⟩ := Link.answer_eq_some hanswer
  cases h with
  | unanswered hread hbuffer hcount =>
    have hle : l.requests.length - 1 ≤ l.answers.length := by omega
    exact List.take_append_of_le_length hle
  | answered hanswers hcount hsplit hdelimited => omega

theorem Link.Quiet.earlier_of_answers {earlier : List Bytes} (h : l.Quiet)
    (hanswers : l.answers = earlier ++ [reply]) :
    l.answers.take (l.requests.length - 1) = earlier := by
  have hall := h.answered
  rw [hanswers, List.length_append] at hall
  have hcount : l.requests.length - 1 = earlier.length :=
    Nat.sub_eq_of_eq_add hall.symm
  rw [hcount, hanswers, List.take_left]

end Callbridge.MapClient
