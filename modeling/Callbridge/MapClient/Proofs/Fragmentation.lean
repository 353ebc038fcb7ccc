/-
A body that is pushed arrives whole, in packets that fit.

`putBody` cuts the body as `Lib.Cut` says, with the room that the headers
leave in a packet; `putPackets` are the packets of such a cut. Each answer
moves the loop by one piece, so everything is an induction on the cut.
-/
import Callbridge.Lib.Chunks
import Callbridge.MapClient.Proofs.Requests

namespace Callbridge.MapClient

open Lib
open Obex

-- == packets

/-- The room for the body in a packet with these headers. -/
def Session.room (s : Session) (headers : Bytes) : Nat :=
  s.packetMax - 3 - headers.length - 3

def bodyHeader (final : Bool) (chunk : Bytes) : Header :=
  ⟨if final then headerEndOfBody else headerBody, chunk⟩

/-- The bytes of a body header that fits. -/
def encodedBody (final : Bool) (chunk : Bytes) : Bytes :=
  (bodyHeader final chunk).id
    :: bePutUint16 (UInt16.ofNat (chunk.length + 3)) ++ chunk

def putPacket (final : Bool) (headers chunk : Bytes) : Request :=
  ⟨if final then opPutFinal else opPut, headers ++ encodedBody final chunk⟩

/-- The packets of a body cut in pieces: `first` goes in front of the
first piece, `later` in front of all others, and the last packet is the
final one. -/
def putPackets (first later : Bytes) (chunks : List Bytes) :
    List Request :=
  chunks.mapIdx fun i chunk =>
    putPacket (i + 1 == chunks.length) (if i = 0 then first else later)
      chunk

theorem putPackets_single (first later chunk : Bytes) :
    putPackets first later [chunk] = [putPacket true first chunk] := rfl

/-- The first packet carries its own headers. -/
theorem putPackets_cons (first later chunk : Bytes) {chunks : List Bytes}
    (h : 0 < chunks.length) :
    putPackets first later (chunk :: chunks)
      = putPacket false first chunk :: putPackets later later chunks := by
  have hlast : (0 + 1 == (chunk :: chunks).length) = false := by
    simp only [List.length_cons, beq_eq_false_iff_ne]
    omega
  have htail : (fun i piece => putPacket
        (i + 1 + 1 == (chunk :: chunks).length)
        (if i + 1 = 0 then first else later) piece)
      = fun i piece => putPacket (i + 1 == chunks.length)
        (if i = 0 then later else later) piece := by
    funext i piece
    rw [List.length_cons, if_neg (by omega), ite_self]
    congr 1
    rw [Bool.eq_iff_iff, beq_iff_eq, beq_iff_eq]
    omega
  unfold putPackets
  rw [List.mapIdx_cons, hlast, htail, if_pos rfl]

theorem lengthKind_body (final : Bool) (chunk : Bytes) :
    lengthKind (bodyHeader final chunk).id := by
  cases final with
  | true => exact (by decide : lengthKind headerEndOfBody)
  | false => exact (by decide : lengthKind headerBody)

theorem mustHeader_body (final : Bool) {chunk : Bytes}
    (h : chunk.length + 3 ≤ 0xffff) :
    mustHeader (bodyHeader final chunk).id chunk
      = some (encodedBody final chunk) :=
  mustHeader_length (lengthKind_body final chunk) h

theorem length_putPacket (final : Bool) (headers chunk : Bytes) :
    (putPacket final headers chunk).payload.length
      = headers.length + 3 + chunk.length := by
  simp [putPacket, encodedBody]
  omega

-- == one turn

variable {s : Session} {headers body : Bytes}

/-- A packet whose chunk fits its room is written. -/
theorem request_putPacket (hopen : s.closed = false) (final : Bool)
    (chunk : Bytes) (hroom : 0 < s.room headers)
    (hfit : chunk.length ≤ s.room headers) (pending : Pending) :
    s.requestHeaders (putPacket final headers chunk).opcode
        ((mustHeader (bodyHeader final chunk).id chunk).map
          fun enc => headers ++ enc) pending
      = (s, .request (putPacket final headers chunk).opcode
          (putPacket final headers chunk).payload pending) := by
  have hmax := s.packetMax_le
  have hlen := length_putPacket final headers chunk
  unfold Session.room at hroom hfit
  rw [mustHeader_body final (by omega)]
  show s.request _ (putPacket final headers chunk).payload pending = _
  rw [Session.request, hopen, if_neg Bool.false_ne_true,
    if_neg (by omega)]

theorem putBody_last (hopen : s.closed = false)
    (hroom : 0 < s.room headers) (hfit : body.length ≤ s.room headers) :
    s.putBody headers body
      = (s, .request opPutFinal (putPacket true headers body).payload
          (.put true [])) := by
  have hsend := request_putPacket hopen true body hroom hfit
    (.put true [])
  unfold Session.room at hroom hfit
  rw [Session.putBody, if_neg (by omega), if_pos hfit]
  exact hsend

/-- A body that does not fit goes out up to its room. -/
theorem putBody_more (hopen : s.closed = false)
    (hroom : 0 < s.room headers) (hlong : s.room headers < body.length) :
    s.putBody headers body
      = (s, .request opPut
          (putPacket false headers (body.take (s.room headers))).payload
          (.put false (body.drop (s.room headers)))) := by
  have hsend := request_putPacket hopen false
    (body.take (s.room headers)) hroom (List.length_take_le _ _)
    (.put false (body.drop (s.room headers)))
  unfold Session.room at hroom hlong
  rw [Session.putBody, if_neg (by omega), if_neg (by omega)]
  exact hsend

-- == the whole loop

section Loop

variable {connection : Bytes} {chunks : List Bytes}

/-- The answers the protocol foresees for `n` packets. -/
def foreseen (n : Nat) : List UInt8 :=
  List.replicate (n - 1) responseContinue ++ [responseOK]

theorem foreseen_succ {n : Nat} (h : 0 < n) :
    foreseen (n + 1) = responseContinue :: foreseen n := by
  have hn : n + 1 - 1 = (n - 1) + 1 := by omega
  rw [foreseen, hn, List.replicate_succ]
  rfl

/-- An answer moves the loop to the next piece. -/
theorem resume_put_more (hconn : s.connectionHeader = some connection)
    {response : Packet} (hcode : response.code = responseContinue)
    (rest : Bytes) :
    s.resume (.put false rest) (.ok response)
      = s.putBody connection rest := by
  simp only [Session.resume]
  rw [Session.putAnswered, if_neg Bool.false_ne_true,
    if_neg (not_not.mpr hcode), hconn]

theorem resume_put_last {response : Packet}
    (hcode : response.code = responseOK) (rest : Bytes) :
    s.resume (.put true rest) (.ok response)
      = (s, .finished (.ok [])) := by
  simp only [Session.resume]
  rw [Session.putAnswered, if_pos rfl, if_neg (not_not.mpr hcode)]

/-- Any other answer ends the call with an error. -/
theorem resume_put_refused (s : Session) (final : Bool) (rest : Bytes)
    {answer : Except LinkError Packet}
    (hbad : ∀ response, answer = .ok response → response.code
      ≠ if final then responseOK else responseContinue) :
    ∃ e, s.resume (.put final rest) answer
      = (s, .finished (.error e)) := by
  cases answer with
  | error e => exact ⟨_, rfl⟩
  | ok response =>
    have hcode := hbad response rfl
    cases final with
    | true | false => exact ⟨_, if_pos hcode⟩

variable (hopen : s.closed = false)
  (hconn : s.connectionHeader = some connection)
  (hlater : 0 < s.room connection)
include hopen hconn hlater

/-- With the foreseen answers every packet goes out, and the call
succeeds. By induction on the cut, an answer for each piece. -/
theorem converse_accepted
    (hcut : Cut (s.room connection) (s.room headers) body chunks)
    (hroom : 0 < s.room headers) (answers : List Packet)
    (hans : answers.map Packet.code = foreseen chunks.length) :
    converse (s.putBody headers body) (answers.map .ok)
      = (putPackets headers connection chunks,
          (s, .finished (.ok []))) := by
  generalize hr : s.room headers = room at hcut
  induction hcut generalizing headers answers with
  | @last room body hfit =>
    subst hr
    obtain ⟨response, rfl⟩ : ∃ response, answers = [response] := by
      have hone := congrArg List.length hans
      rw [List.length_map] at hone
      exact List.length_eq_one_iff.mp hone
    have hcode : response.code = responseOK := by
      simpa [foreseen] using hans
    rw [putBody_last hopen hroom hfit, putPackets_single, List.map_cons,
      converse_request, resume_put_last hcode]
    rfl
  | @more room body chunks hlong hrest ih =>
    subst hr
    rw [List.length_cons, foreseen_succ hrest.length_pos] at hans
    cases answers with
    | nil => cases hans
    | cons response answers =>
      rw [List.map_cons, List.cons.injEq] at hans
      rw [putBody_more hopen hroom hlong,
        putPackets_cons headers connection _ hrest.length_pos,
        List.map_cons, converse_request, resume_put_more hconn hans.1,
        ih hlater answers hans.2 rfl]
      rfl

/-- After any number of foreseen answers that leaves a packet to be
answered, an answer that is not foreseen ends the call: no packet follows
the one it answers. -/
theorem converse_refused
    (hcut : Cut (s.room connection) (s.room headers) body chunks)
    (hroom : 0 < s.room headers) (accepted : List Packet)
    (hshort : accepted.length < chunks.length)
    (hcont : ∀ response ∈ accepted, response.code = responseContinue)
    (bad : Except LinkError Packet)
    (hbad : ∀ response, bad = .ok response → response.code
      ≠ if accepted.length + 1 = chunks.length then responseOK
        else responseContinue)
    (rest : List (Except LinkError Packet)) :
    ∃ e, converse (s.putBody headers body)
        (accepted.map .ok ++ bad :: rest)
      = ((putPackets headers connection chunks).take
          (accepted.length + 1), (s, .finished (.error e))) := by
  generalize hr : s.room headers = room at hcut
  -- on the cutting of the body, one accepted answer a chunk
  induction hcut generalizing headers accepted with
  | @last room body hfit =>
    subst hr
    have hnil : accepted = [] := by
      rw [List.length_singleton] at hshort
      exact List.length_eq_zero_iff.mp (by omega)
    subst hnil
    obtain ⟨e, he⟩ := resume_put_refused s true [] hbad
    refine ⟨e, ?_⟩
    rw [putBody_last hopen hroom hfit, putPackets_single, List.map_nil,
      List.nil_append, converse_request, he, converse_finished]
    rfl
  | @more room body chunks hlong hrest ih =>
    subst hr
    have hpos := hrest.length_pos
    rw [putBody_more hopen hroom hlong,
      putPackets_cons headers connection _ hpos]
    cases accepted with
    | nil =>
      -- refused at once, with more to send
      have hmore : ¬ (0 + 1 = chunks.length + 1) := by omega
      simp only [List.length_nil, List.length_cons, if_neg hmore] at hbad
      obtain ⟨e, he⟩ := resume_put_refused s false
        (body.drop (s.room headers)) hbad
      refine ⟨e, ?_⟩
      rw [List.map_nil, List.nil_append, converse_request, he,
        converse_finished]
      rfl
    | cons response accepted =>
      rw [List.length_cons, List.length_cons] at hshort hbad
      simp only [Nat.add_right_cancel_iff] at hbad
      obtain ⟨e, he⟩ := ih hlater accepted (by omega)
        (fun r hr => hcont r (List.mem_cons_of_mem _ hr)) hbad rfl
      refine ⟨e, ?_⟩
      rw [List.map_cons, List.cons_append, converse_request,
        resume_put_more hconn (hcont response List.mem_cons_self), he,
        List.length_cons, List.take_succ_cons]
      rfl

omit hopen hconn hlater in
/-- No packet is larger than what was negotiated. -/
theorem length_putPackets_le
    (hcut : Cut (s.room connection) (s.room headers) body chunks)
    (hroom : 0 < s.room headers) (hlater : 0 < s.room connection) :
    ∀ packet ∈ putPackets headers connection chunks,
      packet.payload.length + 3 ≤ s.packetMax := by
  generalize hr : s.room headers = room at hcut
  induction hcut generalizing headers with
  | @last room body hfit =>
    subst hr
    intro packet hmem
    rw [putPackets_single, List.mem_singleton] at hmem
    subst hmem
    rw [length_putPacket]
    unfold Session.room at hroom hfit
    omega
  | @more room body chunks hlong hrest ih =>
    subst hr
    intro packet hmem
    rw [putPackets_cons headers connection _ hrest.length_pos,
      List.mem_cons] at hmem
    rcases hmem with rfl | hmem
    · have htake := List.length_take_le (s.room headers) body
      rw [length_putPacket]
      unfold Session.room at hroom htake ⊢
      omega
    · exact ih hlater rfl packet hmem

end Loop

-- == collecting it again

/-- What body headers among these hold. -/
def ownBody (headers : List Header) : Bytes :=
  collectBody headers headerBody headerEndOfBody

theorem collectBody_append (hs ks : List Header) (bodyID endID : UInt8) :
    collectBody (hs ++ ks) bodyID endID
      = collectBody hs bodyID endID ++ collectBody ks bodyID endID := by
  simp [collectBody]

theorem collectBody_bodyHeader (final : Bool) (chunk : Bytes) :
    collectBody [bodyHeader final chunk] headerBody headerEndOfBody
      = chunk := by
  cases final with
  | true | false => simp [collectBody, bodyHeader]

/-- A packet carries its chunk. -/
theorem payloadBody_putPacket {block : List Header}
    (hblock : EncodesAll block headers)
    (final : Bool) (chunk : Bytes) (hfit : chunk.length + 3 ≤ 0xffff) :
    payloadBody (putPacket final headers chunk).payload
      = ownBody block ++ chunk := by
  have hbody : EncodesAll [bodyHeader final chunk]
      (encodedBody final chunk) :=
    encodesAll_singleton (mustHeader_eq_some.mp (mustHeader_body final hfit))
  have hall := hblock.append hbody
  have hparse : parseHeaders (headers ++ encodedBody final chunk) 0
      = .ok (block ++ [bodyHeader final chunk]) :=
    (parseHeaders_eq_ok (Nat.zero_le _)).mpr hall
  rw [putPacket, payloadBody, hparse]
  show collectBody (block ++ [bodyHeader final chunk]) _ _ = _
  rw [collectBody_append, collectBody_bodyHeader]
  rfl

/-- The continuation headers hold no body, so only what the first block
holds of its own comes in front. -/
theorem payloadBody_putPackets {first later : Bytes}
    {firstBlock laterBlock : List Header}
    (hfirst : EncodesAll firstBlock first)
    (hlater : EncodesAll laterBlock later) (hnone : ownBody laterBlock = [])
    (chunks : List Bytes) (hchunks : 0 < chunks.length)
    (hfit : ∀ packet ∈ putPackets first later chunks,
      packet.payload.length ≤ 0xffff) :
    (putPackets first later chunks).flatMap
        (fun packet => payloadBody packet.payload)
      = ownBody firstBlock ++ chunks.flatten := by
  induction chunks generalizing first firstBlock with
  | nil => cases hchunks
  | cons chunk chunks ih =>
    by_cases hlast : chunks = []
    · subst hlast
      rw [putPackets_single] at hfit ⊢
      have hsize := hfit _ List.mem_cons_self
      rw [length_putPacket] at hsize
      simp [payloadBody_putPacket hfirst true chunk (by omega)]
    · have hpos := List.length_pos_iff.mpr hlast
      rw [putPackets_cons first later chunk hpos] at hfit ⊢
      have hsize := hfit _ List.mem_cons_self
      rw [length_putPacket] at hsize
      rw [List.flatMap_cons, List.flatten_cons,
        payloadBody_putPacket hfirst false chunk (by omega),
        ih hlater hpos fun packet hp =>
          hfit packet (List.mem_cons_of_mem _ hp),
        hnone, List.nil_append, List.append_assoc]

-- == the theorem

/-- What pushing a body in these pieces amounts to. -/
structure Fragments (s : Session) (first connection body : Bytes)
    (chunks : List Bytes) : Prop where
  /-- The pieces are the body. -/
  whole : chunks.flatten = body
  /-- What is written for a packet is no longer than was negotiated. -/
  fits : ∀ packet ∈ putPackets first connection chunks,
    ∃ bytes, writePacket packet.opcode packet.payload = .ok bytes
      ∧ bytes.length ≤ s.packetMax
  /-- Whatever headers the first block is made of, the receiver collects
  the body from the packets, behind what those hold themselves. -/
  collected : ∀ block, EncodesAll block first →
    (putPackets first connection chunks).flatMap
      (fun packet => payloadBody packet.payload) = ownBody block ++ body
  /-- A peer that answers Continue to every packet but the final one, and
  OK to that, gets exactly these packets, and the call succeeds. -/
  accepted : ∀ answers : List Packet,
    answers.map Packet.code = foreseen chunks.length →
    converse (s.putBody first body) (answers.map .ok)
      = (putPackets first connection chunks, (s, .finished (.ok [])))
  /-- With any other answer, or none, the call fails and sends nothing
  more. -/
  refused : ∀ accepted : List Packet, accepted.length < chunks.length →
    (∀ response ∈ accepted, response.code = responseContinue) →
    ∀ bad : Except LinkError Packet,
      (∀ response, bad = .ok response → response.code
        ≠ if accepted.length + 1 = chunks.length then responseOK
          else responseContinue) →
      ∀ rest, ∃ e, converse (s.putBody first body)
          (accepted.map .ok ++ bad :: rest)
        = ((putPackets first connection chunks).take
            (accepted.length + 1), (s, .finished (.error e)))

/-- Whatever the body and the packet size, as long as both kinds of
headers leave room for a byte. -/
theorem putBody_fragments (s : Session) (hopen : s.closed = false)
    (first connection body : Bytes)
    (hconn : s.connectionHeader = some connection)
    (hfirst : first.length + 7 ≤ s.packetMax)
    (hlater : connection.length + 7 ≤ s.packetMax) :
    ∃ chunks, Fragments s first connection body chunks := by
  have hmax := s.packetMax_le
  have hroom : 0 < s.room first := by
    unfold Session.room
    omega
  have hroom' : 0 < s.room connection := by
    unfold Session.room
    omega
  obtain ⟨chunks, hcut⟩ := exists_cut hroom' hroom body
  have hfits := length_putPackets_le hcut hroom hroom'
  refine ⟨chunks, hcut.flatten, ?_, ?_, ?_, ?_⟩
  · intro packet hp
    have hsize := hfits packet hp
    refine ⟨_, if_neg (by omega), ?_⟩
    simp
    omega
  · intro block hblock
    have hconnection : EncodesAll
        [⟨headerConnectionID, bePutUint32 s.connection⟩] connection :=
      encodesAll_singleton (mustHeader_eq_some.mp hconn)
    rw [payloadBody_putPackets hblock hconnection rfl chunks hcut.length_pos
      fun packet hp => (by have := hfits packet hp; omega), hcut.flatten]
  · exact converse_accepted hopen hconn hroom' hcut hroom
  · intro accepted hshort hcont bad hbad rest
    exact converse_refused hopen hconn hroom' hcut hroom accepted hshort
      hcont bad hbad rest

/-- The first headers of a push hold no body, so its packets hold exactly
the message. -/
theorem push_collected {s : Session} {transparent retry : Bool}
    {first connection body : Bytes} {chunks : List Bytes}
    (hfirst : s.pushHeaders transparent retry = some first)
    (h : Fragments s first connection body chunks) :
    (putPackets first connection chunks).flatMap
      (fun packet => payloadBody packet.payload) = body := by
  unfold Session.pushHeaders Session.connectionHeader at hfirst
  simp only [Option.bind_eq_bind, Option.bind_eq_some_iff,
    Option.some.injEq] at hfirst
  obtain ⟨connection, hconn, type, htype, params, hparams, rfl⟩ := hfirst
  have hblock := ((encodesAll_singleton (mustHeader_eq_some.mp hconn)).append
    (encodesAll_singleton (mustHeader_eq_some.mp htype))).append
    (encodesAll_singleton (mustHeader_eq_some.mp hparams))
  exact h.collected _ hblock

/-- A body of twenty bytes in packets of twenty. -/
theorem putBody_fragments_twenty :
    ∃ chunks, Fragments ⟨false, 7, 20, [], by decide⟩
      [headerConnectionID, 0, 0, 0, 7] [headerConnectionID, 0, 0, 0, 7]
      (List.replicate 20 0x61) chunks :=
  putBody_fragments ⟨false, 7, 20, [], by decide⟩ rfl
    [headerConnectionID, 0, 0, 0, 7] [headerConnectionID, 0, 0, 0, 7]
    (List.replicate 20 0x61) (by decide) (by decide) (by decide)

end Callbridge.MapClient
