/-
When answers match requests.

`request` pairs an answer with a request by nothing but order. A request
that fails may leave the link unquiet, and all the loop can do is give the
session up. If each caller that meets such a failure does (`contained`),
then

- the link is quiet wherever the loop is about to use it (`InStep`), and
  every packet it reads answers the request it has just made;
- a call for a message collects the bodies of the answers to its own,
  consecutive requests (`Fetching`).

`processEvent` does not between attempts, and `poll`, `executeCommand` and
the last attempt do not after a malformed length.
-/
import Callbridge.MapClient.Proofs.Link
import Callbridge.MapClient.Proofs.Fetch
import Callbridge.Bridge.Connected

namespace Callbridge.Bridge

open Lib MapClient Obex

-- == condition

/-- The caller gives the session up after this error. -/
def Errand.yields : Errand → MapError → Bool
  | .keepalive, _ => true
  | .outbound _ _, _ => true
  | .command _, e => isTransportError e
  | .listing _, e => isTransportError e
  | .message _ _ later _, e => later == 0 && isTransportError e

/-- The call whose request is under way. -/
def Stage.errand : Stage → Option Errand
  | .writing errand _ _ _ => some errand
  | .reading errand _ _ => some errand
  | _ => none

/-- The next byte makes the answer's length malformed. -/
def Connected.malformed (c : Connected) : Bool :=
  match c.stage, c.link.stream with
  | .reading _ _ buffer, b :: _ =>
      match arrived (buffer ++ [b]) with
      | some (.error _) => true
      | _ => false
  | _, _ => false

/-- `poll` has lost the session to a message it could not fetch. -/
def Stage.lost : Stage → Bool
  | .marking e (some _) => isTransportError e
  | _ => false

/-- No request fails here under a caller that goes on with the session,
no failure to mark a message covers up such a failure, and the phone sends
nothing past the length it gives. -/
def contained (c : Connected) : ConnectedAct → Bool
  | .write (some e) => c.stage.errand.all fun errand =>
      errand.yields (.link e)
  | .readFailed e => c.stage.errand.all fun errand =>
      errand.yields (.link e)
  | .read => !c.malformed || c.stage.errand.all fun errand =>
      errand.yields (.link (.packet .packetLength))
  | .markSeen (some false) => !c.stage.lost
  | .answer reply => delimited reply
  | _ => true

-- == moves

/-- The loop is not in a call and not at its end. -/
def Stage.between : Stage → Bool
  | .selecting | .draining | .listed | .polling _ | .fetching _ _ _ _
  | .fetched _ => true
  | .marking _ _ | .writing _ _ _ _ | .reading _ _ _ | .returned
  | .crashed => false

/-- What a step can do. -/
inductive ConnectedMove (c : Connected) :
    ConnectedAct → Connected → List ConnectedEvent → Prop
  | went {a : ConnectedAct} {stage : Stage}
      (hbetween : c.stage.between = true)
      (hstage : stage.between = true ∨ stage = .returned) :
      ConnectedMove c a { c with stage := stage } []
  | marked {e : MapError} {polling : Option (List Bytes)}
      {failure : Option Bool} (hstage : c.stage = .marking e polling) :
      ConnectedMove c (.markSeen failure)
        { c with stage := .afterEvent polling (failure <|>
          if isTransportError e then some true else none) } []
  | began {a : ConnectedAct} {errand : Errand}
      (hbetween : c.stage.between = true) :
      ConnectedMove c a (c.begin errand).1 (c.begin errand).2
  | wrote {errand : Errand} {opcode : UInt8} {payload : Bytes}
      {pending : Pending}
      (hstage : c.stage = .writing errand opcode payload pending) :
      ConnectedMove c (.write none)
        ⟨c.session, c.link.write ⟨opcode, payload⟩,
          .reading errand pending []⟩ []
  | unwritten {errand : Errand} {opcode : UInt8} {payload : Bytes}
      {pending : Pending} {e : LinkError}
      (hstage : c.stage = .writing errand opcode payload pending) :
      ConnectedMove c (.write (some e))
        (c.resume errand pending (.error e)).1
        (c.resume errand pending (.error e)).2
  | took {errand : Errand} {pending : Pending} {buffer stream : Bytes}
      {b : UInt8} (hstage : c.stage = .reading errand pending buffer)
      (hstream : c.link.stream = b :: stream)
      (hmore : arrived (buffer ++ [b]) = none) :
      ConnectedMove c .read
        ⟨c.session, { c.link with stream := stream },
          .reading errand pending (buffer ++ [b])⟩ []
  | malformed {errand : Errand} {pending : Pending}
      {buffer stream : Bytes} {b : UInt8} {e : LinkError}
      (hstage : c.stage = .reading errand pending buffer)
      (hstream : c.link.stream = b :: stream)
      (hbad : arrived (buffer ++ [b]) = some (.error e)) :
      ConnectedMove c .read
        (errand.place { c.link with stream := stream }
          (c.session.resume pending (.error e))).1
        (errand.place { c.link with stream := stream }
          (c.session.resume pending (.error e))).2
  | answered {errand : Errand} {pending : Pending}
      {buffer stream : Bytes} {b : UInt8} {packet : Packet}
      (hstage : c.stage = .reading errand pending buffer)
      (hstream : c.link.stream = b :: stream)
      (hpacket : arrived (buffer ++ [b]) = some (.ok packet)) :
      ConnectedMove c .read
        (errand.place { c.link with stream := stream }
          (c.session.resume pending (.ok packet))).1
        (.received (c.link.requests.length - 1) packet
          :: (errand.place { c.link with stream := stream }
            (c.session.resume pending (.ok packet))).2)
  | unread {errand : Errand} {pending : Pending} {buffer : Bytes}
      {e : LinkError} (hstage : c.stage = .reading errand pending buffer) :
      ConnectedMove c (.readFailed e)
        (c.resume errand pending (.error e)).1
        (c.resume errand pending (.error e)).2
  | replied {reply : Bytes} {link : Link}
      (hanswer : c.link.answer reply = some link) :
      ConnectedMove c (.answer reply) { c with link := link } []

variable {c c' : Connected} {a : ConnectedAct} {es : List ConnectedEvent}
  {errand : Errand} {pending : Pending} {handle : Bytes}
  {x : Session × Progress} {s : Session} {l : Link} {stage : Stage}
  {packet : Packet}

/-- After an event the loop is between errands, or returns. -/
theorem between_afterEvent (polling : Option (List Bytes))
    (failure : Option Bool) :
    (Stage.afterEvent polling failure).between = true
      ∨ Stage.afterEvent polling failure = .returned := by
  cases polling with
  | none =>
    cases failure with
    | none => exact Or.inl rfl
    | some transport => exact Or.inr rfl
  | some rest =>
    cases failure with
    | none => exact Or.inl rfl
    | some transport =>
      cases transport with
      | true => exact Or.inr rfl
      | false => exact Or.inl rfl

theorem ConnectedMove.of_some {x : Connected × List ConnectedEvent}
    (hmove : ConnectedMove c a x.1 x.2)
    (h : some x = some (c', es)) : ConnectedMove c a c' es := by
  obtain rfl := Option.some.inj h
  exact hmove

/-- A step that is taken in one stage only. -/
theorem ConnectedMove.of_stage {x : Connected × List ConnectedEvent}
    {p : Prop} [Decidable p] (hmove : p → ConnectedMove c a x.1 x.2)
    (h : (if p then some x else none) = some (c', es)) :
    ConnectedMove c a c' es := by
  split at h
  case isTrue hp => exact (hmove hp).of_some h
  case isFalse => cases h

/-- Every step is one of the moves. -/
theorem ConnectedMove.of_step
    (hstep : connectedStep c a = some (c', es)) :
    ConnectedMove c a c' es := by
  -- a step between two exchanges leaves the link alone
  have hwent : ∀ {stage : Stage}, c.stage = stage → stage.between = true →
      ∀ {a : ConnectedAct} {next : Stage}, next.between = true
        ∨ next = .returned → ConnectedMove c a (c.goTo next).1
          (c.goTo next).2 := by
    intro stage hstage hbetween a next hnext
    exact .went (by rw [hstage]; exact hbetween) hnext
  cases a with
  | wake | event folder handle =>
    exact .of_stage (fun h => hwent h rfl (Or.inl rfl)) hstep
  | command call =>
    exact .of_stage (fun h => .began (by rw [h.1]; rfl)) hstep
  | poll maximum | keepalive =>
    exact .of_stage (fun h => .began (by rw [h]; rfl)) hstep
  | cancelled =>
    exact .of_stage (fun h => hwent h rfl (Or.inr rfl)) hstep
  | sendSMS destination text =>
    exact .of_stage (fun h => .began (by rw [h]; rfl)) hstep
  | drained failed =>
    refine .of_stage (fun h => hwent h rfl ?_) hstep
    cases failed with
    | true => exact Or.inr rfl
    | false => exact Or.inl rfl
  -- a body that does not parse sends `poll` back to the select
  | listed handles =>
    cases handles with
    | none | some handles =>
      exact .of_stage (fun h => hwent h rfl (Or.inl rfl)) hstep
  | pollNext =>
    rw [connectedStep] at hstep
    split at hstep
    case h_1 hstage =>
      exact (hwent hstage rfl (Or.inl rfl)).of_some hstep
    case h_2 handle rest hstage =>
      exact (hwent hstage rfl (Or.inl rfl)).of_some hstep
    case h_3 => cases hstep
  | attempt slept =>
    rw [connectedStep] at hstep
    split at hstep
    case h_1 folder handle left polling hstage =>
      -- the get goes ahead unless the pause was cut short
      split at hstep
      · exact (ConnectedMove.began (by rw [hstage]; rfl)).of_some hstep
      · exact (hwent hstage rfl (between_afterEvent _ _)).of_some hstep
    case h_2 => cases hstep
  | processed failure =>
    rw [connectedStep] at hstep
    split at hstep
    case h_1 polling hstage =>
      exact (hwent hstage rfl (between_afterEvent _ _)).of_some hstep
    case h_2 => cases hstep
  | markSeen failure =>
    rw [connectedStep] at hstep
    split at hstep
    case h_1 e polling hstage =>
      exact (ConnectedMove.marked hstage).of_some hstep
    case h_2 => cases hstep
  | write failure =>
    rw [connectedStep] at hstep
    split at hstep
    case h_1 errand opcode payload pending hstage =>
      cases failure with
      | none => exact (ConnectedMove.wrote hstage).of_some hstep
      | some e => exact .of_stage (fun _ => .unwritten hstage) hstep
    case h_2 => cases hstep
  | read =>
    rw [connectedStep] at hstep
    split at hstep
    case h_1 errand pending buffer b stream hstage hstream =>
      refine ConnectedMove.of_some ?_ hstep
      -- the byte completes a packet, spoils it or asks for more
      unfold Connected.readByte
      split
      case h_1 hmore => exact .took hstage hstream hmore
      case h_2 e hbad => exact .malformed hstage hstream hbad
      case h_3 packet hpacket => exact .answered hstage hstream hpacket
    case h_2 => cases hstep
  | readFailed e =>
    rw [connectedStep] at hstep
    split at hstep
    case h_1 errand pending buffer hstage =>
      exact .of_stage (fun _ => .unread hstage) hstep
    case h_2 => cases hstep
  | answer reply =>
    rw [connectedStep] at hstep
    split at hstep
    case h_1 link hanswer =>
      exact (ConnectedMove.replied hanswer).of_some hstep
    case h_2 => cases hstep

-- == in step

/-- The link is quiet wherever the loop may use it next. -/
def InStep (c : Connected) : Prop :=
  match c.stage with
  | .returned | .crashed => True
  | .marking e _ => isTransportError e = false → c.link.Quiet
  | .reading _ _ buffer => c.link.Awaits buffer
  | _ => c.link.Quiet

theorem inStep_of_quiet (h : l.Quiet) (hstage : stage.errand = none) :
    InStep ⟨s, l, stage⟩ := by
  cases stage with
  | reading errand pending buffer => cases hstage
  | marking e polling => exact fun _ => h
  | returned | crashed => exact trivial
  | _ => exact h

theorem InStep.quiet (h : InStep c) (hbetween : c.stage.between = true) :
    c.link.Quiet := by
  obtain ⟨s, l, stage⟩ := c
  cases stage with
  | marking e polling | writing errand opcode payload pending
  | reading errand pending buffer | returned | crashed => cases hbetween
  | _ => exact h

/-- With its result the caller is out of the call. -/
theorem errand_after (errand : Errand) (result : Except MapError Bytes) :
    (errand.after result).errand = none := by
  have hunless : ∀ transport, (Stage.unless transport).errand = none := by
    intro transport
    cases transport <;> rfl
  cases errand with
  | keepalive | outbound destination text => cases result <;> rfl
  | command call | listing maximum =>
    cases result with
    | ok raw => rfl
    | error e => exact hunless _
  | message folder handle later polling =>
    cases result with
    | ok raw => rfl
    | error e =>
      simp only [Errand.after]
      split <;> rfl

theorem errand_of_between (h : stage.between = true ∨ stage = .returned) :
    stage.errand = none := by
  rcases h with h | rfl
  · cases stage with
    | writing errand opcode payload pending | reading errand pending buffer =>
      cases h
    | _ => rfl
  · rfl

/-- On a quiet link a call may go on or return. -/
theorem inStep_place (h : l.Quiet) (errand : Errand) (x : Session × Progress) :
    InStep (errand.place l x).1 := by
  obtain ⟨s, progress⟩ := x
  cases progress with
  | request opcode payload pending => exact h
  | finished result =>
    exact inStep_of_quiet h (errand_after errand result)
  | panicked => exact trivial

/-- After a failed request the caller gives the session up, at once or
after it has marked the message. -/
theorem inStep_failed {e : LinkError}
    (hyields : errand.yields (.link e) = true) (l : Link) (s : Session)
    (pending : Pending) :
    InStep (errand.place l (s.resume pending (.error e))).1 := by
  show InStep ⟨_, l, errand.after (.error (.link e))⟩
  cases errand with
  | keepalive | outbound destination text => exact trivial
  | command call | listing maximum =>
    have hlost : isTransportError (.link e) = true := hyields
    simp only [Errand.after, hlost]
    exact trivial
  | message folder handle later polling =>
    rw [Errand.yields, Bool.and_eq_true, beq_iff_eq] at hyields
    obtain ⟨hlast, hlost⟩ := hyields
    simp only [Errand.after]
    rw [if_pos hlast]
    intro hkept
    rw [hlost] at hkept
    cases hkept

theorem all_errand {p : Errand → Bool}
    (h : c.stage.errand.all p = true) (he : c.stage.errand = some errand) :
    p errand = true := by
  rw [he] at h
  exact h

/-- A session lost to a message is left, unless a failure to mark the
message hides it from `poll`. -/
theorem afterEvent_lost {polling : Option (List Bytes)}
    {failure : Option Bool} (h : polling = none ∨ failure ≠ some false) :
    Stage.afterEvent polling (failure <|> some true) = .returned := by
  cases polling with
  | none => cases failure <;> rfl
  | some rest =>
    obtain hnone | hfailure := h
    · cases hnone
    cases failure with
    | none => rfl
    | some transport =>
      cases transport with
      | true => rfl
      | false => exact absurd rfl hfailure

/-- One step. -/
theorem InStep.step (h : InStep c) (hmove : ConnectedMove c a c' es)
    (hcontained : contained c a = true) : InStep c' := by
  cases hmove with
  | @went a stage hbetween hstage =>
    exact inStep_of_quiet (h.quiet hbetween) (errand_of_between hstage)
  | @marked e polling failure hstage =>
    rw [InStep, hstage] at h
    cases hlost : isTransportError e with
    | false =>
      exact inStep_of_quiet (h hlost)
        (errand_of_between (between_afterEvent _ _))
    | true =>
      -- a transport error ends the session: nothing to keep in step
      have hfailure : polling = none ∨ failure ≠ some false := by
        cases polling with
        | none => exact Or.inl rfl
        | some rest =>
          right
          rintro rfl
          rw [contained, hstage, Stage.lost, hlost] at hcontained
          cases hcontained
      rw [InStep, if_pos rfl, afterEvent_lost hfailure]
      exact trivial
  | began hbetween => exact inStep_place (h.quiet hbetween) _ _
  | wrote hstage =>
    rw [InStep, hstage] at h
    exact h.write _
  | unwritten hstage =>
    have hyields := all_errand hcontained (by rw [hstage]; rfl)
    exact inStep_failed hyields _ _ _
  | took hstage hstream hmore =>
    rw [InStep, hstage] at h
    exact h.read hstream
  | @malformed errand pending buffer stream b e hstage hstream hbad =>
    -- its caller gives the session up
    have hbad' : c.malformed = true := by
      rw [Connected.malformed, hstage, hstream]
      simp only [hbad]
    rw [contained, hbad', Bool.not_true, Bool.false_or] at hcontained
    have hyields := all_errand hcontained (by rw [hstage]; rfl)
    rw [error_of_arrived hbad]
    exact inStep_failed hyields _ _ _
  | answered hstage hstream hpacket =>
    rw [InStep, hstage] at h
    obtain ⟨hquiet, -⟩ := (h.read hstream).arrived hpacket
    exact inStep_place hquiet _ _
  | unread hstage =>
    have hyields := all_errand hcontained (by rw [hstage]; rfl)
    exact inStep_failed hyields _ _ _
  | @replied reply link hanswer =>
    obtain ⟨s, l, stage⟩ := c
    cases stage with
    | returned | crashed => exact trivial
    | marking e polling =>
      intro hkept
      have hnone := (h hkept).answer reply
      rw [hanswer] at hnone
      cases hnone
    | reading errand pending buffer => exact h.answer hanswer hcontained
    | _ =>
      -- no request is open, so none can be answered
      have hnone := Link.Quiet.answer h reply
      rw [hanswer] at hnone
      cases hnone

-- == fetching

/-- The body an answer holds. -/
def replyBody (reply : Bytes) : Bytes := payloadBody (reply.drop 3)

/-- The requests for a message: the first names it, the others ask for
more of it. -/
inductive Asks (s : Session) (handle : Bytes) : List Request → Prop
  | first {payload : Bytes} (h : s.messageHeaders handle = some payload) :
      Asks s handle [⟨opGetFinal, payload⟩]
  | more {rs : List Request} {payload : Bytes} (h : Asks s handle rs)
      (hmore : s.connectionHeader = some payload) :
      Asks s handle (rs ++ [⟨opGetFinal, payload⟩])

/-- The last requests are for the message, and the body is that of the
answers to them. -/
def Gathers (s : Session) (handle : Bytes) (requests : List Request)
    (answers : List Bytes) (body : Bytes) : Prop :=
  ∃ k ≤ answers.length, k ≤ requests.length
    ∧ Asks s handle (requests.drop k)
    ∧ body = (answers.drop k).flatMap replyBody

/-- A call for a message is on its way or has gathered what was
answered. -/
def Fetching (c : Connected) : Prop :=
  match c.stage with
  | .writing errand opcode payload pending =>
      ∀ folder handle, errand.call = .get folder handle →
        pending.toward handle ∨ ∃ body, pending = .get body
          ∧ Gathers c.session handle
            (c.link.requests ++ [⟨opcode, payload⟩]) c.link.answers body
  | .reading errand pending _ =>
      ∀ folder handle, errand.call = .get folder handle →
        pending.toward handle ∨ ∃ body, pending = .get body
          ∧ Gathers c.session handle c.link.requests
            (c.link.answers.take (c.link.requests.length - 1)) body
  | _ => True

/-- What a call for a message has come to, with this link. -/
def Fares (l : Link) (handle : Bytes) : Session × Progress → Prop
  | (s, .request opcode payload pending) =>
      pending.toward handle ∨ ∃ body, pending = .get body
        ∧ Gathers s handle (l.requests ++ [⟨opcode, payload⟩]) l.answers
          body
  | (s, .finished (.ok raw)) => Gathers s handle l.requests l.answers raw
  | (_, .finished (.error _)) => True
  | (_, .panicked) => True

/-- What is returned for a handle is what was answered for it. -/
def Delivers (c : Connected) (es : List ConnectedEvent) : Prop :=
  ∀ handle raw, .delivered handle raw ∈ es →
    Gathers c.session handle c.link.requests c.link.answers raw

/-- A call just made, on a quiet link. -/
theorem fares_of_seeks (hquiet : l.Quiet) (h : Seeks handle x) :
    Fares l handle x := by
  obtain ⟨s, progress⟩ := x
  cases progress with
  | panicked => exact trivial
  | finished result =>
    obtain ⟨e, rfl⟩ := h
    exact trivial
  | request opcode payload pending =>
    rcases h with htoward | ⟨rfl, rfl, hheaders⟩
    · exact Or.inl htoward
    · refine Or.inr ⟨[], rfl, l.requests.length, ?_, ?_, ?_, ?_⟩
      · exact Nat.le_of_eq hquiet.answered.symm
      · rw [List.length_append]
        exact Nat.le_add_right _ _
      · rw [List.drop_left]
        exact Asks.first hheaders
      · rw [← hquiet.answered, List.drop_length]
        rfl

/-- A packet more: its body is behind what was gathered. -/
theorem fares_of_turn {body buffer : Bytes} {earlier : List Bytes}
    (hgathers : Gathers s handle l.requests earlier body)
    (hanswers : l.answers = earlier ++ [buffer])
    (hpayload : packet.payload = buffer.drop 3)
    (hturn : Turn s body packet x) : Fares l handle x := by
  obtain ⟨k, hk, hreq, hasks, hbody⟩ := hgathers
  have hk' : k ≤ l.answers.length := by
    rw [hanswers, List.length_append]
    omega
  have hall : body ++ payloadBody packet.payload
      = (l.answers.drop k).flatMap replyBody := by
    rw [hanswers, List.drop_append_of_le_length hk, List.flatMap_append,
      ← hbody, hpayload]
    simp [replyBody]
  cases hturn with
  | failed e => exact trivial
  | done => exact ⟨k, hk', hreq, hasks, hall⟩
  | more hmore =>
    refine Or.inr ⟨_, rfl, k, hk', ?_, ?_, hall⟩
    · rw [List.length_append]
      omega
    · rw [List.drop_append_of_le_length hreq]
      exact hasks.more hmore

theorem fetching_of_none (h : stage.errand = none) :
    Fetching ⟨s, l, stage⟩ := by
  cases stage with
  | writing errand opcode payload pending | reading errand pending buffer =>
    cases h
  | _ => exact trivial

/-- What the errand does with the answer it has read. -/
theorem fetching_place (h : ∀ folder handle,
      errand.call = .get folder handle → Fares l handle x) :
    Fetching (errand.place l x).1
      ∧ Delivers (errand.place l x).1 (errand.place l x).2 := by
  obtain ⟨s, progress⟩ := x
  cases progress with
  | request opcode payload pending =>
    refine ⟨h, ?_⟩
    intro handle raw hmem
    cases List.mem_singleton.mp hmem
  | panicked => exact ⟨trivial, by rintro handle raw ⟨⟩⟩
  | finished result =>
    refine ⟨fetching_of_none (errand_after errand result), ?_⟩
    intro handle raw hmem
    simp only [Errand.place, Errand.delivers] at hmem
    split at hmem
    case h_1 folder handle' raw' hcall =>
      obtain ⟨rfl, rfl⟩ := ConnectedEvent.delivered.inj
        (List.mem_singleton.mp hmem)
      exact h folder handle hcall
    case h_2 => cases hmem

/-- One step. -/
theorem Fetching.step (h : Fetching c) (hin : InStep c)
    (hmove : ConnectedMove c a c' es) :
    Fetching c' ∧ Delivers c' es := by
  have hsilent : ∀ {c' : Connected}, Delivers c' [] := by
    rintro c' handle raw ⟨⟩
  cases hmove with
  | went hbetween hstage =>
    exact ⟨fetching_of_none (errand_of_between hstage), hsilent⟩
  | marked hstage =>
    exact ⟨fetching_of_none (errand_of_between (between_afterEvent _ _)),
      hsilent⟩
  | @began a errand hbetween =>
    apply fetching_place
    intro folder handle hcall
    rw [hcall]
    exact fares_of_seeks (hin.quiet hbetween) (seeks_call _ folder handle)
  | @wrote errand opcode payload pending hstage =>
    refine ⟨?_, hsilent⟩
    rw [InStep, hstage] at hin
    rw [Fetching, hstage] at h
    intro folder handle hcall
    rcases h folder handle hcall with htoward | ⟨body, hpending, hgathers⟩
    · exact Or.inl htoward
    · refine Or.inr ⟨body, hpending, ?_⟩
      -- the write adds a request; the earlier answers stay
      rw [hin.earlier_write]
      exact hgathers
  | unwritten hstage => exact fetching_place fun _ _ _ => trivial
  | took hstage hstream hmore =>
    rw [Fetching, hstage] at h
    exact ⟨h, hsilent⟩
  | malformed hstage hstream hbad =>
    exact fetching_place fun _ _ _ => trivial
  | @answered errand pending buffer stream b packet hstage hstream hpacket =>
    rw [InStep, hstage] at hin
    rw [Fetching, hstage] at h
    obtain ⟨hquiet, earlier, hanswers⟩ :=
      (hin.read hstream).arrived hpacket
    -- either the answer is to a folder step before the get, or it is the next
    -- part of the body
    have hfares : ∀ folder handle, errand.call = .get folder handle →
        Fares { c.link with stream := stream } handle
          (c.session.resume pending (.ok packet)) := by
      intro folder handle hcall
      rcases h folder handle hcall with htoward | ⟨body, rfl, hgathers⟩
      · exact fares_of_seeks hquiet (seeks_resume _ htoward _)
      · have hearlier : c.link.answers.take (c.link.requests.length - 1)
            = earlier := hquiet.earlier_of_answers hanswers
        rw [hearlier] at hgathers
        exact fares_of_turn hgathers hanswers
          (writePacket_of_arrived hpacket).2 (turn_resume _ body packet)
    obtain ⟨hfetching, hdelivers⟩ := fetching_place hfares
    refine ⟨hfetching, ?_⟩
    intro handle raw hmem
    rcases List.mem_cons.mp hmem with heq | hmem'
    · cases heq
    · exact hdelivers handle raw hmem'
  | unread hstage => exact fetching_place fun _ _ _ => trivial
  | @replied reply link hanswer =>
    refine ⟨?_, hsilent⟩
    obtain ⟨s, l, stage⟩ := c
    cases stage with
    -- a quiet link has no request to answer
    | writing errand opcode payload pending =>
      have hquiet : l.Quiet := hin
      rw [hquiet.answer reply] at hanswer
      cases hanswer
    | reading errand pending buffer =>
      have hawaits : l.Awaits buffer := hin
      have hearlier := hawaits.earlier_answer hanswer
      have hrequests : link.requests = l.requests := by
        rw [(Link.answer_eq_some hanswer).2]
      intro folder handle hcall
      rw [hearlier, hrequests]
      exact h folder handle hcall
    | _ => exact trivial

-- == runs

/-- What a step of the loop lets out is as it should be. -/
structure Matched (t : Trans Connected ConnectedAct ConnectedEvent) :
    Prop where
  /-- A request is made only after every answer is read whole. -/
  issued : ∀ r, .issued r ∈ t.out → t.post.link.Quiet
  /-- A packet is returned for the last request, and is what the phone
  answered to it. -/
  received : ∀ n packet, .received n packet ∈ t.out →
    n + 1 = t.post.link.requests.length
      ∧ ∃ reply, t.post.link.answers[n]? = some reply
        ∧ writePacket packet.code packet.payload = .ok reply
  /-- The bytes returned for a handle are those of the answers to the
  requests that asked for it. -/
  delivered : Delivers t.post t.out

theorem issued_place {r : Request} (h : .issued r ∈ (errand.place l x).2) :
    ∃ opcode payload pending, (errand.place l x).1.stage
      = .writing errand opcode payload pending := by
  obtain ⟨s, progress⟩ := x
  cases progress with
  | request opcode payload pending => exact ⟨_, _, _, rfl⟩
  | panicked => cases h
  | finished result =>
    simp only [Errand.place, Errand.delivers] at h
    split at h
    · cases List.mem_singleton.mp h
    · cases h

theorem not_received_place {n : Nat} :
    .received n packet ∉ (errand.place l x).2 := by
  intro h
  obtain ⟨s, progress⟩ := x
  cases progress with
  | request opcode payload pending => cases List.mem_singleton.mp h
  | panicked => cases h
  | finished result =>
    simp only [Errand.place, Errand.delivers] at h
    split at h
    · cases List.mem_singleton.mp h
    · cases h

/-- A request goes out with its write. -/
theorem ConnectedMove.issued {r : Request}
    (hmove : ConnectedMove c a c' es) (h : .issued r ∈ es) :
    ∃ errand opcode payload pending, c'.stage
      = .writing errand opcode payload pending := by
  cases hmove with
  | went hbetween hstage | marked hstage => cases h
  | began hbetween => exact ⟨_, issued_place h⟩
  | wrote hstage => cases h
  | unwritten hstage => exact ⟨_, issued_place h⟩
  | took hstage hstream hmore => cases h
  | malformed hstage hstream hbad => exact ⟨_, issued_place h⟩
  | answered hstage hstream hpacket =>
    rcases List.mem_cons.mp h with heq | hmem
    · cases heq
    · exact ⟨_, issued_place hmem⟩
  | unread hstage => exact ⟨_, issued_place h⟩
  | replied hanswer => cases h

theorem place_link (errand : Errand) (l : Link) (x : Session × Progress) :
    (errand.place l x).1.link = l := by
  obtain ⟨s, progress⟩ := x
  cases progress <;> rfl

/-- A packet that is read answers the last request. -/
theorem ConnectedMove.received {n : Nat} (hmove : ConnectedMove c a c' es)
    (hin : InStep c) (h : .received n packet ∈ es) :
    n + 1 = c'.link.requests.length
      ∧ ∃ reply, c'.link.answers[n]? = some reply
        ∧ writePacket packet.code packet.payload = .ok reply := by
  cases hmove with
  | went hbetween hstage | marked hstage => cases h
  | began hbetween => exact absurd h not_received_place
  | wrote hstage => cases h
  | unwritten hstage => exact absurd h not_received_place
  | took hstage hstream hmore => cases h
  | malformed hstage hstream hbad => exact absurd h not_received_place
  | @answered errand pending buffer stream b got hstage hstream hpacket =>
    rcases List.mem_cons.mp h with heq | hmem
    · obtain ⟨rfl, rfl⟩ := ConnectedEvent.received.inj heq
      rw [InStep, hstage] at hin
      obtain ⟨hquiet, earlier, hanswers⟩ :=
        (hin.read hstream).arrived hpacket
      have hcount : c.link.requests.length = earlier.length + 1 := by
        have hall := hquiet.answered
        rw [hanswers, List.length_append] at hall
        exact hall.symm
      rw [place_link]
      refine ⟨?_, buffer ++ [b], ?_, (writePacket_of_arrived hpacket).1⟩
      · show c.link.requests.length - 1 + 1 = c.link.requests.length
        omega
      · rw [hanswers, hcount, Nat.add_sub_cancel,
          List.getElem?_append_right (Nat.le_refl _), Nat.sub_self]
        rfl
    · exact absurd hmem not_received_place
  | unread hstage => exact absurd h not_received_place
  | replied hanswer => cases h

/-- Both invariants, along a run. -/
theorem inStep_of_run (s : Session)
    {tr : List (Trans Connected ConnectedAct ConnectedEvent)}
    {c : Connected} (hrun : Exec connectedStep (.start s) tr c)
    (hcontained : ∀ t ∈ tr, contained t.pre t.act = true) :
    InStep c ∧ Fetching c := by
  have hstart : InStep (.start s) ∧ Fetching (.start s) :=
    ⟨⟨rfl, rfl⟩, trivial⟩
  refine hrun.inv_of (P := fun c => InStep c ∧ Fetching c) hstart ?_
    hcontained
  rintro t ⟨hin, hfetching⟩ hcont hstep
  have hmove := ConnectedMove.of_step hstep
  exact ⟨hin.step hmove hcont, (hfetching.step hin hmove).1⟩

/-- In every run of the connected loop in which no request fails under a
caller that goes on with the session, answers match requests: no request
is made before the answers to all others are read whole, every packet is
the answer to the request it is returned for, and the bytes returned for a
handle are those the phone returned for it. -/
theorem answers_match_requests (s : Session)
    {tr : List (Trans Connected ConnectedAct ConnectedEvent)}
    {c : Connected} (hrun : Exec connectedStep (.start s) tr c)
    (hcontained : ∀ t ∈ tr, contained t.pre t.act = true) :
    ∀ t ∈ tr, Matched t := by
  intro t ht
  obtain ⟨before, after, rfl, hbefore, hstep, -⟩ := hrun.of_mem ht
  have hmove := ConnectedMove.of_step hstep
  obtain ⟨hin, hfetching⟩ := inStep_of_run s hbefore fun t' ht' =>
    hcontained t' (List.mem_append_left _ ht')
  have hpost := hin.step hmove (hcontained t ht)
  refine ⟨?_, fun n packet h => hmove.received hin h,
    (hfetching.step hin hmove).2⟩
  intro r hissued
  obtain ⟨errand, opcode, payload, pending, hwriting⟩ :=
    hmove.issued hissued
  rw [InStep, hwriting] at hpost
  exact hpost

-- == a late answer

/-- A session whose folder is the inbox. -/
def inboxSession : Session := freshSession.withPath inbox

/-- The packet that holds a message of three bytes. -/
def onePacket : Packet := ⟨responseOK, [0x49, 0x00, 0x06] ++ ascii "one"⟩

/-- The phone's answer with it. -/
def oneReply : Bytes := [0xa0, 0x00, 0x09, 0x49, 0x00, 0x06] ++ ascii "one"

/-- A message is fetched from the phone. -/
def fetchOnce : List ConnectedAct :=
  [.drained false, .event inbox (ascii "1"), .attempt true, .write none,
    .answer oneReply] ++ List.replicate 9 .read

/-- One message is fetched. -/
theorem answers_match_requests_once :
    ∃ tr c, Exec connectedStep (.start inboxSession) tr c
      ∧ ∃ t ∈ tr, .delivered (ascii "1") (ascii "one") ∈ t.out
        ∧ Matched t := by
  obtain ⟨tr, c, hrun, hcontained, t, ht, hdelivered⟩ :=
    exec_of_decide connectedStep (.start inboxSession) fetchOnce
      (fun tr _ => (∀ t ∈ tr, contained t.pre t.act = true)
        ∧ ∃ t ∈ tr, .delivered (ascii "1") (ascii "one") ∈ t.out)
      (by decide +kernel)
  exact ⟨tr, c, hrun, t, ht, hdelivered,
    answers_match_requests inboxSession hrun hcontained t ht⟩

/-- The first attempt times out, the second reads the late answer to it,
and the answer to the second is left for the next message. -/
def fetchLate : List ConnectedAct :=
  [.drained false, .event inbox (ascii "1"), .attempt true, .write none,
    .readFailed .errno, .attempt true, .write none, .answer oneReply]
  ++ List.replicate 9 .read
  ++ [.processed none, .answer oneReply, .event inbox (ascii "2"),
    .attempt true, .write none] ++ List.replicate 9 .read

/-- What the phone returned for the first handle is delivered for the
second, whose request it has not answered at all. -/
theorem late_answer_delivered_for_another :
    ∃ tr c, Exec connectedStep (.start inboxSession) tr c
      ∧ c.link.requests.length = 3
      ∧ (c.link.requests[0]?).map Request.payload
        = inboxSession.messageHeaders (ascii "1")
      ∧ (c.link.requests[2]?).map Request.payload
        = inboxSession.messageHeaders (ascii "2")
      ∧ c.link.answers = [oneReply, oneReply]
      ∧ ∃ t ∈ tr, .delivered (ascii "2") (ascii "one") ∈ t.out
        ∧ ¬ Matched t := by
  obtain ⟨tr, c, hrun, hcount, hfirst, hthird, hanswers, t, ht, hdelivered,
      hreceived, hnone⟩ :=
    exec_of_decide connectedStep (.start inboxSession) fetchLate
      (fun tr c => c.link.requests.length = 3
        ∧ (c.link.requests[0]?).map Request.payload
          = inboxSession.messageHeaders (ascii "1")
        ∧ (c.link.requests[2]?).map Request.payload
          = inboxSession.messageHeaders (ascii "2")
        ∧ c.link.answers = [oneReply, oneReply]
        ∧ ∃ t ∈ tr, .delivered (ascii "2") (ascii "one") ∈ t.out
          ∧ .received 2 onePacket ∈ t.out
          ∧ t.post.link.answers[2]? = none) (by decide +kernel)
  refine ⟨tr, c, hrun, hcount, hfirst, hthird, hanswers, t, ht, hdelivered,
    ?_⟩
  intro hmatched
  obtain ⟨-, reply, hreply, -⟩ := hmatched.received 2 onePacket hreceived
  rw [hnone] at hreply
  cases hreply

end Callbridge.Bridge
