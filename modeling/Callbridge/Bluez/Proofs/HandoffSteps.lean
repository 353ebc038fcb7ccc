/-
What the handoff server can do, said once. A `PublishPair` call ends in
one of four ways (`PublishMove`). A step of the loop moves it on and
leaves the slot alone, calls the disconnect handler, lets a client into
the slot, closes the one in it, or closes a connection that never was in
it (`HandoffMove`).
-/
import Callbridge.Bluez.HandoffServer
import Callbridge.Bluez.Proofs.DescriptorCodec

namespace Callbridge.Bluez

open Lib

-- == publications

/-- The descriptors of a pair that may go out: valid each by itself, a
sink and a source of one bundle. -/
structure Matched (sink source : Descriptor) : Prop where
  sinkValid : validateDescriptor sink = none
  sourceValid : validateDescriptor source = none
  directions : sink.direction = Direction.sink.code
    ∧ source.direction = Direction.source.code
  bundle : sink.bundleID = source.bundleID
  pair : validateDescriptorPair sink source = none

theorem validateDescriptorPair_none {sink source : Descriptor}
    (h : validateDescriptorPair sink source = none) :
    sink.direction = Direction.sink.code
      ∧ source.direction = Direction.source.code
      ∧ sink.bundleID = source.bundleID := by
  simp only [validateDescriptorPair, ite_some_eq_none, not_or, not_not,
    and_true] at h
  exact ⟨h.1.1, h.1.2, h.2.1⟩

theorem encodeDescriptor_ok {d : Descriptor} {p : Bytes}
    (h : encodeDescriptor d = .ok p) :
    validateDescriptor d = none ∧ p = d.packet := by
  unfold encodeDescriptor at h
  split at h
  case h_1 => cases h
  case h_2 hvalid => exact ⟨hvalid, (Except.ok.inj h).symm⟩

variable {c : PublishCall}

/-- What `prepare` passes is a matched pair, in its packets. -/
theorem prepare_ok {p q : Bytes} {fd : Int}
    (h : c.prepare = .ok (p, q, fd)) :
    Matched c.ownedSink c.ownedSource ∧ p = c.ownedSink.packet
      ∧ q = c.ownedSource.packet := by
  unfold PublishCall.prepare at h
  split at h
  case h_1 => cases h
  case h_2 hpair =>
    split at h
    case h_1 => cases h
    case h_2 sinkPacket hsink =>
      split at h
      case h_1 => cases h
      case h_2 sourcePacket hsource =>
        rw [ite_error_eq_ok] at h
        obtain ⟨hsinkValid, hsinkPacket⟩ := encodeDescriptor_ok hsink
        obtain ⟨hsourceValid, hsourcePacket⟩ := encodeDescriptor_ok hsource
        obtain ⟨hsinkDir, hsourceDir, hbundle⟩ :=
          validateDescriptorPair_none hpair
        cases hfd : c.lifecycle with
        | none =>
          rw [hfd] at h
          cases h.2
        | some fd =>
          rw [hfd] at h
          cases h.2
          exact ⟨⟨hsinkValid, hsourceValid, ⟨hsinkDir, hsourceDir⟩,
            hbundle, hpair⟩, hsinkPacket, hsourcePacket⟩

theorem prepare_ne_stale (c : PublishCall) : c.prepare ≠ .error .stale := by
  unfold PublishCall.prepare
  split
  case h_1 => simp
  case h_2 =>
    split
    case h_1 => simp
    case h_2 =>
      split
      case h_1 => simp
      case h_2 =>
        split
        case isTrue => simp
        case isFalse => cases c.lifecycle <;> simp

section Publish

variable {s : HandoffServer}

/-- The counters after a publication. -/
def HandoffServer.advance (s : HandoffServer) (c : PublishCall) :
    HandoffServer :=
  { s with
    lastGenSink := c.sink.generation
    lastGenSource := c.source.generation
    lastBundle := c.sink.bundleID }

/-- How a `PublishPair` call ends. -/
inductive PublishMove (s : HandoffServer) (c : PublishCall) :
    Except PublishError Int → HandoffServer → List ServerEvent → Prop
  /-- It is refused before anything is sent. -/
  | refused {e : PublishError} :
      (e = .stale → s.stale c.sink c.source = true) →
      PublishMove s c (.error e) s [.unpublished]
  /-- The first send fails. -/
  | unsent {e : PublishError} {client : ClientId} :
      s.clientFD = some client → e ≠ .stale →
      PublishMove s c (.error e) { s with clientFD := none }
        [.closed client, .unpublished]
  /-- The second send fails. -/
  | cut {e : PublishError} {client : ClientId} :
      s.clientFD = some client → e ≠ .stale →
      Matched c.ownedSink c.ownedSource →
      PublishMove s c (.error e) { s with clientFD := none }
        [.packet client c.ownedSink.packet, .closed client, .unpublished]
  | done {fd : Int} {client : ClientId} :
      s.clientFD = some client → s.stale c.sink c.source = false →
      Matched c.ownedSink c.ownedSource →
      PublishMove s c (.ok fd) (s.advance c)
        [.packet client c.ownedSink.packet,
          .packet client c.ownedSource.packet,
          .published c.ownedSink c.ownedSource]

/-- How far the pair gets is up to the two sends. -/
theorem PublishMove.of_sendPair {client : ClientId} {fd : Int}
    (hclient : s.clientFD = some client)
    (hfresh : s.stale c.sink c.source = false)
    (hmatched : Matched c.ownedSink c.ownedSource) :
    PublishMove s c
      (s.sendPair client c c.ownedSink.packet c.ownedSource.packet fd).1
      (s.sendPair client c c.ownedSink.packet c.ownedSource.packet fd).2.1
      (s.sendPair client c c.ownedSink.packet c.ownedSource.packet
        fd).2.2 := by
  unfold HandoffServer.sendPair
  cases c.sinkSend with
  | failed | short => exact .unsent hclient (by simp)
  | sent =>
    cases c.sourceSend with
    | failed | short => exact .cut hclient (by simp) hmatched
    | sent => exact .done hclient hfresh hmatched

/-- Every call of `PublishPair` is one of the moves. -/
theorem PublishMove.of_publishPair (s : HandoffServer) (c : PublishCall) :
    PublishMove s c (s.publishPair c).1 (s.publishPair c).2.1
      (s.publishPair c).2.2 := by
  unfold HandoffServer.publishPair
  split
  case h_1 e he =>
    refine .refused fun hstale => ?_
    subst hstale
    exact absurd he (prepare_ne_stale c)
  case h_2 p q fd hok =>
    obtain ⟨hmatched, hp, hq⟩ := prepare_ok hok
    rw [hp, hq]
    split
    case isTrue hstale => exact .refused fun _ => hstale
    case isFalse hfresh =>
      cases hclient : s.clientFD with
      | none => exact .refused (by simp)
      | some client =>
        exact .of_sendPair hclient (by simpa using hfresh) hmatched

end Publish

-- == steps

variable {s s' : Handoff} {act : HandoffAct} {out : List ServerEvent}

/-- A place of the loop at which no handler runs and no peer waits. -/
def Serving.plain (l : Serving) : Prop :=
  (∀ listener, l ≠ .notifying listener) ∧ ∀ client, l ≠ .admitting client

/-- What a step does. -/
inductive HandoffMove (s : Handoff) :
    HandoffAct → Handoff → List ServerEvent → Prop
  | moved {act : ServingAct} {next : Serving} :
      s.loop.plain → next.plain →
      HandoffMove s (.loop act) (s.goto next) []
  | notified {listener : ListenerState} :
      s.loop = .notifying listener →
      HandoffMove s (.loop .notify) (s.goto (afterClient listener))
        [.notified]
  /-- The client polled is closed, its handler comes next. -/
  | vacated {client : ClientId} {listener : ListenerState} :
      s.loop = .noticed client listener →
      s.server.clientFD = some client →
      HandoffMove s (.loop .clear) (s.vacate client (.notifying listener)).1
        [.closed client]
  | shut {client : ClientId} :
      s.loop = .closing → s.server.clientFD = some client →
      HandoffMove s (.loop .close) (s.vacate client .stopped).1
        [.closed client]
  | stranger :
      s.loop = .accepting →
      HandoffMove s (.loop (.accept .stranger))
        { s with loop := .sampling, clients := s.clients + 1 }
        [.closed s.clients]
  | arrived :
      s.loop = .accepting →
      HandoffMove s (.loop (.accept .peer))
        { s with loop := .admitting s.clients, clients := s.clients + 1 } []
  | admitted {client : ClientId} :
      s.loop = .admitting client → s.server.clientFD = none →
      HandoffMove s (.loop .seat)
        { s with
          server := { s.server with clientFD := some client }
          loop := .sampling } [.accepted client]
  | turnedAway {client : ClientId} :
      s.loop = .admitting client → s.server.clientFD ≠ none →
      HandoffMove s (.loop .seat) (s.goto .sampling) [.closed client]
  | published {call : PublishCall} {r : Except PublishError Int}
      {server : HandoffServer} {out : List ServerEvent} :
      PublishMove s.server call r server out →
      HandoffMove s (.publish call) { s with server := server } out

theorem afterClient_plain (listener : ListenerState) :
    (afterClient listener).plain := by
  cases listener <;> exact ⟨by simp [afterClient], by simp [afterClient]⟩

/-- Where `poll` leads. -/
theorem polled_eq (s : Handoff) (client : Option ClientId)
    (result : PollResult) :
    ∃ next : Serving, next.plain ∧ s.polled client result = s.goto next := by
  cases result with
  | nothing => exact ⟨.sampling, ⟨by simp, by simp⟩, rfl⟩
  | error => exact ⟨.closing, ⟨by simp, by simp⟩, rfl⟩
  | events ready listener =>
    cases client with
    | none => exact ⟨_, afterClient_plain listener, rfl⟩
    | some client =>
      cases ready with
      | false => exact ⟨_, afterClient_plain listener, rfl⟩
      | true =>
        exact ⟨.noticed client listener, ⟨by simp, by simp⟩, rfl⟩

/-- Every step of the loop is one of the moves. -/
theorem HandoffMove.of_servingStep {act : ServingAct}
    (h : servingStep s s.loop act = some (s', out)) :
    HandoffMove s (.loop act) s' out := by
  unfold servingStep at h
  split at h
  case h_1 hloop | h_2 hloop | h_3 hloop =>
    cases h
    exact .moved (by rw [hloop]; exact ⟨by simp, by simp⟩)
      ⟨by simp, by simp⟩
  case h_4 client result hloop =>
    obtain ⟨next, hnext, he⟩ := polled_eq s client result
    rw [he] at h
    cases h
    exact .moved (by rw [hloop]; exact ⟨by simp, by simp⟩) hnext
  case h_5 client listener hloop =>
    -- a slot that changed hands meanwhile is left alone
    unfold Handoff.clear at h
    split at h
    case isTrue hclient =>
      cases h
      exact .vacated hloop hclient
    case isFalse =>
      cases h
      exact .moved (by rw [hloop]; exact ⟨by simp, by simp⟩)
        (afterClient_plain listener)
  case h_6 listener hloop =>
    cases h
    exact .notified hloop
  case h_7 result hloop =>
    cases result with
    | again | error =>
      cases h
      exact .moved (by rw [hloop]; exact ⟨by simp, by simp⟩)
        ⟨by simp, by simp⟩
    | stranger =>
      cases h
      exact .stranger hloop
    | peer =>
      cases h
      exact .arrived hloop
  case h_8 client hloop =>
    unfold Handoff.seat at h
    split at h
    case isTrue hnone =>
      cases h
      exact .admitted hloop hnone
    case isFalse hsome =>
      cases h
      exact .turnedAway hloop hsome
  case h_9 hloop =>
    unfold Handoff.close at h
    split at h
    case h_1 client hclient =>
      cases h
      exact .shut hloop hclient
    case h_2 =>
      cases h
      exact .moved (by rw [hloop]; exact ⟨by simp, by simp⟩)
        ⟨by simp, by simp⟩
  case h_10 => cases h

/-- Every step is one of the moves. -/
theorem HandoffMove.of_step (h : handoffStep s act = some (s', out)) :
    HandoffMove s act s' out := by
  cases act with
  | loop act => exact .of_servingStep h
  | publish call =>
    cases h
    exact .published (.of_publishPair s.server call)

end Callbridge.Bluez
