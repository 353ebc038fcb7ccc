/-
What the loss of the media peer does to its session. The loop of the
server empties the slot and calls the disconnect handler before it does
anything else. A send that fails inside `PublishPair` empties the slot as
well, but nobody calls the handler, and the session of the lost peer goes
on (`send_failure_keeps_session`).

From the moment the loop stands at the handler, the session is the one the
handler reads, or has read, or is past (`Attending`); the handler's second
region leaves it beyond accepting (`Life.settled`), and no step leads
back.
-/
import Callbridge.Bluez.Proofs.PeeringSteps
import Callbridge.Bluez.Proofs.Owner
import Callbridge.Bluez.Proofs.PairsOnWire

namespace Callbridge.Bluez

open Lib

variable {w w' : World} {sid : SessionId} {m m' : Peering} {act : PeeringAct}
  {es : List PeeringEvent} {s s' : Handoff}

-- == sessions

/-- A session whose release has been asked for, or that is past. -/
def Life.settled : Life → Bool
  | .absent | .accepting => false
  | _ => true

theorem LifeStep.settled {a a' : Life} {l : List Report}
    (h : LifeStep a l a') (hs : a.settled = true) : a'.settled = true := by
  cases h with
  | stay => exact hs
  | install | start | dropped | idled => cases hs
  | _ => rfl

theorem settled_of_past {a : Life} (h : a.past = true) :
    a.settled = true := by
  cases a with
  | absent | accepting => cases h
  | _ => rfl

/-- The session is the active one, or past. -/
def Lasting (w : World) (sid : SessionId) : Prop :=
  w.broker.activeSession = some sid ∨ (lifeOf w sid).past = true

section Part

variable {a : Option Action} {out : List Event}

theorem optStep_life (hinv : SessionInv w)
    (h : optStep step w a = some (w', out)) :
    LifeStep (lifeOf w sid) (out.filterMap (reportOn sid))
      (lifeOf w' sid) := by
  cases a with
  | none =>
    cases h
    exact .stay _
  | some a => exact step_life hinv h sid

theorem optStep_lasting (hinv : SessionInv w)
    (h : optStep step w a = some (w', out)) (hl : Lasting w sid) :
    Lasting w' sid := by
  rcases hl with hact | hpast
  · cases a with
    | none =>
      cases h
      exact Or.inl hact
    | some a =>
      by_cases hstill : w'.broker.activeSession = some sid
      · exact Or.inl hstill
      · exact Or.inr (past_of_left hinv h hact hstill)
  · exact Or.inr ((optStep_life hinv h).past hpast)

theorem optStep_sessionInv (hinv : SessionInv w)
    (h : optStep step w a = some (w', out)) : SessionInv w' := by
  cases a with
  | none =>
    cases h
    exact hinv
  | some a => exact step_sessionInv hinv h

end Part

/-- A request for the release of a session settles it. -/
theorem settled_of_request {out : List Event}
    (h : step w (.session sid .requestRelease) = some (w', out)) :
    (lifeOf w' sid).settled = true := by
  simp only [step] at h
  split at h
  case h_2 => cases h
  case h_1 s hs =>
    simp only [sessionStep, Broker.requestSpecificSessionRelease] at h
    by_cases hacc : w.broker.accepting sid s = true
    · rw [if_pos hacc] at h
      cases h
      have hactive := active_eq_some.mpr ⟨(accepting_iff.mp hacc).1, hs⟩
      rw [lifeOf_active (active_updateSession hactive Session.startRelease),
        life_of_releasing rfl]
      rfl
    · rw [if_neg hacc] at h
      cases h
      show (lifeOf w sid).settled = true
      by_cases hactive : w.broker.activeSession = some sid
      · rw [lifeOf_active (s := s) (active_eq_some.mpr ⟨hactive, hs⟩)]
        rcases s.life_cases with hl | hl | hl
        · rw [hl]; rfl
        · rw [hl]; rfl
        · refine absurd (accepting_iff.mpr ⟨hactive, ?_⟩) hacc
          unfold Session.life at hl
          split at hl
          case isTrue => cases hl
          case isFalse hrel =>
            split at hl
            case isTrue => cases hl
            case isFalse hexh =>
              exact ⟨by simpa using hrel, by simpa using hexh⟩
      · exact settled_of_past (past_of_inactive hs hactive)

-- == the handler

/-- The handler is due for the session, or under way. -/
structure Attending (sid : SessionId) (m : Peering) : Prop where
  notifying : m.handoff.loop.isNotifying = true
  target : m.reading.getD m.world.broker.activeSession = some sid
    ∨ (lifeOf m.world sid).past = true

/-- While the handler is due the loop does nothing else. -/
theorem serving_of_notifying {act : ServingAct} {out : List ServerEvent}
    (hloop : s.loop.isNotifying = true)
    (h : servingStep s s.loop act = some (s', out)) : act = .notify := by
  cases hl : s.loop with
  | notifying listener =>
    rw [hl] at h
    cases act with
    | notify => rfl
    | _ => cases h
  | _ => rw [hl] at hloop; cases hloop

/-- `PublishPair` leaves the loop where it stands. -/
theorem optStep_publish_loop {call : Option PublishCall}
    {out : List ServerEvent}
    (h : optStep handoffStep s (call.map .publish) = some (s', out)) :
    s'.loop = s.loop := by
  cases call with
  | none | some call =>
    cases h
    rfl

/-- The handler stays due until it has run, and then the session is
settled. -/
theorem Attending.step (hinv : SessionInv m.world) (h : Attending sid m)
    (hmove : PeeringMove m act m' es) :
    Attending sid m' ∨ act = .requestRelease
      ∧ (lifeOf m'.world sid).settled = true := by
  -- a step of the broker keeps what the handler is after
  have hkept : ∀ (hloop : m'.handoff.loop = m.handoff.loop)
      (hread : m'.reading = m.reading), Attending sid m' := by
    intro hloop hread
    refine ⟨by rw [hloop]; exact h.notifying, ?_⟩
    rw [hread]
    have htarget := h.target
    cases hr : m.reading with
    | none =>
      rw [hr] at htarget
      exact optStep_lasting hinv hmove.broker htarget
    | some r =>
      rw [hr] at htarget
      rcases htarget with hr | hpast
      · exact Or.inl hr
      · exact Or.inr ((optStep_life hinv hmove.broker).past hpast)
  cases act with
  | broker a =>
    have hserver := (optStep_none hmove.server).1
    exact Or.inl (hkept (by rw [hserver]) hmove.reading)
  | publish id sinkClock sourceClock d now =>
    exact Or.inl (hkept (optStep_publish_loop hmove.server) hmove.reading)
  | serve a =>
    have hen := hmove.enabled
    rw [serving_of_notifying h.notifying hmove.server] at hen
    cases hen
  | readActive =>
    have hbroker := (optStep_none hmove.broker).1
    have hserver := (optStep_none hmove.server).1
    have hnone : m.reading = none := by
      have hen := hmove.enabled
      simp only [Peering.enabled, Bool.and_eq_true, beq_iff_eq] at hen
      exact hen.2
    refine Or.inl ⟨by rw [hserver]; exact h.notifying, ?_⟩
    rw [hmove.reading, hbroker]
    have htarget := h.target
    rw [hnone] at htarget
    exact htarget
  | requestRelease =>
    refine Or.inr ⟨rfl, ?_⟩
    rcases h.target with hr | hpast
    · cases hread : m.reading with
      | none =>
        have hen := hmove.enabled
        rw [Peering.enabled, hread] at hen
        cases hen
      | some r =>
        rw [hread] at hr
        obtain rfl : r = some sid := hr
        have hbroker := hmove.broker
        simp only [Peering.brokerAct, hread] at hbroker
        exact settled_of_request hbroker
    · exact settled_of_past ((optStep_life hinv hmove.broker).past hpast)

section Runs

variable {m₀ : Peering} {tr : List PeeringTrans}

/-- Once the handler is due, it is due until it has run, and from then on
the session is settled. -/
theorem Attending.run (hinv : SessionInv m₀.world) (h₀ : Attending sid m₀)
    (h : Exec peeringStep m₀ tr m) :
    SessionInv m.world ∧ (Attending sid m
      ∨ (∃ z ∈ tr, z.act = .requestRelease)
        ∧ (lifeOf m.world sid).settled = true) := by
  induction h with
  | nil => exact ⟨hinv, Or.inl h₀⟩
  | @snoc tr s s' a es _ hstep ih =>
    obtain ⟨hs, hcase⟩ := ih
    have hmove := PeeringMove.of_step hstep
    refine ⟨optStep_sessionInv hs hmove.broker, ?_⟩
    rcases hcase with hatt | ⟨⟨z, hz, hact⟩, hset⟩
    · rcases hatt.step hs hmove with hstill | ⟨rfl, hset⟩
      · exact Or.inl hstill
      · exact Or.inr ⟨⟨_, List.mem_append_right _
          (List.mem_singleton_self _), rfl⟩, hset⟩
    · exact Or.inr ⟨⟨z, List.mem_append_left _ hz, hact⟩,
        (optStep_life hs hmove.broker).settled hset⟩

-- == the slot

/-- While the handler is due the slot is empty. -/
def SlotInv (s : Handoff) : Prop :=
  s.loop.isNotifying = true → s.server.clientFD = none

theorem isNotifying_plain {l : Serving} (h : l.plain) :
    l.isNotifying = false := by
  cases l with
  | notifying listener => exact absurd rfl (h.1 listener)
  | _ => rfl

/-- Every move keeps the slot empty while the handler is due. -/
theorem HandoffMove.slotInv {act : HandoffAct} {out : List ServerEvent}
    (hi : SlotInv s) (h : HandoffMove s act s' out) : SlotInv s' := by
  intro hn
  cases h with
  | moved _ hnext =>
    have hfalse := isNotifying_plain hnext
    rw [Handoff.goto] at hn
    rw [hfalse] at hn
    cases hn
  | @notified listener _ =>
    have hfalse := isNotifying_plain (afterClient_plain listener)
    rw [Handoff.goto] at hn
    rw [hfalse] at hn
    cases hn
  | vacated => rfl
  | shut | stranger | arrived | admitted | turnedAway => cases hn
  | published hpub =>
    have hnone := hi hn
    cases hpub with
    | refused => exact hnone
    | unsent | cut => rfl
    | done hslot => rw [hnone] at hslot; cases hslot

theorem run_slotInv {b : Broker}
    (h : Exec peeringStep (newPeering b) tr m) : SlotInv m.handoff := by
  obtain ⟨t, hrun, -⟩ := server_run h
  refine hrun.inv (P := SlotInv) (fun hn => by cases hn) ?_
  intro s a s' out hs hstep
  exact (HandoffMove.of_step hstep).slotInv hs

end Runs

-- == the loss

def PeeringAct.publishes : PeeringAct → Bool
  | .publish _ _ _ _ _ => true
  | _ => false

/-- The slot loses its client while the session is active and the server
does not shut down. -/
@[mk_iff]
structure Loses (x : PeeringTrans) (sid : SessionId) : Prop where
  connected : x.pre.handoff.server.clientFD ≠ none
  lost : x.post.handoff.server.clientFD = none
  running : x.pre.handoff.loop ≠ .closing
  active : x.pre.world.broker.activeSession = some sid

instance (x : PeeringTrans) (sid : SessionId) : Decidable (Loses x sid) :=
  decidable_of_iff _ (loses_iff x sid).symm

/-- The handler runs for the loss at `x`: it is what the server's loop
comes to first, and by the time the loop gets to anything else, accepting
a client among it, the session is no longer active or its release has been
started. -/
structure Handled (sid : SessionId) (t₁ : List PeeringTrans)
    (x : PeeringTrans) (t₂ : List PeeringTrans) : Prop where
  due : x.post.handoff.loop.isNotifying = true
  ran : ∀ t y t' a, t₂ = t ++ y :: t' → y.act = .serve a →
    ∃ z ∈ t, z.act = .requestRelease
  requested : ∀ t y t' a, t₂ = t ++ y :: t' → y.act = .serve a →
    y.pre.world.broker.activeSession = some sid →
    PeeringEvent.broker (.releaseStarted sid) ∈ events (t₁ ++ x :: t)

/-- A step of the server that empties the slot is the loop's own, with the
handler next, or the end of `Run`. -/
theorem HandoffMove.lost {a : ServingAct} {out : List ServerEvent}
    (h : HandoffMove s (.loop a) s' out) (hpre : s.server.clientFD ≠ none)
    (hpost : s'.server.clientFD = none) (hrun : s.loop ≠ .closing) :
    s'.loop.isNotifying = true := by
  cases h with
  | moved | notified => exact absurd hpost hpre
  | vacated => rfl
  | shut hloop => exact absurd hloop hrun
  | stranger | arrived => exact absurd hpost hpre
  | admitted => cases hpost
  | turnedAway => exact absurd hpost hpre

section Loss

variable {device : Bytes} {required : Bool} {wait : Nat}
  {t₁ t₂ : List PeeringTrans} {x : PeeringTrans}

/-- A loss that is not a publication's leaves the handler due. -/
theorem Loses.attending (hloss : Loses x sid) (hslot : SlotInv x.pre.handoff)
    (hread : x.pre.reading ≠ none → x.pre.handoff.loop.isNotifying = true)
    (hmove : PeeringMove x.pre x.act x.post x.out)
    (hpub : x.act.publishes = false) : Attending sid x.post := by
  -- a notifying loop has no client left to lose
  have hquiet : x.pre.handoff.loop.isNotifying = false := by
    by_contra hn
    exact hloss.connected (hslot (by simpa using hn))
  have hnone : x.pre.reading = none := by
    by_contra hr
    rw [hread hr] at hquiet
    cases hquiet
  cases hact : x.act with
  | broker a =>
    have hserver := hmove.server
    rw [hact] at hserver
    have hsame := (optStep_none hserver).1
    exact absurd (by rw [← hsame]; exact hloss.lost) hloss.connected
  | publish id sinkClock sourceClock d now =>
    rw [hact] at hpub
    cases hpub
  | serve a =>
    have hserver := hmove.server
    have hbroker := hmove.broker
    have hreading := hmove.reading
    rw [hact] at hserver hbroker hreading
    have hsame := (optStep_none hbroker).1
    have hloop : handoffStep x.pre.handoff (.loop a)
      = some (x.post.handoff, _) := hserver
    refine ⟨(HandoffMove.of_step hloop).lost hloss.connected hloss.lost
      hloss.running, Or.inl ?_⟩
    rw [hreading, hsame]
    show x.pre.reading.getD _ = _
    rw [hnone]
    exact hloss.active
  | readActive =>
    have hen := hmove.enabled
    rw [hact] at hen
    simp only [Peering.enabled, hquiet, Bool.false_and] at hen
    cases hen
  | requestRelease =>
    have hen := hmove.enabled
    rw [hact, Peering.enabled, hnone] at hen
    cases hen

/-- The handler has read only while it is due. -/
theorem run_reading {b : Broker} {tr : List PeeringTrans}
    (h : Exec peeringStep (newPeering b) tr m) :
    m.reading ≠ none → m.handoff.loop.isNotifying = true := by
  refine h.inv (P := fun m => m.reading ≠ none →
    m.handoff.loop.isNotifying = true) (fun hr => absurd rfl hr) ?_
  intro s a s' es hs hstep hr
  have hmove := PeeringMove.of_step hstep
  rw [hmove.reading] at hr
  cases a with
  | broker a =>
    rw [(optStep_none hmove.server).1]
    exact hs hr
  | publish id sinkClock sourceClock d now =>
    rw [optStep_publish_loop hmove.server]
    exact hs hr
  | serve a =>
    have hen := hmove.enabled
    rw [serving_of_notifying (hs hr) hmove.server] at hen
    cases hen
  | readActive =>
    have hen := hmove.enabled
    simp only [Peering.enabled, Bool.and_eq_true] at hen
    rw [(optStep_none hmove.server).1]
    exact hen.1
  | requestRelease => exact absurd rfl hr

/-- An active session that is settled has had its release started. -/
theorem started_of_settled {tr : List PeeringTrans}
    (h : Exec peeringStep (newPeering (newBroker device required wait)) tr m)
    (hset : (lifeOf m.world sid).settled = true)
    (hact : m.world.broker.activeSession = some sid) :
    PeeringEvent.broker (.releaseStarted sid) ∈ events tr := by
  obtain ⟨t, hrun, hev⟩ := broker_run h
  have hbound := life_bound (life_of_run hrun sid)
  have hstarted :
      ((events t).filterMap (reportOn sid)).count .started = 1 := by
    obtain ⟨s, hs⟩ := (run_sessionInv hrun).installed.record hact
    rw [lifeOf_active hs] at hbound hset
    rcases s.life_cases with hl | hl | hl
    · rw [hl] at hbound
      exact hbound.1
    · rw [hl] at hbound
      exact hbound.1
    · rw [hl] at hset
      cases hset
  rw [count_reportOn fun e => reportOn_started] at hstarted
  have hmem : Event.releaseStarted sid ∈ events t :=
    List.count_pos_iff.mp (by omega)
  rw [hev] at hmem
  obtain ⟨e, he, hof⟩ := List.mem_filterMap.mp hmem
  cases e with
  | broker e =>
    obtain rfl : e = .releaseStarted sid := Option.some.inj hof
    exact he
  | server e => cases hof

/-- A loss of the media peer is handled exactly where it was not a send
inside `PublishPair` that failed. -/
theorem peer_loss_handled_iff
    (h : Exec peeringStep (newPeering (newBroker device required wait))
      (t₁ ++ x :: t₂) m) (hloss : Loses x sid) :
    Handled sid t₁ x t₂ ↔ x.act.publishes = false := by
  obtain ⟨hbefore, hstep, hafter⟩ := h.split
  have hmove := PeeringMove.of_step hstep
  have hslot := run_slotInv hbefore
  obtain ⟨t, hbroker, -⟩ := broker_run hbefore
  have hinv : SessionInv x.pre.world := run_sessionInv hbroker
  constructor
  · intro hhandled
    cases hact : x.act with
    | publish id sinkClock sourceClock d now =>
      have hserver := hmove.server
      rw [hact] at hserver
      have hdue := hhandled.due
      rw [optStep_publish_loop hserver] at hdue
      exact absurd (hslot hdue) hloss.connected
    | _ => rfl
  · intro hpub
    have hatt := hloss.attending hslot (run_reading hbefore) hmove hpub
    have hpost := optStep_sessionInv hinv hmove.broker
    have hlater : ∀ t y t' a, t₂ = t ++ y :: t' → y.act = .serve a →
        (∃ z ∈ t, z.act = .requestRelease)
          ∧ (lifeOf y.pre.world sid).settled = true := by
      intro t y t' a ht hy
      subst ht
      obtain ⟨hmid, hserve, -⟩ := hafter.split
      obtain ⟨-, hstill | hdone⟩ := hatt.run hpost hmid
      · -- while the handler is due the loop takes no other step
        have hm := PeeringMove.of_step hserve
        have hen := hm.enabled
        have hserver := hm.server
        rw [hy] at hen hserver
        rw [serving_of_notifying hstill.notifying hserver] at hen
        cases hen
      · exact hdone
    refine ⟨hatt.notifying, fun t y t' a ht hy => (hlater t y t' a ht hy).1,
      ?_⟩
    intro t y t' a ht hy hactive
    have hset := (hlater t y t' a ht hy).2
    subst ht
    have hpre : Exec peeringStep
        (newPeering (newBroker device required wait)) (t₁ ++ x :: t)
        y.pre := by
      have hcut : t₁ ++ x :: (t ++ y :: t') = (t₁ ++ x :: t) ++ y :: t' := by
        simp
      rw [hcut] at h
      exact h.split.1
    exact started_of_settled hpre hset hactive

end Loss

-- == schedules

/-- A media peer connects. -/
def peerArrives : List PeeringAct :=
  [.serve .sample, .serve (.poll (.events false .readable)),
    .serve (.accept .peer), .serve .seat]

/-- The rest of an `acquire` call that has reserved its pair, the sends of
its publication ending as given. -/
def handOffWith (id : AcquireId) (d : Delivery) : List PeeringAct :=
  [.broker (.acquire id (.poll (some (7, true)) false)),
    .publish id (some (1, 0)) (some (1, 0)) d 0,
    .broker (.acquire id .unmark)]

/-- A peer connects and a first pair is handed over to it. -/
def sessionBegins : List PeeringAct :=
  .serve .start :: peerArrives
    ++ (.connect sampleDevice :: configurePair (samplePath 1) (samplePath 2)
      ++ reserveLinked 0 (samplePath 1) (samplePath 2) 1 0).map .broker
    ++ handOffWith 0 ⟨some 9, .sent, .sent⟩

/-- The peer hangs up, and another connects. -/
def hangUp : List PeeringAct :=
  sessionBegins ++ [.serve .sample, .serve (.poll (.events true .quiet)),
    .serve .clear, .readActive, .requestRelease] ++ peerArrives

/-- A second pair is offered while the session of the first goes on, and
its first send fails. -/
def sendFails : List PeeringAct :=
  sessionBegins
    ++ (configurePair (samplePath 3) (samplePath 4)
      ++ reserveLinked 1 (samplePath 3) (samplePath 4) 3 2).map .broker
    ++ handOffWith 1 ⟨some 9, .failed, .sent⟩ ++ peerArrives

/-- The peer hangs up, and another connects. -/
theorem peer_loss_handled_hang_up :
    ∃ t₁ x t₂ m, Exec peeringStep
        (newPeering (newBroker sampleDevice true 1)) (t₁ ++ x :: t₂) m
      ∧ Loses x 0 ∧ m.handoff.server.clientFD = some 1
      ∧ Handled 0 t₁ x t₂ := by
  obtain ⟨tr, m, hrun, hx, hy, hslot⟩ :=
    exec_of_decide peeringStep
      (newPeering (newBroker sampleDevice true 1)) hangUp (fun tr m =>
        (∃ x ∈ tr[19]?, Loses x 0 ∧ x.act.publishes = false)
        ∧ (∃ y ∈ (tr.drop 20)[5]?,
            PeeringEvent.server (.accepted 1) ∈ y.out)
        ∧ m.handoff.server.clientFD = some 1) (by decide +kernel)
  obtain ⟨t₁, x, t₂, y, t₃, rfl, ⟨hloss, hpub⟩, -, -⟩ :=
    exists_moments (r := fun _ => True) 19 5 hx trivial hy
  exact ⟨t₁, x, _, m, hrun, hloss, hslot,
    (peer_loss_handled_iff hrun hloss).mpr hpub⟩

/-- The peer of a session is lost in a failed send, the next one is
accepted, and nobody has asked for the release of the session. -/
theorem send_failure_keeps_session :
    ∃ tr m, Exec peeringStep (newPeering (newBroker sampleDevice true 1)) tr m
      ∧ tr.map Trans.act = sendFails
      ∧ (∃ (t₁ : List PeeringTrans) (x : PeeringTrans)
          (t₂ : List PeeringTrans) (y : PeeringTrans)
          (t₃ : List PeeringTrans),
          tr = t₁ ++ x :: (t₂ ++ y :: t₃) ∧ Loses x 0
          ∧ (∀ z ∈ t₂, z.act ≠ .readActive ∧ z.act ≠ .requestRelease)
          ∧ PeeringEvent.server (.accepted 1) ∈ y.out)
      ∧ m.world.broker.activeSession = some 0
      ∧ PeeringEvent.broker (.releaseStarted 0) ∉ events tr := by
  obtain ⟨tr, m, hrun, hacts, ⟨hx, hmid, hy⟩, hactive, hnone⟩ :=
    exec_of_decide peeringStep
      (newPeering (newBroker sampleDevice true 1)) sendFails
      (fun tr m => tr.map Trans.act = sendFails
        ∧ ((∃ x ∈ tr[26]?, Loses x 0)
          ∧ (∀ z ∈ (tr.drop 27).take 4,
              z.act ≠ .readActive ∧ z.act ≠ .requestRelease)
          ∧ ∃ y ∈ (tr.drop 27)[4]?,
              PeeringEvent.server (.accepted 1) ∈ y.out)
        ∧ m.world.broker.activeSession = some 0
        ∧ PeeringEvent.broker (.releaseStarted 0) ∉ events tr)
      (by decide +kernel)
  exact ⟨tr, m, hrun, hacts, exists_moments 26 4 hx hmid hy, hactive, hnone⟩

end Callbridge.Bluez
