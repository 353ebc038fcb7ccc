/-
A transport that waits for its peer does not wait for ever: its expiry
timer is armed for its path and its configuration
(`held_transport_expires`).

`acquire` arms a timer on one return only, for one path, while a linked
call puts two transports into the map. What it leaves there is covered as
long as a linked call can be paired with its own peer alone
(`World.ownPeer`); otherwise the linked peer stays behind with no timer
(`linked_peer_stays`).
-/
import Callbridge.Bluez.Proofs.Descriptors

namespace Callbridge.Bluez

open Lib

variable {b b' : Broker} {w w' : World} {es : List Event}
  {held peer t : PendingTransport} {p : ObjectPath}

-- == linked pairs

/-- The linked peer is opposite to the transport it was acquired with, and
nothing else that is held is. -/
def Broker.ownPeer (b : Broker) (held : PendingTransport) :
    Option PendingTransport → Bool
  | none => true
  | some peer =>
      peer.config.direction != held.config.direction
        && b.pending.sorted.all fun entry =>
          entry.2.config.direction == held.config.direction

/-- A linked call that the step brings to its pairing finds it so. -/
def World.ownPeer (w : World) : Action → Bool
  | .acquire id (.hold _) =>
      match w.acquires[id]? with
      | some (.held _ transport linkedPeer) =>
          w.broker.ownPeer transport linkedPeer
      | _ => true
  | _ => true

/-- The linked peer is the only candidate. -/
theorem ownPeer_iff :
    b.ownPeer held (some peer) = true
      ↔ peer.config.direction ≠ held.config.direction
        ∧ ∀ p t, b.pending.lookup p = some t →
          t.config.direction = held.config.direction := by
  unfold Broker.ownPeer
  rw [Bool.and_eq_true, bne_iff_ne, List.all_eq_true]
  refine and_congr_right fun _ => ⟨?_, ?_⟩
  · intro h p t ht
    exact beq_iff_eq.mp (h (p, t) (GoMap.mem_sorted.mpr ht))
  · rintro h ⟨p, t⟩ hmem
    exact beq_iff_eq.mpr (h p t (GoMap.mem_sorted.mp hmem))

/-- The linked peer is the only candidate then. -/
theorem Candidate.eq_peer (h : b.ownPeer held (some peer) = true)
    (hc : Candidate (b.place held (some peer)) held t) : t = peer := by
  obtain ⟨⟨p, hp⟩, hne, hdir⟩ := hc
  rcases lookup_place hp with hb | ⟨rfl | ht, -⟩
  · exact absurd ((ownPeer_iff.mp h).2 p t hb) hdir
  · exact absurd rfl hne
  · exact (Option.some.inj ht).symm

theorem candidate_peer (hp : Placeable b held (some peer))
    (h : b.ownPeer held (some peer) = true) :
    Candidate (b.place held (some peer)) held peer := by
  refine ⟨⟨peer.path, ?_⟩, hp.path_ne, (ownPeer_iff.mp h).1⟩
  show ((b.holdPending held).holdPending peer).pending.lookup _ = _
  rw [lookup_holdPending, if_pos rfl]

/-- What is left once a candidate has been taken out with the transport
itself. -/
theorem Candidate.left {linkedPeer : Option PendingTransport}
    (hown : b.ownPeer held linkedPeer = true)
    (hc : Candidate (b.place held linkedPeer) held peer)
    (ht : (((b.place held linkedPeer).dropPending held.path).dropPending
      peer.path).pending.lookup p = some t) :
    b.pending.lookup p = some t := by
  obtain ⟨hpeer, ht⟩ := lookup_dropPending ht
  obtain ⟨hheld, ht⟩ := lookup_dropPending ht
  rcases lookup_place ht with hb | ⟨rfl | rfl, hp⟩
  · exact hb
  · exact absurd hp hheld
  · rw [hc.eq_peer hown] at hpeer
    exact absurd hp hpeer

/-- What the region leaves in the map was there before, or is the
transport it parks. -/
theorem Held.left {linkedPeer : Option PendingTransport} {o : HoldOutcome}
    (hown : b.ownPeer held linkedPeer = true)
    (h : Held b held linkedPeer o b' es) (ht : b'.pending.lookup p = some t) :
    b.pending.lookup p = some t ∨ o = .parked ∧ p = held.path ∧ t = held := by
  cases h with
  | refused => exact Or.inl ht
  | taken _ _ =>
    obtain ⟨hne, hl⟩ := lookup_dropPending ht
    rw [lookup_holdPending, if_neg hne] at hl
    exact Or.inl hl
  | parked hplace hnone =>
    rcases lookup_place ht with hb | ⟨rfl | rfl, hp⟩
    · exact Or.inl hb
    · exact Or.inr ⟨rfl, hp, rfl⟩
    · exact absurd (candidate_peer hplace hown) (hnone t)
  | mismatched _ hc | paired _ hc => exact Or.inl (hc.left hown ht)

-- == the timers

/-- Every transport held has a timer armed. -/
def Timed (w : World) : Prop :=
  ∀ p t, w.broker.pending.lookup p = some t →
    (p, t.config.generation) ∈ w.timers

theorem Timed.of_sub (h : Timed w)
    (hsub : HeldBefore w.broker w'.broker)
    (htimers : w'.timers = w.timers) : Timed w' := by
  intro p t ht
  rw [htimers]
  exact h p t (hsub p t ht)

/-- A timer that fires takes out what it was armed for. -/
theorem expirePending_eq {path : ObjectPath}
    (h : b.pending.lookup path = some held) :
    b.expirePending path held.config.generation
      = (b.dropPending path, [.closed held.fd]) := by
  unfold Broker.expirePending
  rw [h]
  exact if_pos rfl

theorem lookup_expirePending {path : ObjectPath} {generation : UInt64}
    (h : (b.expirePending path generation).1.pending.lookup p = some t) :
    (p, t.config.generation) ≠ (path, generation) := by
  intro he
  obtain ⟨rfl, rfl⟩ := Prod.mk.inj he
  have hl := (Closes.expire b p t.config.generation).sub p t h
  rw [expirePending_eq hl] at h
  exact (lookup_dropPending h).1 rfl

/-- What `acquire` leaves in the map has its timer. -/
theorem AcquireMove.timed {id : AcquireId} {call : Acquire}
    {act : AcquireAct} (hid : w.acquires[id]? = some call)
    (hown : w.ownPeer (.acquire id act) = true)
    (h : AcquireMove w id call act w' es) (ht : Timed w) : Timed w' := by
  have hapart : ∀ {a held linkedPeer order},
      call = .held a held linkedPeer → act = .hold order →
      w.broker.ownPeer held linkedPeer = true := by
    rintro a held linkedPeer order rfl rfl
    simp only [World.ownPeer, hid] at hown
    exact hown
  cases h with
  | giveBack hhold =>
    intro p t hl
    rcases (Held.of_holdTransport hhold).left (hapart rfl rfl) hl
      with hb | ⟨ho, -⟩
    · exact ht p t hb
    · cases ho
  | park hhold =>
    intro p t hl
    rcases (Held.of_holdTransport hhold).left (hapart rfl rfl) hl
      with hb | ⟨-, rfl, rfl⟩
    · exact List.mem_cons_of_mem _ (ht p t hb)
    · exact List.mem_cons_self
  | pair hhold =>
    intro p t hl
    rcases (Held.of_holdTransport hhold).left (hapart rfl rfl) hl
      with hb | ⟨ho, -⟩
    · exact ht p t hb
    · cases ho
  | publish _ _ hpub _ =>
    refine ht.of_sub (fun p t hl => ?_) rfl
    rw [← hpub.closed.2.2]
    exact hl
  | _ => exact ht

theorem step_timed {act : Action} (ht : Timed w)
    (hown : w.ownPeer act = true) (h : step w act = some (w', es)) :
    Timed w' := by
  cases CustodyMove.of_step h with
  | region _ hc htimers _ _ => exact ht.of_sub hc.sub htimers
  | expire hin =>
    intro p t hl
    exact (List.mem_erase_of_ne (lookup_expirePending hl)).mpr
      (ht p t ((Closes.expire ..).sub p t hl))
  | acquire hid hm => exact hm.timed hid hown ht

section Runs

variable {device : Bytes} {required : Bool} {wait : Nat}
  {tr : List WorldTrans}

/-- In a run whose linked calls can be paired with their own peers alone,
every transport held has a timer armed for its path and its configuration,
and that timer closes it. -/
theorem held_transport_expires
    (hrun : Exec step (newWorld (newBroker device required wait)) tr w)
    (hown : ∀ x ∈ tr, x.pre.ownPeer x.act = true)
    {path : ObjectPath} {held : PendingTransport}
    (hheld : w.broker.pending.lookup path = some held) :
    (path, held.config.generation) ∈ w.timers
      ∧ ∃ w', step w (.expire path held.config.generation)
          = some (w', [.closed held.fd])
        ∧ w'.broker.pending.lookup path = none := by
  have ht : Timed w := by
    refine hrun.inv_of (P := Timed)
      (G := fun x : WorldTrans => x.pre.ownPeer x.act = true)
      ?_ (fun ht hown h => step_timed ht hown h) hown
    intro p t h
    cases h
  have hin := ht path held hheld
  refine ⟨hin, { w with
    broker := w.broker.dropPending path
    timers := w.timers.erase (path, held.config.generation) }, ?_, ?_⟩
  · simp only [step]
    rw [if_pos hin, expirePending_eq hheld]
  · show (w.broker.pending.erase path).lookup path = none
    rw [GoMap.lookup_erase, if_pos rfl]

end Runs

/-- A third transport waits alone. -/
theorem held_transport_expires_third :
    ∃ tr w held, Exec step (newWorld (newBroker sampleDevice true 1)) tr w
      ∧ (∀ x ∈ tr, x.pre.ownPeer x.act = true)
      ∧ w.broker.pending.lookup (samplePath 3) = some held
      ∧ (samplePath 3, held.config.generation) ∈ w.timers := by
  obtain ⟨tr, w, hrun, hown, hheld⟩ := exec_of_decide step
      (newWorld (newBroker sampleDevice true 1))
      pairAndThird (fun tr w =>
        (∀ x ∈ tr, x.pre.ownPeer x.act = true)
          ∧ w.broker.pending.lookup (samplePath 3) = some
            (sampleHeld (samplePath 3) (samplePath 3) .source 3 [] 2))
      (by decide +kernel)
  exact ⟨tr, w, _, hrun, hown, hheld,
    (held_transport_expires hrun hown hheld).1⟩

/-- A third transport is held when a linked pair comes, and the map is
ranged over with the third transport first. -/
def thirdThenPair : List Action :=
  [Action.connect sampleDevice,
    .configure true (samplePath 3) .source sampleCodec sampleQoS]
    ++ parkAlone 0 (samplePath 3) .source 1 0
    ++ configurePair (samplePath 1) (samplePath 2)
    ++ [.signal (samplePath 1) .pending, .acquire 1 .enter,
      .acquire 1 (.readLinks (some [samplePath 2])), .acquire 1 .mark,
      .acquire 1 (.tryAcquire (some ⟨40, 40,
        some (sampleQoS, [samplePath 2]), some (sampleQoS, [samplePath 1]),
        true⟩)),
      .acquire 1 (.hold [
        (samplePath 3,
          sampleHeld (samplePath 3) (samplePath 3) .source 1 [] 0),
        (samplePath 1, sampleHeld (samplePath 1) (samplePath 1) .sink 2
          [samplePath 2] 1),
        (samplePath 2, sampleHeld (samplePath 2) (samplePath 1) .source 3
          [samplePath 1] 2)]),
      .acquire 1 .unmark]

/-- Both calls have returned, the linked peer is held, and no timer was
ever armed for it. -/
theorem linked_peer_stays :
    ∃ tr w held, Exec step (newWorld (newBroker sampleDevice true 1)) tr w
      ∧ (∀ call ∈ w.acquires, call = .done)
      ∧ w.broker.pending.lookup (samplePath 2) = some held
      ∧ ∀ timer ∈ w.timers, timer.1 ≠ samplePath 2 := by
  obtain ⟨tr, w, hrun, htest⟩ := exec_of_decide step
      (newWorld (newBroker sampleDevice true 1))
      thirdThenPair (fun _ w =>
        (∀ call ∈ w.acquires, call = .done)
          ∧ w.broker.pending.lookup (samplePath 2) = some
            (sampleHeld (samplePath 2) (samplePath 1) .source 3
              [samplePath 1] 2)
          ∧ ∀ timer ∈ w.timers, timer.1 ≠ samplePath 2) (by decide +kernel)
  exact ⟨tr, w, _, hrun, htest⟩

end Callbridge.Bluez
