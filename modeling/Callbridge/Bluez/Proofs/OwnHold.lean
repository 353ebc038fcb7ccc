/-
Which transport an expiry timer takes out of `pending`.

`expirePending` finds its target by path and configuration generation. A
transport can leave the map while its timer runs, and the same path can be
acquired again under the same configuration: the old timer then finds the
new transport. It finds its own as long as no transport comes to a free
place while a timer runs for it (`FreshHold`).
-/
import Callbridge.Bluez.Timers
import Callbridge.Bluez.Proofs.Expiry

namespace Callbridge.Bluez

open Lib

variable {b b' : Broker} {w w' : World} {m m' : Timing} {act : TimingAct}
  {es : List Event} {held t : PendingTransport} {x : TimingTrans}
  {tr : List TimingTrans} {a : Action} {linkedPeer : Option PendingTransport}

-- == the steps

/-- A step is one of the broker that the timers allow. -/
theorem timingStep_eq_some :
    timingStep m act = some (m', es)
      ↔ m.enabled act = true
        ∧ step m.world act.region = some (m'.world, es)
        ∧ m'.armed = m.nextArmed act := by
  obtain ⟨world', armed'⟩ := m'
  unfold timingStep
  simp only [Option.ite_none_right_eq_some, Option.map_eq_some_iff,
    Prod.mk.injEq, Timing.mk.injEq]
  refine and_congr_right fun _ => ?_
  constructor
  · intro h
    obtain ⟨r, hr, ⟨rfl, rfl⟩, rfl⟩ := h
    exact ⟨hr, rfl⟩
  · intro h
    exact ⟨(world', es), h.1, ⟨rfl, h.2.symm⟩, rfl⟩

/-- A region that is no timer's arms the timer of the transport it parks
and leaves the others. -/
theorem timers_of_step (h : step w a = some (w', es))
    (ha : a.isExpiry = false) :
    w'.timers = (w.parks a).toList.map PendingTransport.slot
      ++ w.timers := by
  cases CustodyMove.of_step h with
  | region hact _ htimers _ _ =>
    have hparks : w.parks a = none := by
      cases a with
      | acquire id act => exact absurd rfl (hact id act)
      | _ => rfl
    rw [htimers, hparks]
    rfl
  | expire _ => cases ha
  | acquire hid hm =>
    cases hm with
    | giveBack ho | park ho | pair ho =>
      simp only [World.parks, hid, ho]
      rfl
    | _ => rfl

-- == the same machine

/-- The timers the broker runs are those of the transports remembered. -/
def Tagged (m : Timing) : Prop :=
  m.world.timers.Perm (m.armed.map PendingTransport.slot)

/-- The timers told apart are those the broker runs. -/
theorem Tagged.of_step (hm : Tagged m)
    (h : timingStep m act = some (m', es)) : Tagged m' := by
  obtain ⟨hen, hstep, harmed⟩ := timingStep_eq_some.mp h
  unfold Tagged
  rw [harmed]
  cases act with
  | broker a =>
    have ha : a.isExpiry = false := by simpa [Timing.enabled] using hen
    rw [timers_of_step hstep ha, Timing.nextArmed, List.map_append]
    exact hm.append_left _
  | fire held =>
    have hin : held ∈ m.armed := of_decide_eq_true hen
    -- the broker drops one timer of the slot, the memory this one
    rw [(step_expire hstep).2.1, Timing.nextArmed]
    have hback := (List.perm_cons_erase hin).map PendingTransport.slot
    exact (hm.erase _).trans ((hback.erase held.slot).trans (by simp))

/-- A run with the timers told apart is a run of the broker. -/
theorem Timing.run_world (h : Exec timingStep (newTiming b) tr m) :
    Exec step (newWorld b) (tr.filterMap fun x =>
      some ⟨x.pre.world, x.act.region, x.out, x.post.world⟩) m.world := by
  refine h.project (v := Timing.world) ?_ ?_
  · intro x _ hx
    cases hx
  · intro x y hx hy
    cases hy
    exact ⟨rfl, rfl, (timingStep_eq_some.mp hx).2.1⟩

/-- Every run of the broker is a run with the timers told apart. -/
theorem timing_of_run {t : List WorldTrans}
    (h : Exec step (newWorld b) t w) :
    ∃ (tr : List TimingTrans) (m : Timing),
      Exec timingStep (newTiming b) tr m ∧ m.world = w
        ∧ tr.map (fun x => x.act.region) = t.map Trans.act
        ∧ events tr = events t := by
  induction h with
  | nil => exact ⟨[], newTiming b, Exec.nil, rfl, rfl, rfl⟩
  | @snoc t w w' a es _ hstep ih =>
    obtain ⟨tr, m, hrun, rfl, hacts, hev⟩ := ih
    have hm : Tagged m := hrun.inv (List.Perm.refl _) Tagged.of_step
    have hnext : ∃ act, act.region = a ∧ m.enabled act = true := by
      cases a with
      | expire path generation =>
        obtain ⟨held, hheld, hslot⟩ :=
          List.mem_map.mp (hm.mem_iff.mp (step_expire hstep).1)
        refine ⟨.fire held, ?_, decide_eq_true hheld⟩
        show Action.expire held.slot.1 held.slot.2 = _
        rw [hslot]
      | _ => exact ⟨.broker _, rfl, rfl⟩
    obtain ⟨act, rfl, hen⟩ := hnext
    have hm' : timingStep m act = some (⟨w', m.nextArmed act⟩, es) :=
      timingStep_eq_some.mpr ⟨hen, hstep, rfl⟩
    refine ⟨_, _, hrun.snoc hm', rfl, ?_, ?_⟩
    · rw [List.map_append, List.map_append, hacts]
      rfl
    · rw [events_snoc, events_snoc, hev]

-- == the places

/-- The transports an `acquire` call brings to its hold. -/
def World.inHand (w : World) : Action → List PendingTransport
  | .acquire id (.hold _) =>
      match w.acquires[id]? with
      | some (.held _ transport linkedPeer) =>
          transport :: linkedPeer.toList
      | _ => []
  | _ => []

/-- No transport comes to a free place while a timer runs for its path and
its configuration. -/
def FreshHold (x : TimingTrans) : Prop :=
  ∀ t ∈ x.pre.world.inHand x.act.region,
    x.pre.world.broker.pending.lookup t.path = none →
    ∀ t' ∈ x.pre.armed, t'.slot ≠ t.slot

instance : Decidable (FreshHold x) :=
  inferInstanceAs (Decidable (∀ t ∈ x.pre.world.inHand x.act.region,
    x.pre.world.broker.pending.lookup t.path = none →
    ∀ t' ∈ x.pre.armed, t'.slot ≠ t.slot))

theorem Placeable.lookup_none (h : Placeable b held linkedPeer)
    (ht : t = held ∨ linkedPeer = some t) :
    b.pending.lookup t.path = none := by
  rcases ht with rfl | rfl
  · exact h.free
  · have hfree := (h.peer rfl).2
    rw [lookup_holdPending, if_neg h.path_ne] at hfree
    exact hfree

/-- What stands in the map after the region stood there before, or is one
of its own transports in a place that was free. -/
theorem Held.entry {o : HoldOutcome} {p : ObjectPath}
    (h : Held b held linkedPeer o b' es) (ht : b'.pending.lookup p = some t) :
    b.pending.lookup p = some t
      ∨ (t = held ∨ linkedPeer = some t) ∧ p = t.path
        ∧ b.pending.lookup p = none := by
  have hplace : Placeable b held linkedPeer →
      (b.place held linkedPeer).pending.lookup p = some t →
      b.pending.lookup p = some t
        ∨ (t = held ∨ linkedPeer = some t) ∧ p = t.path
          ∧ b.pending.lookup p = none := by
    intro hp hl
    refine (lookup_place hl).imp id ?_
    intro hown
    refine ⟨hown.1, hown.2, ?_⟩
    rw [hown.2]
    exact hp.lookup_none hown.1
  cases h with
  | refused => exact Or.inl ht
  | taken _ _ =>
    obtain ⟨hne, hl⟩ := lookup_dropPending ht
    rw [lookup_holdPending, if_neg hne] at hl
    exact Or.inl hl
  | parked hp _ => exact hplace hp ht
  | mismatched hp _ | paired hp _ =>
    exact hplace hp (lookup_dropPending (lookup_dropPending ht).2).2

/-- The transport a region parks stands in its place. -/
theorem Held.lookup_parked (h : Held b held linkedPeer .parked b' es) :
    b'.pending.lookup held.path = some held := by
  cases h with
  | parked hp _ =>
    cases linkedPeer with
    | none =>
      show (b.holdPending held).pending.lookup held.path = some held
      rw [lookup_holdPending, if_pos rfl]
    | some peer =>
      show ((b.holdPending held).holdPending peer).pending.lookup
        held.path = some held
      rw [lookup_holdPending, if_neg hp.path_ne.symm,
        lookup_holdPending, if_pos rfl]

/-- What a step leaves in the map was there, or comes with an `acquire`
call to a place that was free. -/
theorem entry_of_step {p : ObjectPath} (h : step w a = some (w', es))
    (ht : w'.broker.pending.lookup p = some t) :
    w.broker.pending.lookup p = some t
      ∨ t ∈ w.inHand a ∧ p = t.path
        ∧ w.broker.pending.lookup p = none := by
  cases CustodyMove.of_step h with
  | region _ hc _ _ _ => exact Or.inl (hc.sub p t ht)
  | expire _ => exact Or.inl ((Closes.expire ..).sub p t ht)
  | acquire hid hm =>
    cases hm with
    | giveBack ho | park ho | pair ho =>
      refine ((Held.of_holdTransport ho).entry ht).imp id ?_
      intro hown
      refine ⟨?_, hown.2⟩
      simp only [World.inHand, hid, List.mem_cons, Option.mem_toList]
      exact hown.1
    | publish _ _ hpub _ =>
      rw [← hpub.closed.2.2]
      exact Or.inl ht
    | _ => exact Or.inl ht

/-- A parked transport is in the map. -/
theorem lookup_of_parks (h : step w a = some (w', es))
    (hp : w.parks a = some held) :
    w'.broker.pending.lookup held.path = some held := by
  cases CustodyMove.of_step h with
  | region hact _ _ _ _ =>
    cases a with
    | acquire id act => exact absurd rfl (hact id act)
    | _ => cases hp
  | expire _ => cases hp
  | acquire hid hm =>
    cases hm with
    | giveBack ho | pair ho =>
      simp only [World.parks, hid, ho] at hp
      cases hp
    | park ho =>
      simp only [World.parks, hid, ho] at hp
      cases hp
      exact (Held.of_holdTransport ho).lookup_parked
    | _ => cases hp

-- == the invariant

/-- A timer that would find a transport in the map is that transport's
own. -/
def OwnTimers (m : Timing) : Prop :=
  ∀ p t, m.world.broker.pending.lookup p = some t →
    ∀ t' ∈ m.armed, t'.slot = (p, t.config.generation) → t' = t

/-- Fresh holds keep every timer on its own transport. -/
theorem OwnTimers.of_step (hm : OwnTimers x.pre) (hfresh : FreshHold x)
    (h : timingStep x.pre x.act = some (x.post, x.out)) :
    OwnTimers x.post := by
  obtain ⟨hen, hstep, harmed⟩ := timingStep_eq_some.mp h
  intro p t ht t' ht' hslot
  -- a timer that ran before: the transport is old, or its place was free
  have hold : t' ∈ x.pre.armed → t' = t := by
    intro hin
    rcases entry_of_step hstep ht with hbefore | ⟨hhand, hp, hfree⟩
    · exact hm p t hbefore t' hin hslot
    · rw [hp] at hfree hslot
      exact absurd hslot (hfresh t hhand hfree t' hin)
  rw [harmed] at ht'
  cases hact : x.act with
  | fire held =>
    rw [hact] at ht'
    exact hold (List.mem_of_mem_erase ht')
  | broker a =>
    rw [hact] at ht' hstep
    rcases List.mem_append.mp ht' with hnew | hin
    · -- the timer started by this step finds what the step has parked
      have hparked := lookup_of_parks hstep (Option.mem_toList.mp hnew)
      have hp : t'.path = p := congrArg Prod.fst hslot
      rw [hp, ht] at hparked
      exact (Option.some.inj hparked).symm
    · exact hold hin

/-- A timer finds nothing, or the transport of its path and its
generation. -/
theorem expirePending_cases (b : Broker) (path : ObjectPath)
    (generation : UInt64) :
    b.expirePending path generation = (b, [])
      ∨ ∃ t, b.pending.lookup path = some t
        ∧ t.config.generation = generation
        ∧ b.expirePending path generation
          = (b.dropPending path, [.closed t.fd]) := by
  by_cases hfind : ∃ t, b.pending.lookup path = some t
      ∧ t.config.generation = generation
  · obtain ⟨t, ht, rfl⟩ := hfind
    exact Or.inr ⟨t, ht, rfl, expirePending_eq ht⟩
  · refine Or.inl ?_
    unfold Broker.expirePending
    cases ht : b.pending.lookup path with
    | none => rfl
    | some t => exact if_neg fun hg => hfind ⟨t, ht, hg⟩

section Runs

variable {device : Bytes} {required : Bool} {wait : Nat}

theorem run_ownTimers
    (hrun : Exec timingStep (newTiming (newBroker device required wait))
      tr m)
    (hfresh : ∀ x ∈ tr, FreshHold x) : OwnTimers m := by
  refine hrun.inv_of (P := OwnTimers) (G := FreshHold) ?_
    OwnTimers.of_step hfresh
  intro p t ht
  cases ht

/-- What the timer of a transport takes out of the map and closes is that
transport. -/
def ExpiresOwn (x : TimingTrans) : Prop :=
  ∀ held, x.act = .fire held →
    (∀ p t, x.pre.world.broker.pending.lookup p = some t →
      x.post.world.broker.pending.lookup p ≠ some t → t = held)
    ∧ ∀ fd, .closed fd ∈ x.out → fd = held.fd

/-- In a run in which no transport comes to a free place while a timer
runs for its path and its configuration, every timer takes out and closes
only the transport it was started for. -/
theorem timer_expires_own_hold
    (hrun : Exec timingStep (newTiming (newBroker device required wait))
      tr m)
    (hfresh : ∀ x ∈ tr, FreshHold x) : ∀ x ∈ tr, ExpiresOwn x := by
  intro x hx held hact
  obtain ⟨t₁, t₂, rfl, hpre, hstep, -⟩ := hrun.of_mem hx
  have hown := run_ownTimers hpre fun y hy =>
    hfresh y (List.mem_append_left _ hy)
  obtain ⟨hen, hstep, -⟩ := timingStep_eq_some.mp hstep
  rw [hact] at hen hstep
  have hin : held ∈ x.pre.armed := of_decide_eq_true hen
  have hexp := (step_expire hstep).2.2
  rcases expirePending_cases x.pre.world.broker held.slot.1 held.slot.2
    with hmiss | ⟨t, ht, hgen, hhit⟩
  · rw [hmiss] at hexp
    obtain ⟨hb, hout⟩ := Prod.mk.inj hexp
    constructor
    · intro p t ht hgone
      rw [hb] at hgone
      exact absurd ht hgone
    · intro fd hfd
      rw [hout] at hfd
      cases hfd
  · -- what it finds at its slot is its own
    obtain rfl : held = t := hown _ t ht held hin (by rw [hgen])
    rw [hhit] at hexp
    obtain ⟨hb, hout⟩ := Prod.mk.inj hexp
    constructor
    · intro p t' ht' hgone
      by_cases hp : p = held.slot.1
      · rw [hp, ht] at ht'
        exact (Option.some.inj ht').symm
      · refine absurd ?_ hgone
        rw [hb]
        show (x.pre.world.broker.pending.erase held.slot.1).lookup p = _
        rw [GoMap.lookup_erase, if_neg hp]
        exact ht'
    · intro fd hfd
      rw [hout] at hfd
      cases List.mem_singleton.mp hfd
      rfl

end Runs

-- == schedules

def regions (acts : List Action) : List TimingAct := acts.map .broker

/-- A transport is held alone until its timer fires. -/
def heldAlone : List TimingAct :=
  regions ([Action.connect sampleDevice,
      .configure true (samplePath 3) .source sampleCodec sampleQoS]
    ++ parkAlone 0 (samplePath 3) .source 1 0)
    ++ [.fire (sampleHeld (samplePath 3) (samplePath 3) .source 1 [] 0)]

/-- One transport, and its timer. -/
theorem timer_expires_own_hold_alone :
    ∃ tr m, Exec timingStep (newTiming (newBroker sampleDevice true 1)) tr m
      ∧ .closed 0 ∈ events tr ∧ (∀ x ∈ tr, FreshHold x)
      ∧ ∀ x ∈ tr, ExpiresOwn x := by
  obtain ⟨tr, m, hrun, hclosed, hfresh⟩ := exec_of_decide timingStep
      (newTiming (newBroker sampleDevice true 1))
      heldAlone (fun tr _ => Event.closed 0 ∈ events tr
        ∧ ∀ x ∈ tr, FreshHold x) (by decide +kernel)
  exact ⟨tr, m, hrun, hclosed, hfresh, timer_expires_own_hold hrun hfresh⟩

/-- A sink held alone, a source that is paired with it, and no call token
for the pair, which goes back to BlueZ. -/
def pairGoesBack : List Action :=
  Action.connect sampleDevice :: configurePair (samplePath 1) (samplePath 2)
    ++ parkAlone 0 (samplePath 1) .sink 1 0
    ++ [Action.signal (samplePath 2) .pending, .acquire 1 .enter,
      .acquire 1 (.readLinks (some [])), .acquire 1 .mark,
      .acquire 1 (.tryAcquire (some ⟨40, 40, some (sampleQoS, []), none,
        false⟩)),
      .acquire 1 (.hold [
        (samplePath 1, sampleHeld (samplePath 1) (samplePath 1) .sink 1 []
          0),
        (samplePath 2, sampleHeld (samplePath 2) (samplePath 2) .source 2
          [] 1)]),
      .acquire 1 (.poll none true),
      .acquire 1 (.publish (some (1, 0)) (some (1, 0)) none 0),
      .acquire 1 .unmark]

/-- The sink is then acquired again, and the timer of the first hold
fires. -/
def heldAgain : List TimingAct :=
  regions (pairGoesBack ++ parkAlone 2 (samplePath 1) .sink 1 2)
    ++ [.fire (sampleHeld (samplePath 1) (samplePath 1) .sink 1 [] 0)]

/-- The timer started for the first hold takes out and closes the
second. -/
theorem timer_expires_later_hold :
    ∃ tr m, Exec timingStep (newTiming (newBroker sampleDevice true 1)) tr m
      ∧ (∃ x ∈ tr.getLast?, x.act = .fire
            (sampleHeld (samplePath 1) (samplePath 1) .sink 1 [] 0)
          ∧ x.pre.world.broker.pending.lookup (samplePath 1) = some
            (sampleHeld (samplePath 1) (samplePath 1) .sink 1 [] 2)
          ∧ x.post.world.broker.pending.lookup (samplePath 1) = none
          ∧ .closed 2 ∈ x.out)
      ∧ ∃ x ∈ tr, ¬ ExpiresOwn x := by
  obtain ⟨tr, m, hrun, hlast⟩ := exec_of_decide timingStep
      (newTiming (newBroker sampleDevice true 1))
      heldAgain (fun tr _ => ∃ x ∈ tr.getLast?, x.act = .fire
            (sampleHeld (samplePath 1) (samplePath 1) .sink 1 [] 0)
          ∧ x.pre.world.broker.pending.lookup (samplePath 1) = some
            (sampleHeld (samplePath 1) (samplePath 1) .sink 1 [] 2)
          ∧ x.post.world.broker.pending.lookup (samplePath 1) = none
          ∧ Event.closed 2 ∈ x.out) (by decide +kernel)
  refine ⟨tr, m, hrun, hlast, ?_⟩
  obtain ⟨x, hx, hact, -, -, hclosed⟩ := hlast
  refine ⟨x, List.mem_of_getLast? hx, ?_⟩
  intro hown
  cases (hown _ hact).2 2 hclosed

end Callbridge.Bluez
