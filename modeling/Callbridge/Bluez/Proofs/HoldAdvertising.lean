/-
The hold and the advertisement. The loop looks at the hold before it
rearms, after a disconnect or on request, and nowhere else: not at
startup, not between the look and the call, and a hold laid while the
advertisement is up takes nothing down. `LaidSafely` says of a step that
it does not run into one of these.
-/
import Callbridge.Bluez.Proofs.AdvSteps

namespace Callbridge.Bluez

open Lib

variable {s s' : Adv} {act : AdvAct} {es : List AdvEvent}

abbrev AdvTrans := Lib.Trans Adv AdvAct AdvEvent

-- == the condition

/-- The loop has decided to call RegisterAdvertisement. -/
def Adv.registering (s : Adv) : Bool :=
  match s.pc with
  | .set cause => cause.enable && !s.registered
  | _ => false

/-- The loop has yet to see an LE connect, or is about to act on one, or
is returning: the advertisement is going down. -/
def Adv.unwinding (s : Adv) : Bool :=
  s.signals.contains (.bearer true) ||
    match s.pc with
    | .set .connected => true
    | .leaving _ => true
    | _ => false

/-- The hold is laid only on an advertisement that is down, and not about
to be registered, or is going down; and `runBlueZOnce` does not find the
link down at startup while the hold is set. -/
structure LaidSafely (x : AdvTrans) : Prop where
  laid : x.act = .hold true →
    x.pre.registering = false
      ∧ (x.pre.advertised = true → x.pre.unwinding = true)
  startup : x.act = .loop (.advance true) →
    x.pre.pc = .startRead ∨ x.pre.pc = .startReset →
    x.pre.connected = false → x.pre.advertisementHold = false

instance (x : AdvTrans) : Decidable (LaidSafely x) :=
  decidable_of_iff (_ ∧ _)
    ⟨fun h => ⟨h.1, h.2⟩, fun h => ⟨h.laid, h.startup⟩⟩

-- == the invariant

structure HoldInv (s : Adv) : Prop where
  backed : Backed s
  /-- Outside `runBlueZOnce` BlueZ has nothing. -/
  outside : s.pc = .stopped ∨ s.pc = .finished → s.advertised = false
  quiet : s.advertisementHold = true → s.registering = false
  down : s.advertisementHold = true → s.advertised = true →
    s.unwinding = true

theorem newAdv_holdInv (connected : Bool) : HoldInv (newAdv connected) :=
  ⟨nofun, fun _ => rfl, nofun, nofun⟩

theorem registering_of_pc (h : ∀ cause, s.pc ≠ .set cause) :
    s.registering = false := by
  unfold Adv.registering
  split
  case h_1 cause hpc => exact absurd hpc (h cause)
  case h_2 => rfl

theorem registering_set {cause : Cause} (h : s.pc = .set cause) :
    s.registering = (cause.enable && !s.registered) := by
  unfold Adv.registering
  rw [h]

theorem unwinding_of_queued (h : Signal.bearer true ∈ s.signals) :
    s.unwinding = true := by
  unfold Adv.unwinding
  rw [List.contains_iff_mem.mpr h, Bool.true_or]

theorem unwinding_of_pc
    (h : s.pc = .set .connected ∨ ∃ e, s.pc = .leaving e) :
    s.unwinding = true := by
  unfold Adv.unwinding
  rcases h with h | ⟨e, h⟩ <;> rw [h, Bool.or_true]

theorem unwinding_cases (h : s.unwinding = true) :
    Signal.bearer true ∈ s.signals ∨ s.pc = .set .connected
      ∨ ∃ e, s.pc = .leaving e := by
  rcases Bool.or_eq_true_iff.mp h with hq | hpc
  · exact Or.inl (List.contains_iff_mem.mp hq)
  · right
    split at hpc
    case h_1 he => exact Or.inl he
    case h_2 e he => exact Or.inr ⟨e, he⟩
    case h_3 => cases hpc

/-- While the loop does something else, an LE connect is queued. -/
theorem HoldInv.queued (h : HoldInv s) (hpc : s.pc ≠ .set .connected)
    (hleave : ∀ e, s.pc ≠ .leaving e) (hon : s.advertisementHold = true)
    (hadv : s.advertised = true) : Signal.bearer true ∈ s.signals := by
  rcases unwinding_cases (h.down hon hadv) with hq | hset | ⟨e, he⟩
  · exact hq
  · exact absurd hset hpc
  · exact absurd he (hleave e)

/-- The loop goes to a place at which the call is not decided on. -/
theorem holdInv_goto {pc : LoopPc} (hb : Backed (s.goto pc))
    (hout : pc ≠ .stopped ∧ pc ≠ .finished) (hset : ∀ cause, pc ≠ .set cause)
    (hdown : s.advertisementHold = true → s.advertised = true →
      (s.goto pc).unwinding = true) : HoldInv (s.goto pc) := by
  refine ⟨hb, ?_, fun _ => registering_of_pc hset, hdown⟩
  rintro (h | h)
  · exact absurd h hout.1
  · exact absurd h hout.2

/-- The loop decides to register, the hold being clear. -/
theorem holdInv_decided {cause : Cause} (hb : Backed (s.goto (.set cause)))
    (hhold : s.advertisementHold = false) :
    HoldInv (s.goto (.set cause)) := by
  have hclear : (s.goto (.set cause)).advertisementHold ≠ true := by
    rw [show (s.goto (.set cause)).advertisementHold = false from hhold]
    nofun
  refine ⟨hb, ?_, fun hon => absurd hon hclear,
    fun hon => absurd hon hclear⟩
  rintro (h | h) <;> cases h

/-- Every step of the loop keeps the invariant, if startup finds the hold
clear. -/
theorem HoldInv.loop {act : LoopAct} (h : HoldInv s)
    (hsafe : act = .advance true →
      s.pc = .startRead ∨ s.pc = .startReset → s.connected = false →
      s.advertisementHold = false)
    (hm : LoopMove s act s' es) : HoldInv s' := by
  have hb := h.backed.loop hm
  cases hm with
  | start hpc =>
    refine ⟨hb, by simp, fun _ => registering_of_pc nofun, ?_⟩
    intro _ hadv
    exact absurd (h.outside (Or.inl hpc)) (by rw [hadv]; nofun)
  | readFailed e _ _ =>
    exact holdInv_goto hb ⟨nofun, nofun⟩ nofun
      (fun _ _ => unwinding_of_pc (Or.inr ⟨e, rfl⟩))
  | setFailed cause _ _ =>
    exact holdInv_goto hb ⟨nofun, nofun⟩ nofun
      (fun _ _ => unwinding_of_pc (Or.inr ⟨_, rfl⟩))
  | startConnected hpc _ | resetSkipped hpc | rearmRead hpc
  | rearmSkipped _ _ hpc _ | disconnectSkipped _ hpc _ =>
    refine holdInv_goto hb ⟨nofun, nofun⟩ nofun ?_
    intro hon hadv
    exact unwinding_of_queued (h.queued (by rw [hpc]; nofun)
      (by rw [hpc]; nofun) hon hadv)
  | startDown hpc hlink => exact holdInv_decided hb (hsafe rfl hpc hlink)
  | rearmDecided _ _ hhold => exact holdInv_decided hb hhold
  | disconnectDecided _ _ hhold => exact holdInv_decided hb hhold
  | setAlready cause _ hpc hreg =>
    refine holdInv_goto hb ⟨nofun, nofun⟩ nofun ?_
    intro hon hadv
    refine unwinding_of_queued (h.queued ?_ (by rw [hpc]; nofun) hon hadv)
    -- the advertisement is up, so the flag is set, and the handling of
    -- an LE connect does call BlueZ
    have hbel := h.backed hadv
    rw [believes_of_pc (by rw [hpc]; nofun), hreg] at hbel
    rw [hpc]
    rintro ⟨⟩
    cases hbel
  | setInvoked cause hpc hreg =>
    refine ⟨hb, by simp, fun _ => registering_of_pc nofun, ?_⟩
    intro hon hadv
    have hen : cause.enable = true := hadv
    have hquiet := h.quiet hon
    rw [registering_set hpc, hreg, hen] at hquiet
    cases hquiet
  | record cause _ hpc =>
    refine ⟨hb, by simp, fun _ => registering_of_pc nofun, ?_⟩
    intro hon hadv
    exact unwinding_of_queued (h.queued (by rw [hpc]; nofun)
      (by rw [hpc]; nofun) hon hadv)
  | leave e _ _ =>
    refine ⟨hb, fun _ => rfl, fun _ => registering_of_pc ?_,
      fun _ => nofun⟩
    unfold Adv.leave
    cases e.final <;> nofun
  | takeRearm hpc _ =>
    refine ⟨hb, by simp, fun _ => registering_of_pc nofun, ?_⟩
    intro hon hadv
    exact unwinding_of_queued (h.queued (by rw [hpc]; nofun)
      (by rw [hpc]; nofun) hon hadv)
  | nameLost rest _ _ =>
    exact ⟨hb, by simp, fun _ => registering_of_pc nofun,
      fun _ _ => unwinding_of_pc (Or.inr ⟨_, rfl⟩)⟩
  | sawConnect rest _ _ =>
    exact ⟨hb, by simp, fun _ => rfl,
      fun _ _ => unwinding_of_pc (Or.inl rfl)⟩
  | sawDisconnect rest hpc hsig =>
    refine ⟨hb, by simp, fun _ => registering_of_pc nofun, ?_⟩
    intro hon hadv
    have hq := h.queued (by rw [hpc]; nofun) (by rw [hpc]; nofun) hon hadv
    rw [hsig] at hq
    rcases List.mem_cons.mp hq with he | hq
    · cases he
    · exact unwinding_of_queued hq

/-- What reaches the signal channel only adds to it. -/
theorem HoldInv.emit (h : HoldInv s) (x : Signal) : HoldInv (s.emit x) := by
  unfold Adv.emit
  split
  case isFalse => exact h
  case isTrue =>
    refine ⟨h.backed, h.outside, h.quiet, ?_⟩
    intro hon hadv
    rcases unwinding_cases (h.down hon hadv) with hq | hpc
    · exact unwinding_of_queued (List.mem_append_left _ hq)
    · exact unwinding_of_pc hpc

/-- BlueZ drops the advertisement. -/
theorem HoldInv.dropped (h : HoldInv s) (connected advertising : Bool) :
    HoldInv { s with
      connected := connected
      advertised := false
      advertising := advertising } :=
  ⟨nofun, fun _ => rfl, h.quiet, fun _ => nofun⟩

/-- A step that lays the hold safely keeps it. -/
theorem step_holdInv (h : HoldInv s) (hx : LaidSafely ⟨s, act, es, s'⟩)
    (hstep : advStep s act = some (s', es)) : HoldInv s' := by
  cases AdvMove.of_step hstep with
  | loop hm =>
    refine h.loop ?_ hm
    rintro rfl
    exact hx.startup rfl
  | quit e hpc _ =>
    refine holdInv_goto ?_ ⟨nofun, nofun⟩ nofun
      (fun _ _ => unwinding_of_pc (Or.inr ⟨e, rfl⟩))
    intro hadv
    rw [believes_goto (by rw [hpc]; nofun) (by nofun)]
    exact h.backed hadv
  | hold on =>
    refine ⟨h.backed, h.outside, ?_, ?_⟩
    · intro hon
      obtain rfl : on = true := hon
      exact (hx.laid rfl).1
    · intro hon
      obtain rfl : on = true := hon
      exact (hx.laid rfl).2
  | send _ => exact ⟨h.backed, h.outside, h.quiet, h.down⟩
  | link connected _ =>
    have h' : HoldInv { s with connected := connected } :=
      ⟨h.backed, h.outside, h.quiet, h.down⟩
    exact h'.emit _
  | release _ => exact h.dropped s.connected false
  | bluezGone => exact (h.dropped false s.advertising).emit _

-- == runs

variable {connected : Bool} {tr t₁ t₂ t₃ : List AdvTrans}

theorem run_holdInv (h : Exec advStep (newAdv connected) tr s)
    (hsafe : ∀ x ∈ tr, LaidSafely x) : HoldInv s :=
  h.inv_of (G := LaidSafely) (newAdv_holdInv connected)
    (fun hi hx hs => step_holdInv hi hx hs) hsafe

/-- Only `HoldAdvertisement` moves the hold. -/
theorem hold_step (hstep : advStep s act = some (s', es))
    (hne : act ≠ .hold false) (hon : s.advertisementHold = true) :
    s'.advertisementHold = true := by
  cases AdvMove.of_step hstep with
  | loop hm => exact hm.frame.hold.trans hon
  | quit e _ _ => exact hon
  | hold on =>
    cases on with
    | true => rfl
    | false => exact absurd rfl hne
  | send _ => exact hon
  | link connected _ => exact (emit_hold _ _).trans hon
  | release _ => exact hon
  | bluezGone => exact (emit_hold _ _).trans hon

/-- A hold that was laid is in force until it is released. -/
theorem hold_during (h : Exec advStep s tr s')
    (hon : s.advertisementHold = true)
    (hnone : ∀ z ∈ tr, z.act ≠ .hold false) :
    s'.advertisementHold = true := by
  refine h.inv_of (P := fun r => r.advertisementHold = true)
    (G := fun z => z.act ≠ .hold false) hon ?_ hnone
  intro x hon hne hs
  exact hold_step hs hne hon

/-- RegisterAdvertisement is invoked at one place. -/
theorem registering_of_invoked (hstep : advStep s act = some (s', es))
    (hin : AdvEvent.invoked true ∈ es) : s.registering = true := by
  cases AdvMove.of_step hstep with
  | loop hm =>
    cases hm with
    | setInvoked cause hpc hreg | setFailed cause hpc hreg =>
      have he := List.mem_singleton.mp hin
      injection he with he
      rw [registering_set hpc, hreg, ← he]
      rfl
    | leave e _ _ =>
      unfold Adv.leave at hin
      cases s.registered <;> simp at hin
    | _ => simp at hin
  | _ => cases hin

/-- The loop waits, and has handled every signal and request. -/
def Adv.settled (s : Adv) : Bool :=
  decide (s.pc = .waiting ∧ s.signals = [] ∧ s.rearmRequest = false)

/-- In a run whose holds are laid safely the hold suspends advertising: a
settled loop under the hold has no advertisement up, and
RegisterAdvertisement is not invoked from one `HoldAdvertisement(true)`
to the next `HoldAdvertisement(false)`. -/
theorem hold_suspends_advertising (connected : Bool) {tr : List AdvTrans}
    {s : Adv} (hrun : Exec advStep (newAdv connected) tr s)
    (hsafe : ∀ x ∈ tr, LaidSafely x) :
    (s.settled = true → s.advertisementHold = true →
      s.advertised = false)
    ∧ ∀ t₁ (y : AdvTrans) t₂ (x : AdvTrans) t₃,
      tr = t₁ ++ y :: (t₂ ++ x :: t₃) →
      y.act = .hold true → AdvEvent.invoked true ∈ x.out →
      ∃ z ∈ t₂, z.act = .hold false := by
  constructor
  · intro hset hon
    obtain ⟨hpc, hsig, -⟩ := of_decide_eq_true hset
    have hinv := run_holdInv hrun hsafe
    rw [← Bool.not_eq_true]
    intro hadv
    have hq := hinv.queued (by rw [hpc]; nofun) (by rw [hpc]; nofun) hon
      hadv
    rw [hsig] at hq
    cases hq
  · intro t₁ y t₂ x t₃ htr hy hx
    by_contra hnone
    push Not at hnone
    subst htr
    -- the hold is set by `y`, and still is when `x` invokes
    obtain ⟨-, hystep, hrest⟩ := hrun.split
    obtain ⟨hmid, hxstep, -⟩ := hrest.split
    have hset : y.post.advertisementHold = true := by
      rw [hy] at hystep
      injection hystep with hystep
      injection hystep with hpost _
      rw [← hpost]
      rfl
    have hon := hold_during hmid hset hnone
    have hassoc : t₁ ++ y :: (t₂ ++ x :: t₃)
        = (t₁ ++ y :: t₂) ++ x :: t₃ := by simp
    rw [hassoc] at hrun hsafe
    have hinv := run_holdInv hrun.split.1
      (fun z hz => hsafe z (List.mem_append_left _ hz))
    have hquiet := hinv.quiet hon
    rw [registering_of_invoked hxstep hx] at hquiet
    cases hquiet

/-- The advertisement is registered, comes down with the LE connect, is
held while the link is dropped, rearmed when the hold is released, and
held again. -/
def heldTwice : List AdvAct :=
  [.loop .start, .loop (.advance true), .loop (.advance true),
    .loop (.advance true), .link true, .loop .takeSignal,
    .loop (.advance true), .loop (.advance true), .hold true, .link false,
    .loop .takeSignal, .loop (.advance true), .hold false, .send,
    .loop .takeRearm, .loop (.advance true), .loop (.advance true),
    .loop (.advance true), .loop (.advance true), .link true,
    .loop .takeSignal, .loop (.advance true), .loop (.advance true),
    .hold true]

/-- Under the second hold the loop is settled and the advertisement down,
and the registration after the first one came after its release. -/
theorem hold_suspends_advertising_twice :
    ∃ tr s, Exec advStep (newAdv false) tr s ∧ (∀ x ∈ tr, LaidSafely x)
      ∧ s.settled = true ∧ s.advertisementHold = true
      ∧ s.advertised = false
      ∧ ∃ (t₁ : List AdvTrans) (y : AdvTrans) (t₂ : List AdvTrans)
          (x : AdvTrans) (t₃ : List AdvTrans),
        tr = t₁ ++ y :: (t₂ ++ x :: t₃)
        ∧ y.act = .hold true ∧ AdvEvent.invoked true ∈ x.out
        ∧ ∃ z ∈ t₂, z.act = .hold false := by
  obtain ⟨tr, s, hrun, hsafe, hset, hon, hy, hx⟩ :=
    exec_of_decide advStep (newAdv false) heldTwice (fun tr s =>
        (∀ x ∈ tr, LaidSafely x) ∧ s.settled = true
          ∧ s.advertisementHold = true
          ∧ (∃ y ∈ tr[8]?, y.act = .hold true)
          ∧ ∃ x ∈ (tr.drop 9)[8]?, AdvEvent.invoked true ∈ x.out)
      (by decide +kernel)
  obtain ⟨hdown, hnever⟩ := hold_suspends_advertising false hrun hsafe
  obtain ⟨t₁, y, t₂, x, t₃, htr, hy, -, hx⟩ :=
    exists_moments (r := fun _ => True) 8 8 hy trivial hx
  exact ⟨tr, s, hrun, hsafe, hset, hon, hdown hset hon,
    t₁, y, t₂, x, t₃, htr, hy, hx, hnever t₁ y t₂ x t₃ htr hy hx⟩

/-- The process starts while the phone is connected, and the hold is laid
before `runBlueZOnce` has reset the link. -/
def heldAtStartup : List AdvAct :=
  [.loop .start, .hold true, .loop (.advance true), .link false,
    .loop (.advance true), .loop (.advance true), .loop (.advance true),
    .loop .takeSignal, .loop (.advance true)]

/-- Startup registers the advertisement under the hold, and the loop
settles with it up. -/
theorem startup_ignores_hold :
    ∃ tr s, Exec advStep (newAdv true) tr s
      ∧ (s.settled = true ∧ s.advertisementHold = true
        ∧ s.advertised = true)
      ∧ ∃ (t₁ : List AdvTrans) (y : AdvTrans) (t₂ : List AdvTrans)
          (x : AdvTrans) (t₃ : List AdvTrans),
        tr = t₁ ++ y :: (t₂ ++ x :: t₃)
        ∧ y.act = .hold true ∧ (∀ z ∈ t₂, z.act ≠ .hold false)
        ∧ AdvEvent.invoked true ∈ x.out := by
  obtain ⟨tr, s, hrun, hend, hy, hmid, hx⟩ :=
    exec_of_decide advStep (newAdv true) heldAtStartup (fun tr s =>
        (s.settled = true ∧ s.advertisementHold = true
          ∧ s.advertised = true)
        ∧ (∃ y ∈ tr[1]?, y.act = .hold true)
        ∧ (∀ z ∈ (tr.drop 2).take 3, z.act ≠ .hold false)
        ∧ ∃ x ∈ (tr.drop 2)[3]?, AdvEvent.invoked true ∈ x.out)
      (by decide +kernel)
  exact ⟨tr, s, hrun, hend, exists_moments 1 3 hy hmid hx⟩

end Callbridge.Bluez
