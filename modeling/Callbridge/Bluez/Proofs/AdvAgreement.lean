/-
Two copies of one fact. The loop of `runBlueZOnce` keeps in
`advertisementRegistered` what it has asked BlueZ for;
`Broker.advertising` is written with it, but also by
`advertisement.Release`, which BlueZ calls when it drops the advertisement
by itself and which does not reach the loop's copy.

The copies and BlueZ agree whenever the loop waits, as long as BlueZ drops
the advertisement only where the loop is about to write both copies anyway
(`DropsSafely`). Dropped at any other moment, it stays down
(`release_leaves_loop_behind`).
-/
import Callbridge.Bluez.Proofs.HoldAdvertising

namespace Callbridge.Bluez

open Lib

variable {s s' : Adv} {act : AdvAct} {es : List AdvEvent} {x : AdvTrans}
  {tr : List AdvTrans}

-- == the condition

/-- The loop is on its way to take the advertisement down, or out. -/
def LoopPc.takingDown : LoopPc → Bool
  | .set .connected => true
  | .leaving _ => true
  | _ => false

/-- BlueZ loses the advertisement it has without being asked. -/
def Drops (x : AdvTrans) : Prop :=
  (x.act = .release ∨ x.act = .bluezGone) ∧ x.pre.advertised = true

/-- BlueZ drops the advertisement only where the loop is on its way to
take it down, or out. -/
def DropsSafely (x : AdvTrans) : Prop :=
  Drops x → x.pre.pc.takingDown = true

instance : Decidable (DropsSafely x) :=
  inferInstanceAs (Decidable (
    (x.act = .release ∨ x.act = .bluezGone) ∧ x.pre.advertised = true →
      x.pre.pc.takingDown = true))

-- == the invariant

/-- BlueZ and the broker have what the loop has. -/
structure OneView (s : Adv) : Prop where
  advertised : s.advertised = s.registered
  advertising : s.advertising = s.registered

/-- Nothing is under way that will write the loop's copy. -/
def LoopPc.steady : LoopPc → Bool
  | .record _ => false
  | pc => !pc.takingDown

theorem steady_of_takingDown {pc : LoopPc} (h : pc.takingDown = true) :
    pc.steady = false := by
  unfold LoopPc.steady
  split
  case h_1 => rfl
  case h_2 => rw [h]; rfl

structure ViewInv (s : Adv) : Prop where
  /-- what is about to be recorded is what BlueZ has -/
  recorded : ∀ cause, s.pc = .record cause → s.advertised = cause.enable
  steady : s.pc.steady = true → OneView s
  /-- an advertisement that is not up cannot be dropped on the way -/
  down : s.pc.takingDown = true → s.registered = false → OneView s

theorem newAdv_viewInv (connected : Bool) : ViewInv (newAdv connected) :=
  ⟨fun _ h => (by cases h), fun _ => ⟨rfl, rfl⟩, fun h => (by cases h)⟩

theorem OneView.inv (h : OneView s) (hpc : ∀ cause, s.pc ≠ .record cause) :
    ViewInv s :=
  ⟨fun cause hc => absurd hc (hpc cause), fun _ => h, fun _ _ => h⟩

/-- The loop moves on, and what it knows is not part of it. -/
theorem ViewInv.moves {pc : LoopPc} {rearmRequest : Bool}
    {signals : List Signal} (h : ViewInv s) (hpc : s.pc.steady = true)
    (hnext : ∀ cause, pc ≠ .record cause) :
    ViewInv { s with
      pc := pc
      signals := signals
      rearmRequest := rearmRequest } := by
  obtain ⟨hadv, hbroker⟩ := h.steady hpc
  exact OneView.inv ⟨hadv, hbroker⟩ hnext

theorem ViewInv.at_set {cause : Cause} (h : ViewInv s)
    (hpc : s.pc = .set cause)
    (hdown : cause = .connected → s.registered = false) : OneView s := by
  by_cases hc : cause = .connected
  · subst hc
    exact h.down (by rw [hpc]; rfl) (hdown rfl)
  · refine h.steady ?_
    rw [hpc]
    cases cause with
    | connected => exact absurd rfl hc
    | _ => rfl

/-- Every step of the loop keeps it. -/
theorem ViewInv.loop {a : LoopAct} (h : ViewInv s)
    (hm : LoopMove s a s' es) : ViewInv s' := by
  cases hm with
  | start hpc | startConnected hpc _ | resetSkipped hpc | rearmRead hpc
  | rearmSkipped _ _ hpc _ | rearmDecided _ hpc _
  | disconnectSkipped _ hpc _ | disconnectDecided _ hpc _
  | takeRearm hpc _ | nameLost _ hpc _ | sawConnect _ hpc _
  | sawDisconnect _ hpc _ =>
    refine h.moves ?_ (fun _ hc => by cases hc)
    rw [hpc]
    rfl
  | readFailed e hpc _ =>
    refine h.moves ?_ (fun _ hc => by cases hc)
    rcases hpc with hpc | hpc <;> (rw [hpc]; rfl)
  | startDown hpc _ =>
    refine h.moves ?_ (fun _ hc => by cases hc)
    rcases hpc with hpc | hpc <;> (rw [hpc]; rfl)
  | setAlready cause ok hpc hreg =>
    obtain ⟨hadv, hbroker⟩ := h.at_set hpc fun hc => by rw [hreg, hc]; rfl
    exact OneView.inv ⟨hadv, hbroker⟩ (fun _ hc => by cases hc)
  | setInvoked cause hpc hreg =>
    -- BlueZ has answered; the broker is told at the next step
    refine ⟨?_, fun hs => (by cases hs), fun ht => (by cases ht)⟩
    intro cause' hc
    cases hc
    rfl
  | setFailed cause hpc hreg =>
    refine ⟨fun _ hc => (by cases hc), fun hs => (by cases hs), ?_⟩
    intro _ hdown
    obtain ⟨hadv, hbroker⟩ := h.at_set hpc fun _ => hdown
    exact ⟨hadv, hbroker⟩
  | record cause ok hpc =>
    exact OneView.inv ⟨h.recorded cause hpc, rfl⟩
      (fun _ hc => by cases hc)
  | leave e ok hpc =>
    refine OneView.inv ⟨rfl, rfl⟩ ?_
    intro cause hc
    unfold Adv.leave at hc
    cases hf : e.final with
    | true => rw [hf] at hc; cases hc
    | false => rw [hf] at hc; cases hc

/-- What has no part in the view may change. -/
theorem ViewInv.congr (h : ViewInv s) (hpc : s'.pc = s.pc)
    (hreg : s'.registered = s.registered)
    (hadv : s'.advertised = s.advertised)
    (hbroker : s'.advertising = s.advertising) : ViewInv s' := by
  have hview : OneView s → OneView s' := by
    intro hv
    exact ⟨by rw [hadv, hreg, hv.advertised],
      by rw [hbroker, hreg, hv.advertising]⟩
  refine ⟨?_, ?_, ?_⟩
  · intro cause hc
    rw [hadv]
    exact h.recorded cause (hpc ▸ hc)
  · intro hs
    exact hview (h.steady (hpc ▸ hs))
  · intro ht hdown
    exact hview (h.down (hpc ▸ ht) (hreg ▸ hdown))

theorem ViewInv.emit (h : ViewInv s) (g : Signal) : ViewInv (s.emit g) := by
  unfold Adv.emit
  split
  case isFalse => exact h
  case isTrue => exact h.congr rfl rfl rfl rfl

/-- An advertisement dropped on its way down leaves nothing to compare
until the loop has written both copies. -/
theorem ViewInv.dropped (h : ViewInv s) (connected advertising : Bool)
    (hadv : s.advertised = true) (hpc : s.pc.takingDown = true) :
    ViewInv { s with
      connected := connected
      advertised := false
      advertising := advertising } := by
  refine ⟨?_, ?_, ?_⟩
  · intro cause hc
    rw [show s.pc = .record cause from hc] at hpc
    cases hpc
  · intro hs
    rw [steady_of_takingDown hpc] at hs
    cases hs
  · intro _ hdown
    have hup := (h.down hpc hdown).advertised
    rw [hadv, hdown] at hup
    cases hup

/-- So does every other step, if BlueZ drops safely. -/
theorem ViewInv.of_step (h : ViewInv x.pre) (hdrops : DropsSafely x)
    (hstep : advStep x.pre x.act = some (x.post, x.out)) :
    ViewInv x.post := by
  obtain ⟨s, act, es, s'⟩ := x
  have hm : AdvMove s act s' es := AdvMove.of_step hstep
  cases hm with
  | loop hm => exact h.loop hm
  | quit e hpc _ =>
    refine h.moves ?_ (fun _ hc => by cases hc)
    rw [show s.pc = .waiting from hpc]
    rfl
  | hold on | send _ => exact h.congr rfl rfl rfl rfl
  | link connected _ =>
    have hlink : ViewInv { s with connected := connected } :=
      h.congr rfl rfl rfl rfl
    exact hlink.emit _
  | release hadv =>
    exact h.dropped s.connected false hadv (hdrops ⟨Or.inl rfl, hadv⟩)
  | bluezGone =>
    by_cases hadv : s.advertised = true
    · have hgone := h.dropped false s.advertising hadv
        (hdrops ⟨Or.inr rfl, hadv⟩)
      exact hgone.emit _
    · have hsame : ViewInv
          { s with connected := false, advertised := false } :=
        h.congr rfl rfl (Bool.eq_false_iff.mpr hadv).symm rfl
      exact hsame.emit _

-- == an event that is processed

/-- The loop takes an LE disconnect or a rearm request from its select. -/
def TakesEvent (x : AdvTrans) : Prop :=
  x.act = .loop .takeRearm
    ∨ x.act = .loop .takeSignal
      ∧ x.pre.signals.head? = some (.bearer false)

instance : Decidable (TakesEvent x) := inferInstanceAs (Decidable (_ ∨ _))

/-- The loop has not got the advertisement, has come from such an event and
has not got back to its select: it is still on the way to
`setAdvertisement`, or has left `runBlueZOnce` and is on the way back. -/
def LoopPc.owes : LoopPc → Bool
  | .disconnectCheck => true
  | .rearmRead => true
  | .rearmCheck connected => !connected
  | .set cause => cause.enable
  | .leaving _ => true
  | .stopped => true
  | .finished => true
  | .startRead => true
  | _ => false

structure Owing (s : Adv) : Prop where
  pc : s.pc.owes = true
  registered : s.registered = false

/-- While the link is down and the hold clear, the loop goes on until it
invokes RegisterAdvertisement. -/
theorem Owing.loop {a : LoopAct} (h : Owing s)
    (hdown : s.connected = false) (hclear : s.advertisementHold = false)
    (hm : LoopMove s a s' es) : Owing s' ∨ .invoked true ∈ es := by
  have hpc := h.pc
  have hreg := h.registered
  cases hm with
  | start _ | rearmDecided _ _ _ | disconnectDecided _ _ _ | readFailed _ _ _
  | startDown _ _ => exact Or.inl ⟨rfl, hreg⟩
  | startConnected _ hc => rw [hdown] at hc; cases hc
  | resetSkipped h' => rw [h'] at hpc; cases hpc
  | rearmRead _ =>
    refine Or.inl ⟨?_, hreg⟩
    rw [hdown]
    rfl
  | rearmSkipped connected _ h' hskip =>
    rw [h'] at hpc
    rcases hskip with hc | hheld
    · rw [hc] at hpc; cases hpc
    · rw [hclear] at hheld; cases hheld
  | disconnectSkipped _ _ hheld => rw [hclear] at hheld; cases hheld
  | setAlready cause _ h' hall =>
    have hen : cause.enable = true := by rwa [h'] at hpc
    rw [hreg, hen] at hall
    cases hall
  | setInvoked cause h' _ | setFailed cause h' _ =>
    have hen : cause.enable = true := by rwa [h'] at hpc
    rw [hen]
    exact Or.inr List.mem_cons_self
  | record cause _ h' => rw [h'] at hpc; cases hpc
  | leave e _ _ =>
    refine Or.inl ⟨?_, rfl⟩
    unfold Adv.leave
    cases e.final <;> rfl
  | takeRearm h' _ | nameLost _ h' _ | sawConnect _ h' _
  | sawDisconnect _ h' _ => rw [h'] at hpc; cases hpc

theorem Owing.congr (h : Owing s) (hpc : s'.pc = s.pc)
    (hreg : s'.registered = s.registered) : Owing s' := by
  refine ⟨?_, ?_⟩
  · rw [hpc]
    exact h.pc
  · rw [hreg]
    exact h.registered

theorem Owing.emit (h : Owing s) (g : Signal) : Owing (s.emit g) := by
  unfold Adv.emit
  split
  case isFalse => exact h
  case isTrue => exact h.congr rfl rfl

/-- A loop that owes the advertisement stays so until it calls. -/
theorem Owing.of_step (h : Owing s) (hdown : s.connected = false)
    (hclear : s.advertisementHold = false)
    (hstep : advStep s act = some (s', es)) :
    Owing s' ∨ .invoked true ∈ es := by
  cases AdvMove.of_step hstep with
  | loop hm => exact h.loop hdown hclear hm
  | quit e hpc _ =>
    have howes := h.pc
    rw [hpc] at howes
    cases howes
  | hold on | send _ | release _ => exact Or.inl (h.congr rfl rfl)
  | link connected _ =>
    have hlink : Owing { s with connected := connected } :=
      h.congr rfl rfl
    exact Or.inl (hlink.emit _)
  | bluezGone =>
    have hgone : Owing { s with connected := false, advertised := false } :=
      h.congr rfl rfl
    exact Or.inl (hgone.emit _)

/-- The link is down and the hold clear. -/
def Adv.away (s : Adv) : Prop :=
  s.connected = false ∧ s.advertisementHold = false

instance : Decidable s.away := inferInstanceAs (Decidable (_ ∧ _))

/-- Over a run without the link, the call comes or is owed. -/
theorem Owing.run (h : Owing s) (hrun : Exec advStep s tr s')
    (haway : ∀ y ∈ tr, y.pre.away) :
    Owing s' ∨ .invoked true ∈ events tr := by
  induction hrun with
  | nil => exact Or.inl h
  | @snoc tr s₁ s₂ a es _ hstep ih =>
    rw [events_snoc, List.mem_append]
    have hlast := haway ⟨s₁, a, es, s₂⟩
      (List.mem_append_right _ (List.mem_singleton_self _))
    rcases ih fun y hy => haway y (List.mem_append_left _ hy)
      with howing | hinv
    · exact (howing.of_step hlast.1 hlast.2 hstep).imp id Or.inr
    · exact Or.inr (Or.inl hinv)

/-- An event is taken from the select, and starts the way to
`setAdvertisement`. -/
theorem TakesEvent.moves (h : TakesEvent x)
    (hstep : advStep x.pre x.act = some (x.post, x.out)) :
    x.pre.pc = .waiting ∧ x.post.registered = x.pre.registered
      ∧ x.post.pc.owes = true := by
  obtain ⟨s, act, es, s'⟩ := x
  have hm : AdvMove s act s' es := AdvMove.of_step hstep
  rcases h with hact | ⟨hact, hhead⟩
  · obtain rfl : act = .loop .takeRearm := hact
    cases hm with
    | loop hm =>
      cases hm with
      | takeRearm hpc _ => exact ⟨hpc, rfl, rfl⟩
  · obtain rfl : act = .loop .takeSignal := hact
    have hhead' : s.signals.head? = some (.bearer false) := hhead
    cases hm with
    | loop hm =>
      cases hm with
      | sawDisconnect rest hpc _ => exact ⟨hpc, rfl, rfl⟩
      | nameLost rest _ hsig | sawConnect rest _ hsig =>
        rw [hsig] at hhead'; cases hhead'

-- == runs

variable {connected : Bool}

theorem run_viewInv (hrun : Exec advStep (newAdv connected) tr s)
    (hdrops : ∀ x ∈ tr, DropsSafely x) : ViewInv s :=
  hrun.inv_of (P := ViewInv) (G := DropsSafely) (newAdv_viewInv connected)
    ViewInv.of_step hdrops

/-- In every run in which BlueZ drops the advertisement by itself only
where the loop is about to take it down or to return: the broker's copy is
the loop's whenever the loop waits, and an LE disconnect or a rearm request
that the loop takes while BlueZ has no advertisement, with the link down
and the hold clear from then on, makes it invoke RegisterAdvertisement
before it waits again. -/
theorem broker_and_loop_agree
    (hrun : Exec advStep (newAdv connected) tr s)
    (hdrops : ∀ x ∈ tr, DropsSafely x) :
    (s.pc = .waiting → s.advertising = s.registered)
      ∧ ∀ t₁ x t₂, tr = t₁ ++ x :: t₂ → TakesEvent x →
          x.pre.advertised = false → (∀ y ∈ t₂, y.pre.away) →
          s.pc = .waiting → .invoked true ∈ events t₂ := by
  constructor
  · intro hpc
    exact ((run_viewInv hrun hdrops).steady (by rw [hpc]; rfl)).advertising
  · intro t₁ x t₂ htr htakes hadv haway hpc
    subst htr
    obtain ⟨hpre, hstep, hrest⟩ := hrun.split
    have hview := run_viewInv hpre fun y hy =>
      hdrops y (List.mem_append_left _ hy)
    obtain ⟨hwaits, hreg, howes⟩ := htakes.moves hstep
    have hsame := (hview.steady (by rw [hwaits]; rfl)).advertised
    have howing : Owing x.post :=
      ⟨howes, by rw [hreg, ← hsame, hadv]⟩
    rcases howing.run hrest haway with h | h
    · have hend := h.pc
      rw [hpc] at hend
      cases hend
    · exact h

-- == schedules

/-- The loop registers the advertisement and waits. -/
def registered : List AdvAct :=
  [.loop .start, .loop (.advance true), .loop (.advance true),
    .loop (.advance true)]

/-- An LE connect takes the advertisement down, and BlueZ drops it just
before; the disconnect brings it back. -/
def connectAndDisconnect : List AdvAct :=
  registered ++ [.link true, .loop .takeSignal, .release,
    .loop (.advance true), .loop (.advance true), .link false,
    .loop .takeSignal, .loop (.advance true), .loop (.advance true),
    .loop (.advance true)]

/-- The link is lost, and the loop advertises again. -/
theorem broker_and_loop_agree_reconnect :
    ∃ tr s, Exec advStep (newAdv false) tr s ∧ (∀ x ∈ tr, DropsSafely x)
      ∧ s.pc = .waiting ∧ s.advertising = s.registered
      ∧ ∃ t₁ x t₂, tr = t₁ ++ x :: t₂ ∧ TakesEvent x
        ∧ .invoked true ∈ events t₂ := by
  obtain ⟨tr, s, hrun, hdrops, hpc, hx, haway⟩ :=
    exec_of_decide advStep (newAdv false) connectAndDisconnect (fun tr s =>
        (∀ x ∈ tr, DropsSafely x) ∧ s.pc = .waiting
          ∧ (∃ x ∈ tr[10]?, TakesEvent x ∧ x.pre.advertised = false)
          ∧ ∀ y ∈ tr.drop 11, y.pre.away) (by decide +kernel)
  obtain ⟨hflags, hinvokes⟩ := broker_and_loop_agree hrun hdrops
  obtain ⟨x, htr, htakes, hadv⟩ := exists_moment 10 hx
  exact ⟨tr, s, hrun, hdrops, hpc, hflags hpc, _, x, _, htr, htakes,
    hinvokes _ x _ htr htakes hadv haway hpc⟩

/-- BlueZ drops the advertisement while the loop waits; later a hold is
laid and released. -/
def releasedWhileWaiting : List AdvAct :=
  registered ++ [.release, .hold true, .hold false, .send,
    .loop .takeRearm, .loop (.advance true), .loop (.advance true),
    .loop (.advance true)]

/-- The broker knows that the advertisement is gone and the loop does
not, and the rearm request passes without a call. -/
theorem release_leaves_loop_behind :
    ∃ tr s, Exec advStep (newAdv false) tr s
      ∧ tr.map Trans.act = releasedWhileWaiting
      ∧ s.pc = .waiting ∧ s.advertised = false
      ∧ s.advertising = false ∧ s.registered = true
      ∧ ∃ t₁ x t₂, tr = t₁ ++ x :: t₂ ∧ TakesEvent x
        ∧ x.pre.advertised = false ∧ (∀ y ∈ t₂, y.pre.away)
        ∧ .invoked true ∉ events t₂ := by
  obtain ⟨tr, s, hrun, hacts, ⟨hpc, hadv, hbroker, hreg⟩, hx, haway, hnone⟩ :=
    exec_of_decide advStep (newAdv false) releasedWhileWaiting (fun tr s =>
        tr.map Trans.act = releasedWhileWaiting
          ∧ (s.pc = .waiting ∧ s.advertised = false
            ∧ s.advertising = false ∧ s.registered = true)
          ∧ (∃ x ∈ tr[8]?, TakesEvent x ∧ x.pre.advertised = false)
          ∧ (∀ y ∈ tr.drop 9, y.pre.away)
          ∧ AdvEvent.invoked true ∉ events (tr.drop 9)) (by decide +kernel)
  obtain ⟨x, htr, htakes, hgone⟩ := exists_moment 8 hx
  exact ⟨tr, s, hrun, hacts, hpc, hadv, hbroker, hreg, _, x, _, htr,
    htakes, hgone, haway, hnone⟩

end Callbridge.Bluez
