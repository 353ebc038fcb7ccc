/-
No rearm is lost, and none has to be waited for. The loop looks at the
link in two ways, through the queue of signals and by reading the
property; `Armed` says that a loop that waits with nothing queued, the
link down and the hold clear has its flag set. So a settled loop has the
advertisement up (`no_lost_rearm`), and gets it registered by itself
(`reaches_advertised`).
-/
import Callbridge.Bluez.Proofs.HoldAdvertising

namespace Callbridge.Bluez

open Lib

variable {s s' : Adv} {act : LoopAct} {es : List AdvEvent}

-- == the invariant

/-- The loop is acting on having seen the link up. -/
def LoopPc.sawUp : LoopPc → Bool
  | .startReset => true
  | .rearmCheck true => true
  | .set .connected => true
  | .record .connected => true
  | _ => false

structure Armed (s : Adv) : Prop where
  /-- The last signal on its way is about the link as it is. -/
  last : ∀ l x, s.signals = l ++ [x] → x = .bearer s.connected
  outside : s.subscribed = false → s.signals = []
  /-- Where the loop has seen a link that is gone, it has yet to hear of
  it. -/
  away : s.connected = false → s.pc.sawUp = true → s.signals ≠ []
  armed : s.connected = false → s.advertisementHold = false →
    s.sending = 0 → s.rearmRequest = false → s.pc = .waiting →
    s.signals = [] → s.registered = true

theorem newAdv_armed (connected : Bool) : Armed (newAdv connected) := by
  refine ⟨?_, fun _ => rfl, fun _ => nofun, fun _ _ _ _ => nofun⟩
  intro l x h
  exact absurd h (by simp [newAdv])

/-- The loop goes on inside `runBlueZOnce`. -/
theorem Armed.goto (h : Armed s) {pc : LoopPc}
    (hsub : (s.goto pc).subscribed = true)
    (hup : s.connected = false → pc.sawUp = true → s.signals ≠ [])
    (hw : pc = .waiting → s.connected = false →
      s.advertisementHold = false → s.signals = [] → s.registered = true) :
    Armed (s.goto pc) := by
  refine ⟨h.last, ?_, hup, ?_⟩
  · intro hout
    rw [hsub] at hout
    cases hout
  · intro hlink hhold _ _ hpc hsig
    exact hw hpc hlink hhold hsig

/-- Every step of the loop keeps it. -/
theorem Armed.loop (h : Armed s) (hm : LoopMove s act s' es) :
    Armed s' := by
  cases hm with
  | start hpc =>
    refine ⟨?_, fun _ => rfl, fun _ => nofun, fun _ _ _ _ => nofun⟩
    intro l x hl
    exact absurd hl (by simp)
  | readFailed e _ _ | setFailed _ _ _ =>
    exact h.goto rfl (fun _ => nofun) nofun
  | startConnected hpc hlink =>
    refine h.goto rfl (fun hdown => ?_) nofun
    rw [hlink] at hdown
    cases hdown
  | startDown _ _ | rearmDecided _ _ _ | disconnectDecided _ _ _ =>
    exact h.goto rfl (fun _ => nofun) nofun
  | resetSkipped hpc =>
    refine h.goto rfl (fun _ => nofun) ?_
    intro _ hdown _ hsig
    exact absurd hsig (h.away hdown (by rw [hpc]; rfl))
  | rearmRead hpc =>
    refine h.goto rfl ?_ nofun
    intro hdown hup
    rw [hdown] at hup
    cases hup
  | rearmSkipped connected _ hpc hwhy =>
    refine h.goto rfl (fun _ => nofun) ?_
    intro _ hdown hclear hsig
    rcases hwhy with rfl | hon
    · exact absurd hsig (h.away hdown (by rw [hpc]; rfl))
    · rw [hclear] at hon
      cases hon
  | disconnectSkipped _ hpc hon =>
    refine h.goto rfl (fun _ => nofun) ?_
    intro _ _ hclear
    rw [hclear] at hon
    cases hon
  | setAlready cause _ hpc hreg =>
    refine h.goto rfl (fun _ => nofun) ?_
    intro _ hdown _ hsig
    cases cause with
    | connected => exact absurd hsig (h.away hdown (by rw [hpc]; rfl))
    | startup | disconnected | rearm => exact hreg
  | setInvoked cause hpc hreg =>
    refine ⟨h.last, nofun, ?_, fun _ _ _ _ => nofun⟩
    intro hdown hup
    refine h.away hdown ?_
    cases cause with
    | connected => rw [hpc]; rfl
    | startup | disconnected | rearm => cases hup
  | record cause _ hpc =>
    refine ⟨h.last, nofun, fun _ => nofun, ?_⟩
    intro hdown _ _ _ _ hsig
    cases cause with
    | connected => exact absurd hsig (h.away hdown (by rw [hpc]; rfl))
    | startup | disconnected | rearm => rfl
  | leave e _ _ =>
    refine ⟨?_, fun _ => rfl, ?_, ?_⟩
    · intro l x hl
      exact absurd hl (by simp [Adv.leave])
    · intro _
      unfold Adv.leave
      cases e.final <;> nofun
    · intro _ _ _ _
      unfold Adv.leave
      cases e.final <;> nofun
  | takeRearm hpc _ =>
    exact ⟨h.last, nofun, fun _ => nofun, fun _ _ _ _ => nofun⟩
  | nameLost rest _ hsig | sawDisconnect rest _ hsig =>
    refine ⟨?_, nofun, fun _ => nofun, fun _ _ _ _ => nofun⟩
    intro l x hl
    exact h.last (_ :: l) x (by rw [hsig, show rest = l ++ [x] from hl]; rfl)
  | sawConnect rest _ hsig =>
    refine ⟨?_, nofun, ?_, fun _ _ _ _ => nofun⟩
    · intro l x hl
      exact h.last (_ :: l) x
        (by rw [hsig, show rest = l ++ [x] from hl]; rfl)
    · -- a connect that is the last signal leaves the link up
      intro hdown _ hrest
      have := h.last [] (.bearer true)
        (by rw [hsig, show rest = [] from hrest]; rfl)
      rw [show s.connected = false from hdown] at this
      cases this

/-- A hold that is lifted asks for the rearm. -/
theorem Armed.hold (h : Armed s) (on : Bool) :
    Armed (s.holdAdvertisement on) := by
  refine ⟨h.last, h.outside, h.away, ?_⟩
  intro hdown hclear hsent hslot hpc hsig
  obtain rfl : on = false := hclear
  unfold Adv.holdAdvertisement at hsent
  by_cases hon : s.advertisementHold = false
  · exact h.armed hdown hon (by simpa [hon] using hsent) hslot hpc hsig
  · -- the call that releases the hold has its request still to send
    simp [hon] at hsent

theorem Armed.send (h : Armed s) : Armed s.sendRearm :=
  ⟨h.last, h.outside, h.away, fun _ _ _ => nofun⟩

/-- A change of the link is queued, or already known. -/
theorem Armed.link (h : Armed s) (connected : Bool) :
    Armed (s.setLink connected) := by
  unfold Adv.setLink Adv.emit
  split
  case isTrue hsub =>
    refine ⟨?_, ?_, ?_, ?_⟩
    · intro l x hl
      obtain ⟨-, he⟩ := List.append_inj' hl rfl
      cases he
      rfl
    · intro hout
      have hsub' : s.subscribed = true := hsub
      rw [show s.subscribed = false from hout] at hsub'
      cases hsub'
    · intro _ _
      simp
    · intro _ _ _ _ _ hsig
      exact absurd hsig (by simp)
  case isFalse hsub =>
    have hsub' : s.subscribed = false := Bool.eq_false_iff.mpr hsub
    have hsig := h.outside hsub'
    have hpc : s.pc = .stopped ∨ s.pc = .finished := by
      unfold Adv.subscribed at hsub'
      by_cases h₁ : s.pc = .stopped
      · exact Or.inl h₁
      · right
        simpa [h₁] using hsub'
    refine ⟨?_, fun _ => hsig, ?_, ?_⟩
    · intro l x hl
      rw [show s.signals = l ++ [x] from hl] at hsig
      exact absurd hsig (by simp)
    · intro _ hup
      rcases hpc with hpc | hpc <;>
        exact absurd (hpc ▸ show s.pc.sawUp = true from hup) nofun
    · intro _ _ _ _ hw
      rw [show s.pc = .waiting from hw] at hpc
      rcases hpc with hpc | hpc <;> cases hpc

theorem Agrees.link (h : Agrees s) (connected : Bool) :
    Agrees (s.setLink connected) := by
  unfold Adv.setLink Adv.emit
  split <;> exact h

-- == no lost rearm

/-- `runBlueZOnce` has subscribed to the signals and is about to read the
link for the first time. -/
structure Starting (s : Adv) : Prop where
  pc : s.pc = .startRead
  signals : s.signals = []
  registered : s.registered = false
  advertised : s.advertised = false

theorem Starting.armed (h : Starting s) : Armed s := by
  refine ⟨?_, fun _ => h.signals, ?_, ?_⟩
  · intro l x hl
    rw [h.signals] at hl
    exact absurd hl (by simp)
  · intro _ hup
    rw [h.pc] at hup
    cases hup
  · intro _ _ _ _ hw
    rw [h.pc] at hw
    cases hw

theorem Starting.agrees (h : Starting s) : Agrees s := by
  unfold Agrees
  rw [believes_of_pc (by rw [h.pc]; nofun), h.advertised, h.registered]

/-- The loop, a `HoldAdvertisement` call or the LE link moves; nothing goes
down and BlueZ keeps the advertisement it has. -/
def AdvAct.undisturbed : AdvAct → Bool
  | .loop _ => true
  | .hold _ => true
  | .send => true
  | .link _ => true
  | .quit _ => false
  | .release => false
  | .bluezGone => false

/-- An undisturbed step keeps the loop armed and in agreement with
BlueZ. -/
theorem armed_agrees_step {a : AdvAct} (h : Armed s ∧ Agrees s)
    (hact : a.undisturbed = true) (hm : AdvMove s a s' es) :
    Armed s' ∧ Agrees s' := by
  cases hm with
  | loop hm => exact ⟨h.1.loop hm, h.2.loop hm⟩
  | hold on => exact ⟨h.1.hold on, h.2⟩
  | send _ => exact ⟨h.1.send, h.2⟩
  | link connected _ => exact ⟨h.1.link connected, h.2.link connected⟩
  | quit _ _ _ | release _ | bluezGone => cases hact

/-- In every undisturbed run of `runBlueZOnce`, also one in which D-Bus
calls fail and it is started over: when the loop has handled every signal
and request, no `HoldAdvertisement` has a request still to send, the link
is down and the hold clear, the advertisement is registered. -/
theorem no_lost_rearm {s₀ : Adv} {tr : List AdvTrans} (h₀ : Starting s₀)
    (hrun : Exec advStep s₀ tr s)
    (hacts : ∀ x ∈ tr, x.act.undisturbed = true)
    (hset : s.settled = true) (hsent : s.sending = 0)
    (hdown : s.connected = false) (hclear : s.advertisementHold = false) :
    s.registered = true ∧ s.advertised = true := by
  obtain ⟨harmed, hagrees⟩ := hrun.inv_of
    (P := fun s => Armed s ∧ Agrees s)
    ⟨h₀.armed, h₀.agrees⟩
    (fun h hact hstep => armed_agrees_step h hact (AdvMove.of_step hstep))
    hacts
  obtain ⟨hpc, hsig, hslot⟩ := of_decide_eq_true hset
  have hreg := harmed.armed hdown hclear hsent hslot hpc hsig
  refine ⟨hreg, hagrees.trans ?_⟩
  rw [believes_of_pc (by rw [hpc]; nofun)]
  exact hreg

/-- Two requests fall together in the slot, the first of them sent while
the phone is still connected, and the link goes down under a hold that is
released before the loop has looked at it. -/
def rearmsCoalesced : List AdvAct :=
  [.loop (.advance true), .loop (.advance true), .loop (.advance true),
    .link true, .loop .takeSignal, .loop (.advance true),
    .loop (.advance true), .hold true, .hold false, .send,
    .loop .takeRearm, .loop (.advance true), .link false, .hold true,
    .hold false, .send, .loop (.advance true), .loop .takeSignal,
    .hold true, .hold false, .send, .loop (.advance true),
    .loop (.advance true), .loop (.advance true), .loop .takeRearm,
    .loop (.advance true), .loop (.advance true), .loop (.advance true)]

/-- The run ends with everything handled, the link down and the hold
clear, and the advertisement up. -/
theorem no_lost_rearm_coalesced :
    ∃ tr s, Exec advStep { newAdv false with pc := .startRead } tr s
      ∧ (∀ x ∈ tr, x.act.undisturbed = true) ∧ s.settled = true
      ∧ s.sending = 0 ∧ s.connected = false
      ∧ s.advertisementHold = false
      ∧ s.registered = true ∧ s.advertised = true := by
  obtain ⟨tr, s, hrun, hacts, hset, hsent, hdown, hclear⟩ :=
    exec_of_decide advStep
      { newAdv false with pc := .startRead } rearmsCoalesced
      (fun tr s => (∀ x ∈ tr, x.act.undisturbed = true)
        ∧ s.settled = true ∧ s.sending = 0 ∧ s.connected = false
        ∧ s.advertisementHold = false) (by decide +kernel)
  exact ⟨tr, s, hrun, hacts, hset, hsent, hdown, hclear,
    no_lost_rearm ⟨rfl, rfl, rfl, rfl⟩ hrun hacts hset hsent hdown hclear⟩

-- == a loop that goes on

/-- The loop is not on its way out of the process. -/
structure Running (s : Adv) : Prop where
  unfinished : s.pc ≠ .finished
  returns : ∀ e, s.pc = .leaving e → e.final = false

theorem Running.loop (h : Running s) (hm : LoopMove s act s' es) :
    Running s' := by
  cases hm with
  | readFailed e _ he =>
    refine ⟨nofun, ?_⟩
    intro e' h'
    cases h'
    exact he
  | setFailed cause _ _ | nameLost rest _ _ =>
    refine ⟨nofun, ?_⟩
    intro e' h'
    cases h'
    rfl
  | leave e _ hpc =>
    have hf := h.returns e hpc
    constructor <;> simp [Adv.leave, hf]
  | _ => exact ⟨nofun, nofun⟩

theorem setLink_pc (s : Adv) (connected : Bool) :
    (s.setLink connected).pc = s.pc := by
  unfold Adv.setLink Adv.emit
  split <;> rfl

theorem setLink_connected (s : Adv) (connected : Bool) :
    (s.setLink connected).connected = connected := by
  unfold Adv.setLink Adv.emit
  split <;> rfl

theorem setLink_hold (s : Adv) (connected : Bool) :
    (s.setLink connected).advertisementHold = s.advertisementHold :=
  emit_hold _ _

theorem Running.link (h : Running s) (connected : Bool) :
    Running (s.setLink connected) := by
  constructor <;> rw [setLink_pc]
  · exact h.unfinished
  · exact h.returns

-- == getting registered

/-- The link is down, the hold clear and every release of it sent. -/
structure Free (s : Adv) : Prop where
  armed : Armed s
  agrees : Agrees s
  down : s.connected = false
  clear : s.advertisementHold = false
  sent : s.sending = 0

theorem Free.loop (h : Free s) (hstep : loopStep s act = some (s', es)) :
    Free s' := by
  have hm := LoopMove.of_step hstep
  have hf := hm.frame
  exact ⟨h.armed.loop hm, h.agrees.loop hm, hf.connected.trans h.down,
    hf.hold.trans h.clear, hf.sending.trans h.sent⟩

/-- The loop can get the advertisement registered by itself. -/
def Advertises (s : Adv) : Prop :=
  ∃ s', Reaches loopStep s s' ∧ s'.advertised = true

theorem Advertises.after (hstep : loopStep s act = some (s', es))
    (h : Advertises s') : Advertises s := by
  obtain ⟨r, hr, hadv⟩ := h
  exact ⟨r, (Reaches.single hstep).trans hr, hadv⟩

theorem advertises_of_believes (h : Free s) (hb : s.believes = true) :
    Advertises s :=
  ⟨s, Reaches.refl, h.agrees.trans hb⟩

/-- About to register. -/
theorem advertises_set {cause : Cause} (h : Free s) (hpc : s.pc = .set cause)
    (hen : cause.enable = true) : Advertises s := by
  by_cases hreg : s.registered = true
  · refine advertises_of_believes h ?_
    rw [believes_of_pc (by rw [hpc]; nofun)]
    exact hreg
  · have hstep : loopStep s (.advance true) = some
        ({ s with pc := .record cause, advertised := true },
          [.invoked true]) := by
      simp [loopStep, Adv.advance, hpc, Adv.setAdvertisement, hen, hreg]
    exact ⟨_, Reaches.single hstep, rfl⟩

/-- About to look at the hold after a disconnect. -/
theorem advertises_disconnect (h : Free s) (hpc : s.pc = .disconnectCheck) :
    Advertises s := by
  have hstep : loopStep s (.advance true)
      = some (s.goto (.set .disconnected), []) := by
    simp [loopStep, Adv.advance, hpc, h.clear]
  exact (advertises_set (h.loop hstep) rfl rfl).after hstep

/-- About to look at the hold on a request. -/
theorem advertises_rearm (h : Free s) (hpc : s.pc = .rearmCheck false) :
    Advertises s := by
  have hstep : loopStep s (.advance true)
      = some (s.goto (.set .rearm), []) := by
    simp [loopStep, Adv.advance, hpc, h.clear]
  exact (advertises_set (h.loop hstep) rfl rfl).after hstep

theorem advertises_rearmRead (h : Free s) (hpc : s.pc = .rearmRead) :
    Advertises s := by
  have hstep : loopStep s (.advance true)
      = some (s.goto (.rearmCheck false), []) := by
    simp [loopStep, Adv.advance, hpc, h.down]
  exact (advertises_rearm (h.loop hstep) rfl).after hstep

/-- Starting up, or resetting a link that has gone down. -/
theorem advertises_start (h : Free s)
    (hpc : s.pc = .startRead ∨ s.pc = .startReset) : Advertises s := by
  have hstep : loopStep s (.advance true)
      = some (s.goto (.set .startup), []) := by
    rcases hpc with hpc | hpc <;>
      simp [loopStep, Adv.advance, hpc, h.down]
  exact (advertises_set (h.loop hstep) rfl rfl).after hstep

theorem advertises_stopped (h : Free s) (hpc : s.pc = .stopped) :
    Advertises s := by
  have hstep : loopStep s .start
      = some ({ s with pc := .startRead, signals := [] }, []) := by
    simp [loopStep, hpc]
  exact (advertises_start (h.loop hstep) (Or.inl rfl)).after hstep

theorem advertises_leaving {e : LoopExit} (h : Free s)
    (hpc : s.pc = .leaving e) (he : e.final = false) : Advertises s := by
  have hstep : loopStep s (.advance true) = some (s.leave e) := by
    simp [loopStep, Adv.advance, hpc]
  have hpc' : (s.leave e).1.pc = .stopped := by
    simp [Adv.leave, he]
  exact (advertises_stopped (h.loop hstep) hpc').after hstep

/-- About to take the advertisement down: it does, and waits again with
the same signals queued. -/
theorem waits_after_connect (h : Free s)
    (hpc : s.pc = .set .connected ∨ s.pc = .record .connected) :
    ∃ s', Reaches loopStep s s' ∧ Free s' ∧ s'.pc = .waiting
      ∧ s'.signals = s.signals := by
  have hrecord : ∀ {r : Adv}, Free r → r.pc = .record .connected →
      ∃ r', Reaches loopStep r r' ∧ Free r' ∧ r'.pc = .waiting
        ∧ r'.signals = r.signals := by
    intro r hr hpc
    have hstep : loopStep r (.advance true) = some
        ({ r with pc := .waiting, registered := false, advertising := false },
          []) := by
      simp [loopStep, Adv.advance, hpc, Cause.enable]
    exact ⟨_, Reaches.single hstep, hr.loop hstep, rfl, rfl⟩
  rcases hpc with hpc | hpc
  · have hstep : loopStep s (.advance true)
        = some (s.setAdvertisement .connected true) := by
      simp [loopStep, Adv.advance, hpc]
    -- an advertisement that is not out needs no call
    by_cases hreg : s.registered = true
    · have hset : s.setAdvertisement .connected true
          = ({ s with pc := .record .connected, advertised := false },
            [.invoked false]) := by
        simp [Adv.setAdvertisement, Cause.enable, hreg]
      rw [hset] at hstep
      obtain ⟨r, hr, hfree, hw, hsig⟩ := hrecord (h.loop hstep) rfl
      exact ⟨r, (Reaches.single hstep).trans hr, hfree, hw, hsig⟩
    · have hset : s.setAdvertisement .connected true
          = (s.goto .waiting, []) := by
        simp [Adv.setAdvertisement, Cause.enable, hreg]
      rw [hset] at hstep
      exact ⟨_, Reaches.single hstep, h.loop hstep, rfl, rfl⟩
  · exact hrecord h hpc

/-- A waiting loop works through its signals. The induction is on them: a
disconnect or a lost name ends it, a connect takes the advertisement down
and leaves the rest. -/
theorem advertises_waiting (signals : List Signal) :
    ∀ {s : Adv}, Free s → s.pc = .waiting → s.signals = signals →
      Advertises s := by
  induction signals with
  | nil =>
    intro s h hpc hsig
    by_cases hslot : s.rearmRequest = true
    · have hstep : loopStep s .takeRearm = some
          ({ s with pc := .rearmRead, rearmRequest := false }, []) := by
        simp [loopStep, hpc, hslot]
      exact (advertises_rearmRead (h.loop hstep) rfl).after hstep
    · refine advertises_of_believes h ?_
      have hoff : ∀ cause, s.pc ≠ .record cause := by
        intro cause
        rw [hpc]
        intro he
        cases he
      rw [believes_of_pc hoff]
      exact h.armed.armed h.down h.clear h.sent
        (Bool.eq_false_iff.mpr hslot) hpc hsig
  | cons x rest ih =>
    intro s h hpc hsig
    have hstep : loopStep s .takeSignal
        = some (Adv.handle { s with signals := rest } x) := by
      simp [loopStep, hpc, hsig]
    cases x with
    | nameLost =>
      exact (advertises_leaving (h.loop hstep) rfl rfl).after hstep
    | bearer connected =>
      cases connected with
      | false =>
        exact (advertises_disconnect (h.loop hstep) rfl).after hstep
      | true =>
        obtain ⟨r, hr, hfree, hw, hrsig⟩ :=
          waits_after_connect (h.loop hstep) (Or.inl rfl)
        obtain ⟨r', hr', hadv⟩ := ih hfree hw hrsig
        exact ⟨r', ((Reaches.single hstep).trans hr).trans hr', hadv⟩

/-- With the link down, the hold clear and every release of it sent, the
loop gets the advertisement registered, wherever it is, unless the process
is going down. -/
theorem reaches_advertised (h : Free s) (hrun : Running s) :
    Advertises s := by
  -- from the select the signals left over are handled first
  have hwait : ∀ {r : Adv}, Reaches loopStep s r ∧ Free r ∧ r.pc = .waiting →
      Advertises s := by
    rintro r ⟨hr, hfree, hw⟩
    obtain ⟨r', hr', hadv⟩ := advertises_waiting r.signals hfree hw rfl
    exact ⟨r', hr.trans hr', hadv⟩
  cases hpc : s.pc with
  | stopped => exact advertises_stopped h hpc
  | finished => exact absurd hpc hrun.unfinished
  | startRead => exact advertises_start h (Or.inl hpc)
  | startReset => exact advertises_start h (Or.inr hpc)
  | waiting => exact advertises_waiting s.signals h hpc rfl
  | rearmRead => exact advertises_rearmRead h hpc
  | rearmCheck connected =>
    cases connected with
    | false => exact advertises_rearm h hpc
    | true =>
      have hstep : loopStep s (.advance true)
          = some (s.goto .waiting, []) := by
        simp [loopStep, Adv.advance, hpc]
      exact hwait ⟨Reaches.single hstep, h.loop hstep, rfl⟩
  | disconnectCheck => exact advertises_disconnect h hpc
  | set cause =>
    cases cause with
    | connected =>
      obtain ⟨r, hr, hfree, hw, -⟩ :=
        waits_after_connect h (Or.inl hpc)
      exact hwait ⟨hr, hfree, hw⟩
    | startup | disconnected | rearm => exact advertises_set h hpc rfl
  | record cause =>
    cases cause with
    | connected =>
      obtain ⟨r, hr, hfree, hw, -⟩ :=
        waits_after_connect h (Or.inr hpc)
      exact hwait ⟨hr, hfree, hw⟩
    | startup | disconnected | rearm =>
      exact advertises_of_believes h (believes_record hpc)
  | leaving e => exact advertises_leaving h hpc (hrun.returns e hpc)

end Callbridge.Bluez
