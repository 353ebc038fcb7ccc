/-
What a step of the advertisement's loop does, said once (`LoopMove`), and
the invariants that need nothing else: what the loop believes about the
advertisement bounds what BlueZ has (`Backed`), and is what BlueZ has as
long as BlueZ drops nothing by itself (`Agrees`).
-/
import Callbridge.Bluez.Advertise

namespace Callbridge.Bluez

open Lib

variable {s s' : Adv} {act : LoopAct} {es : List AdvEvent}

-- == inversion

/-- The steps of the loop goroutine. -/
inductive LoopMove (s : Adv) : LoopAct → Adv → List AdvEvent → Prop
  | start : s.pc = .stopped →
      LoopMove s .start { s with pc := .startRead, signals := [] } []
  | readFailed (e : LoopExit) : s.pc = .startRead ∨ s.pc = .rearmRead →
      e.final = false →
      LoopMove s (.advance false) (s.goto (.leaving e)) []
  | startConnected : s.pc = .startRead → s.connected = true →
      LoopMove s (.advance true) (s.goto .startReset) []
  | startDown : s.pc = .startRead ∨ s.pc = .startReset →
      s.connected = false →
      LoopMove s (.advance true) (s.goto (.set .startup)) []
  | resetSkipped : s.pc = .startReset →
      LoopMove s (.advance false) (s.goto .waiting) []
  | rearmRead : s.pc = .rearmRead →
      LoopMove s (.advance true) (s.goto (.rearmCheck s.connected)) []
  | rearmSkipped (connected ok : Bool) : s.pc = .rearmCheck connected →
      connected = true ∨ s.advertisementHold = true →
      LoopMove s (.advance ok) (s.goto .waiting) []
  | rearmDecided (ok : Bool) : s.pc = .rearmCheck false →
      s.advertisementHold = false →
      LoopMove s (.advance ok) (s.goto (.set .rearm)) []
  | disconnectSkipped (ok : Bool) : s.pc = .disconnectCheck →
      s.advertisementHold = true →
      LoopMove s (.advance ok) (s.goto .waiting) []
  | disconnectDecided (ok : Bool) : s.pc = .disconnectCheck →
      s.advertisementHold = false →
      LoopMove s (.advance ok) (s.goto (.set .disconnected)) []
  | setAlready (cause : Cause) (ok : Bool) : s.pc = .set cause →
      s.registered = cause.enable →
      LoopMove s (.advance ok) (s.goto .waiting) []
  | setInvoked (cause : Cause) : s.pc = .set cause →
      s.registered = !cause.enable →
      LoopMove s (.advance true)
        { s with pc := .record cause, advertised := cause.enable }
        [.invoked cause.enable]
  | setFailed (cause : Cause) : s.pc = .set cause →
      s.registered = !cause.enable →
      LoopMove s (.advance false) (s.goto (.leaving (.setFailed cause)))
        [.invoked cause.enable]
  | record (cause : Cause) (ok : Bool) : s.pc = .record cause →
      LoopMove s (.advance ok)
        { s with
          pc := .waiting
          registered := cause.enable
          advertising := cause.enable } []
  | leave (e : LoopExit) (ok : Bool) : s.pc = .leaving e →
      LoopMove s (.advance ok) (s.leave e).1 (s.leave e).2
  | takeRearm : s.pc = .waiting → s.rearmRequest = true →
      LoopMove s .takeRearm
        { s with pc := .rearmRead, rearmRequest := false } []
  | nameLost (rest : List Signal) : s.pc = .waiting →
      s.signals = .nameLost :: rest →
      LoopMove s .takeSignal
        { s with pc := .leaving .nameDisappeared, signals := rest } []
  | sawConnect (rest : List Signal) : s.pc = .waiting →
      s.signals = .bearer true :: rest →
      LoopMove s .takeSignal
        { s with pc := .set .connected, signals := rest } []
  | sawDisconnect (rest : List Signal) : s.pc = .waiting →
      s.signals = .bearer false :: rest →
      LoopMove s .takeSignal
        { s with pc := .disconnectCheck, signals := rest }
        [.bearerDisconnected]

/-- `setAdvertisement`, by what BlueZ answers. -/
theorem LoopMove.of_set {cause : Cause} {ok : Bool}
    (hpc : s.pc = .set cause) :
    LoopMove s (.advance ok) (s.setAdvertisement cause ok).1
      (s.setAdvertisement cause ok).2 := by
  unfold Adv.setAdvertisement
  split
  case isTrue h => exact .setAlready cause ok hpc h.symm
  case isFalse h =>
    have hreg : s.registered = !cause.enable :=
      Bool.eq_not.mpr (Ne.symm h)
    cases ok with
    | true => exact .setInvoked cause hpc hreg
    | false => exact .setFailed cause hpc hreg

/-- The steps of the loop between two waits. -/
theorem LoopMove.of_advance {ok : Bool}
    (h : s.advance ok = some (s', es)) :
    LoopMove s (.advance ok) s' es := by
  unfold Adv.advance at h
  split at h
  case h_1 hpc =>
    cases ok with
    | false =>
      cases h
      exact .readFailed .readInitial (Or.inl hpc) rfl
    | true =>
      simp only [Bool.not_true, Bool.false_eq_true, if_false] at h
      split at h
      case isTrue hc =>
        cases h
        exact .startConnected hpc hc
      case isFalse hc =>
        cases h
        exact .startDown (Or.inl hpc) (Bool.eq_false_iff.mpr hc)
  case h_2 hpc =>
    cases ok with
    | false =>
      cases h
      exact .resetSkipped hpc
    | true =>
      simp only [Bool.not_true, Bool.false_eq_true, if_false] at h
      split at h
      case isTrue => cases h
      case isFalse hc =>
        cases h
        exact .startDown (Or.inr hpc) (Bool.eq_false_iff.mpr hc)
  case h_3 hpc =>
    cases ok with
    | false =>
      cases h
      exact .readFailed .readRearm (Or.inr hpc) rfl
    | true =>
      cases h
      exact .rearmRead hpc
  case h_4 connected hpc =>
    split at h
    case isTrue hc =>
      cases h
      exact .rearmSkipped connected ok hpc (Bool.or_eq_true_iff.mp hc)
    case isFalse hc =>
      cases h
      -- neither connected nor held: set again
      obtain ⟨rfl, hhold⟩ :=
        Bool.or_eq_false_iff.mp (Bool.eq_false_iff.mpr hc)
      exact .rearmDecided ok hpc hhold
  case h_5 hpc =>
    split at h
    case isTrue hhold =>
      cases h
      exact .disconnectSkipped ok hpc hhold
    case isFalse hhold =>
      cases h
      exact .disconnectDecided ok hpc (Bool.eq_false_iff.mpr hhold)
  case h_6 cause hpc =>
    have hm : LoopMove s (.advance ok) _ _ := LoopMove.of_set hpc
    injection h with h
    rw [h] at hm
    exact hm
  case h_7 cause hpc =>
    cases h
    exact .record cause ok hpc
  case h_8 e hpc =>
    have hm : LoopMove s (.advance ok) _ _ := .leave e ok hpc
    injection h with h
    rw [h] at hm
    exact hm
  case h_9 => cases h

/-- Every step of the loop is one of the moves. -/
theorem LoopMove.of_step (h : loopStep s act = some (s', es)) :
    LoopMove s act s' es := by
  cases act with
  | start =>
    simp only [loopStep] at h
    split at h
    case isFalse => cases h
    case isTrue hpc =>
      cases h
      exact .start hpc
  | advance ok => exact LoopMove.of_advance h
  | takeRearm =>
    simp only [loopStep] at h
    split at h
    case isFalse => cases h
    case isTrue hg =>
      cases h
      exact .takeRearm hg.1 hg.2
  | takeSignal =>
    simp only [loopStep] at h
    split at h
    case h_2 => cases h
    case h_1 x rest hpc hsig =>
      cases x with
      | nameLost =>
        cases h
        exact .nameLost rest hpc hsig
      | bearer connected =>
        cases connected with
        | true =>
          cases h
          exact .sawConnect rest hpc hsig
        | false =>
          cases h
          exact .sawDisconnect rest hpc hsig

/-- The steps of the loop and of what goes on around it. -/
inductive AdvMove (s : Adv) : AdvAct → Adv → List AdvEvent → Prop
  | loop {act : LoopAct} {s' : Adv} {es : List AdvEvent} :
      LoopMove s act s' es → AdvMove s (.loop act) s' es
  | quit (e : LoopExit) : s.pc = .waiting → e.selected = true →
      AdvMove s (.quit e) (s.goto (.leaving e)) []
  | hold (on : Bool) : AdvMove s (.hold on) (s.holdAdvertisement on) []
  | send : 0 < s.sending → AdvMove s .send s.sendRearm []
  | link (connected : Bool) : s.connected = !connected →
      AdvMove s (.link connected) (s.setLink connected) []
  | release : s.advertised = true →
      AdvMove s .release
        { s with advertised := false, advertising := false } []
  | bluezGone : AdvMove s .bluezGone
      (Adv.emit { s with connected := false, advertised := false }
        .nameLost) []

/-- Every step is the loop's, or one of those around it. -/
theorem AdvMove.of_step {act : AdvAct} (h : advStep s act = some (s', es)) :
    AdvMove s act s' es := by
  cases act with
  | loop act => exact .loop (LoopMove.of_step h)
  | quit e =>
    simp only [advStep] at h
    split at h
    case isFalse => cases h
    case isTrue hg =>
      cases h
      exact .quit e hg.1 hg.2
  | hold on =>
    cases h
    exact .hold on
  | send =>
    simp only [advStep] at h
    split at h
    case isFalse => cases h
    case isTrue hpos =>
      cases h
      exact .send hpos
  | link connected =>
    simp only [advStep] at h
    split at h
    case isTrue => cases h
    case isFalse hne =>
      cases h
      exact .link connected (Bool.eq_not.mpr hne)
  | release =>
    simp only [advStep] at h
    split at h
    case isFalse => cases h
    case isTrue hadv =>
      cases h
      exact .release hadv
  | bluezGone =>
    cases h
    exact .bluezGone

/-- The loop goroutine neither lays the hold nor moves the link. -/
structure LoopFrame (s s' : Adv) : Prop where
  hold : s'.advertisementHold = s.advertisementHold
  sending : s'.sending = s.sending
  connected : s'.connected = s.connected

theorem emit_hold (s : Adv) (x : Signal) :
    (s.emit x).advertisementHold = s.advertisementHold := by
  unfold Adv.emit
  split <;> rfl

theorem LoopMove.frame (h : LoopMove s act s' es) : LoopFrame s s' := by
  cases h <;> exact ⟨rfl, rfl, rfl⟩

-- == what the loop believes

/-- What the loop will have in its flag once it has recorded BlueZ's
answer. -/
def Adv.believes (s : Adv) : Bool :=
  match s.pc with
  | .record cause => cause.enable
  | _ => s.registered

theorem believes_of_pc (h : ∀ cause, s.pc ≠ .record cause) :
    s.believes = s.registered := by
  unfold Adv.believes
  split
  case h_1 cause hpc => exact absurd hpc (h cause)
  case h_2 => rfl

theorem believes_record {cause : Cause} (h : s.pc = .record cause) :
    s.believes = cause.enable := by
  unfold Adv.believes
  rw [h]

theorem believes_goto {pc : LoopPc} (h : ∀ cause, s.pc ≠ .record cause)
    (hpc : ∀ cause, pc ≠ .record cause) :
    (s.goto pc).believes = s.believes := by
  rw [believes_of_pc (s := s.goto pc) hpc, believes_of_pc h]
  rfl

/-- A step either leaves both the belief and BlueZ alone, or makes one
what the other is. -/
theorem LoopMove.believes (h : LoopMove s act s' es) :
    s'.believes = s.believes ∧ s'.advertised = s.advertised
      ∨ s'.advertised = s'.believes := by
  cases h with
  | start hpc =>
    left
    refine ⟨?_, rfl⟩
    rw [believes_of_pc (s := s) (by rw [hpc]; nofun)]
    rfl
  | readFailed e hpc _ | startDown hpc _ =>
    exact Or.inl ⟨believes_goto
      (by rcases hpc with h | h <;> rw [h] <;> nofun) nofun, rfl⟩
  | startConnected hpc _ | resetSkipped hpc | rearmRead hpc
  | rearmSkipped _ _ hpc _ | rearmDecided _ hpc _
  | disconnectSkipped _ hpc _ | disconnectDecided _ hpc _
  | setAlready _ _ hpc _ | setFailed _ hpc _ =>
    exact Or.inl ⟨believes_goto (by rw [hpc]; nofun) nofun, rfl⟩
  | setInvoked cause hpc _ => exact Or.inr rfl
  | record cause ok hpc =>
    left
    rw [believes_record hpc]
    exact ⟨rfl, rfl⟩
  | leave e ok hpc =>
    right
    unfold Adv.leave Adv.believes
    cases e.final <;> rfl
  | takeRearm hpc _ | nameLost _ hpc _ | sawConnect _ hpc _
  | sawDisconnect _ hpc _ =>
    left
    refine ⟨?_, rfl⟩
    rw [believes_of_pc (s := s) (by rw [hpc]; nofun)]
    rfl

/-- BlueZ has no advertisement the loop does not know of. -/
def Backed (s : Adv) : Prop := s.advertised = true → s.believes = true

/-- BlueZ has the advertisement exactly when the loop thinks so. -/
def Agrees (s : Adv) : Prop := s.advertised = s.believes

theorem Backed.loop (h : Backed s) (hm : LoopMove s act s' es) :
    Backed s' := by
  intro hadv
  rcases hm.believes with ⟨hb, ha⟩ | he
  · rw [hb]
    exact h (ha ▸ hadv)
  · rw [← he]
    exact hadv

theorem Agrees.loop (h : Agrees s) (hm : LoopMove s act s' es) :
    Agrees s' := by
  rcases hm.believes with ⟨hb, ha⟩ | he
  · exact ha.trans (h.trans hb.symm)
  · exact he

end Callbridge.Bluez
