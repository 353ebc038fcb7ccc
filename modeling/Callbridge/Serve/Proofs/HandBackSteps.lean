/-
What a step of the composition does to its parts (`HandBackMove`), and the
invariants of the parts by themselves: what the broker's proofs know of
the loop holds of it here (`LoopInv`), and the client's session, store and
callback stand in the order its goroutine runs them in (`ClientInv`).
-/
import Callbridge.Serve.HandBack
import Callbridge.Bluez.Proofs.Rearm
import Callbridge.Gtbs.Proofs.Handset
import Callbridge.Gtbs.Proofs.PhoneCalls

namespace Callbridge.Serve

open Lib Protocol Gtbs Bluez

variable {s s' : HandBack} {act : HandBackAct} {es : List AdvEvent}

-- == inversion

/-- What a step does to the parts. -/
inductive HandBackMove (s : HandBack) : HandBackAct → HandBack → Prop
  | calls (act : PhoneAct) (phone : Phone) :
      phone.store = s.phone.store → phone.session = s.phone.session →
      (s.cut = true ∨ s.phone.session = .down →
        phone.queue = s.phone.queue) →
      HandBackMove s (.calls act) { s with phone := phone }
  | subscribe (phone : Phone) : s.adv.connected = true →
      s.phone.session = .down → phone.store = s.phone.store →
      phone.session = .subscribed →
      HandBackMove s (.session .subscribe)
        { s with phone := phone, cut := false }
  | read (phone : Phone) : s.cut = false →
      s.phone.session = .subscribed →
      phone.store = s.phone.store.exec (.apply (encodeCalls s.phone.calls)) →
      phone.session = .up →
      HandBackMove s (.session .read)
        { s with phone := phone, callback := .emitted }
  | deliver (phone : Phone) (calls : List PhoneCall)
      (rest : List (List PhoneCall)) :
      s.phone.session = .up → s.phone.queue = calls :: rest →
      s.callback = .idle →
      phone.store = s.phone.store.exec (.apply (encodeCalls calls)) →
      phone.session = .up → phone.queue = rest →
      HandBackMove s (.session .deliver)
        { s with phone := phone, callback := .emitted }
  | lose (phone : Phone) : s.phone.session ≠ .down →
      s.phone.session = .subscribed
        ∨ s.callback = .idle ∧ s.phone.queue = [] →
      phone.store = s.phone.store → phone.session = .down →
      HandBackMove s (.session .lose) { s with phone := phone, cut := false }
  | identity (value : Bytes) (callback : Callback) :
      s.phone.session = .up → s.callback = .idle →
      callback = .idle ∨ callback = .emitted →
      HandBackMove s (.identity value)
        { s with
          phone := { s.phone with
            store := s.phone.store.exec (.applyIncomingCall value) }
          callback := callback }
  | claim (index : UInt8) (token : UInt64) :
      HandBackMove s (.claim index token)
        { s with
          phone := { s.phone with
            store := s.phone.store.exec (.claimCall index token) } }
  | answered (order : List (UInt8 × Call)) : s.callback = .emitted →
      s.phone.store.calls.Order order →
      HandBackMove s (.callback order)
        { s with
          callback := .answered (s.phone.store.handsetAnswered order) }
  | held (order : List (UInt8 × Call)) (token : UInt64) :
      s.callback = .answered token →
      HandBackMove s (.callback order)
        { s with
          adv := s.adv.holdAdvertisement (token != 0)
          callback := .held token }
  | done (order : List (UInt8 × Call)) (token dropped : UInt64)
      (drops : Nat) : s.callback = .held token → s.adv.sending = 0 →
      HandBackMove s (.callback order)
        { s with
          callback := .idle
          droppedForToken := dropped
          drops := drops }
  | send : 0 < s.adv.sending →
      HandBackMove s .send (s.withAdv s.adv.sendRearm)
  | dropped (act : HandBackAct) (drops : Nat) :
      HandBackMove s act { s with drops := drops }
  | lost (act : HandBackAct) (drops : Nat) : s.adv.connected = true →
      HandBackMove s act { s.loseLink with drops := drops }
  | linkUp : s.adv.advertised = true →
      HandBackMove s .linkUp (s.withAdv (s.adv.setLink true))
  | loop (act : LoopAct) (adv : Adv) (es : List AdvEvent) :
      LoopMove s.adv act adv es →
      HandBackMove s (.loop act) (s.withAdv adv)

theorem changeTo_eq (r : Phone) (calls : List PhoneCall) :
    (r.changeTo calls).store = r.store
      ∧ (r.session = .down → (r.changeTo calls).queue = r.queue) := by
  refine ⟨rfl, ?_⟩
  intro h
  simp [Phone.changeTo, h]

/-- The phone's calls change the list and, where somebody listens, the
queue. -/
theorem phoneStep_calls {r phone : Phone} {act : PhoneAct} {us : List Unit}
    (hc : isCallChange act = true)
    (h : phoneStep r act = some (phone, us)) :
    phone.store = r.store ∧ (r.session = .down → phone.queue = r.queue) := by
  cases act with
  | start index state flags | change id state =>
    simp only [phoneStep] at h
    split at h
    case isFalse => cases h
    case isTrue =>
      cases h
      exact changeTo_eq r _
  | finish id =>
    cases h
    exact changeTo_eq r _
  | subscribe | read | deliver | lose | claim => cases hc

theorem apply_frame (r : Phone) (calls : List PhoneCall) :
    (r.apply calls).session = r.session := by
  unfold Phone.apply
  split <;> rfl

/-- The steps of the GTBS session. -/
theorem HandBackMove.of_session {act : PhoneAct} {phone : Phone}
    {us : List Unit} (ha : s.allows act = true)
    (h : phoneStep s.phone act = some (phone, us)) :
    HandBackMove s (.session act) (s.session phone act) := by
  cases act with
  | subscribe =>
    simp only [phoneStep] at h
    split at h
    case isFalse => cases h
    case isTrue hd =>
      cases h
      exact .subscribe _ ha hd rfl rfl
  | read =>
    simp only [phoneStep] at h
    split at h
    case isFalse => cases h
    case isTrue hs =>
      cases h
      exact .read _ (by simpa [HandBack.allows] using ha) hs
        (apply_store _ _) rfl
  | deliver =>
    simp only [phoneStep] at h
    split at h
    case h_2 => cases h
    case h_1 calls rest hs hq =>
      cases h
      exact .deliver _ calls rest hs hq
        (by simpa [HandBack.allows] using ha) (apply_store _ _)
        ((apply_frame _ _).trans hs) rfl
  | lose =>
    simp only [phoneStep] at h
    split at h
    case isTrue => cases h
    case isFalse hs =>
      cases h
      refine .lose _ hs ?_ rfl rfl
      rcases Bool.or_eq_true_iff.mp ha with hsub | hcut
      · exact Or.inl (of_decide_eq_true hsub)
      · right
        simp only [Bool.and_eq_true, decide_eq_true_eq] at hcut
        exact ⟨hcut.1.2, hcut.2⟩
  | start | change | finish | claim => cases ha

/-- An identity starts the callback if it is news. -/
theorem HandBackMove.of_identity (value : Bytes)
    (hs : s.phone.session = .up) (hc : s.callback = .idle) :
    HandBackMove s (.identity value) (s.identity value) := by
  have hexec : s.phone.store.exec (.applyIncomingCall value)
      = (s.phone.store.applyIncomingCall value).2 := rfl
  unfold HandBack.identity
  split
  case h_1 store h =>
    rw [h] at hexec
    rw [← show _ = store from hexec]
    exact .identity value .emitted hs hc (Or.inr rfl)
  case h_2 store h =>
    rw [h] at hexec
    have hm := HandBackMove.identity value .idle hs hc (Or.inl rfl)
    rw [show _ = store from hexec, ← hc] at hm
    exact hm

theorem dropOnce_eq (s : HandBack) (token : UInt64) :
    ∃ dropped drops, s.dropOnce token
      = { s with
        callback := .idle
        droppedForToken := dropped
        drops := drops } := by
  unfold HandBack.dropOnce
  split_ifs <;> exact ⟨_, _, rfl⟩

/-- The steps of the callback. -/
theorem HandBackMove.of_callback {order : List (UInt8 × Call)}
    (h : s.callbackStep order = some s') :
    HandBackMove s (.callback order) s' := by
  unfold HandBack.callbackStep at h
  split at h
  case h_1 => cases h
  case h_2 hc =>
    split at h
    case isFalse => cases h
    case isTrue ho =>
      cases h
      exact .answered order hc ho
  case h_3 token hc =>
    cases h
    exact .held order token hc
  case h_4 token hc =>
    split at h
    case isFalse => cases h
    case isTrue hsent =>
      cases h
      obtain ⟨dropped, drops, heq⟩ := dropOnce_eq s token
      rw [heq]
      exact .done order token dropped drops hc hsent

/-- Every step is one of the moves. -/
theorem HandBackMove.of_step (h : handBackStep s act = some (s', es)) :
    HandBackMove s act s' := by
  cases act with
  | calls act =>
    simp only [handBackStep] at h
    split at h
    case isFalse => cases h
    case isTrue hc =>
      split at h
      case h_2 => cases h
      case h_1 phone us hp =>
        cases h
        obtain ⟨hst, hq⟩ := phoneStep_calls hc hp
        unfold HandBack.audience at hst hq
        refine .calls act _ ?_ rfl ?_
        · rw [show _ = phone.store from rfl, hst]
          split <;> rfl
        · intro hdeaf
          -- a cut session hears nothing, whatever its state says
          by_cases hcut : s.cut = true
          · simpa [hcut] using hq
          · have hd : s.phone.session = .down := by
              rcases hdeaf with h | h
              · exact absurd h hcut
              · exact h
            simpa [hcut, hd] using hq
  | session act =>
    simp only [handBackStep] at h
    split at h
    case isFalse => cases h
    case isTrue ha =>
      split at h
      case h_2 => cases h
      case h_1 phone us hp =>
        cases h
        exact .of_session ha hp
  | identity value =>
    simp only [handBackStep] at h
    split at h
    case isFalse => cases h
    case isTrue hg =>
      cases h
      exact .of_identity value hg.1 hg.2
  | claim index token =>
    cases h
    exact .claim index token
  | callback order =>
    simp only [handBackStep] at h
    split at h
    case h_2 => cases h
    case h_1 hc =>
      cases h
      exact .of_callback hc
  | send =>
    simp only [handBackStep] at h
    split at h
    case isFalse => cases h
    case isTrue hpos =>
      cases h
      exact .send hpos
  | drop ok =>
    simp only [handBackStep] at h
    split at h
    case isTrue => cases h
    case isFalse =>
      -- a drop that succeeds takes the link down with it
      split at h
      case isTrue hlink =>
        cases h
        exact .lost _ _ (Bool.and_eq_true_iff.mp hlink).2
      case isFalse =>
        cases h
        exact .dropped _ _
  | linkUp =>
    simp only [handBackStep] at h
    split at h
    case isFalse => cases h
    case isTrue hg =>
      cases h
      exact .linkUp hg.2
  | linkDown =>
    simp only [handBackStep] at h
    split at h
    case isFalse => cases h
    case isTrue hlink =>
      cases h
      exact .lost _ s.drops hlink
  | loop act =>
    simp only [handBackStep] at h
    split at h
    case h_2 => cases h
    case h_1 adv us hl =>
      cases h
      exact .loop act adv _ (LoopMove.of_step hl)

-- == the loop in its place

/-- What is known of the loop. -/
structure LoopInv (a : Adv) : Prop where
  armed : Armed a
  agrees : Agrees a
  running : Running a

/-- The loop keeps its own invariant. -/
theorem HandBackMove.loopInv (h : LoopInv s.adv)
    (hm : HandBackMove s act s') : LoopInv s'.adv := by
  have hlink : ∀ up : Bool, LoopInv (s.adv.setLink up) := fun up =>
    ⟨h.armed.link up, h.agrees.link up, h.running.link up⟩
  cases hm with
  | held order token _ =>
    exact ⟨h.armed.hold _, h.agrees,
      ⟨h.running.unfinished, h.running.returns⟩⟩
  | send _ =>
    exact ⟨h.armed.send, h.agrees,
      ⟨h.running.unfinished, h.running.returns⟩⟩
  | lost _ _ _ => exact hlink false
  | linkUp _ => exact hlink true
  | loop act adv es hl =>
    exact ⟨h.armed.loop hl, h.agrees.loop hl, h.running.loop hl⟩
  | calls | subscribe | read | deliver | lose | identity | claim
  | answered | done | dropped => exact h

-- == the session's own state

/-- What is known of the client: the callback runs only in a session that
is up, and after it has run a hold that is clear means a quiet store. -/
structure ClientInv (s : HandBack) : Prop where
  claims : ClaimsLive s.phone.store
  resting : s.phone.session ≠ .up → s.callback = .idle
  answered : s.callback = .answered 0 → s.phone.store.quiet = true
  settled : s.phone.session = .up →
    s.callback = .idle ∨ (∃ token, s.callback = .held token) →
    s.adv.advertisementHold = false → s.phone.store.quiet = true

/-- A callback that runs is one of a session that is up. -/
theorem ClientInv.up (h : ClientInv s) (hc : s.callback ≠ .idle) :
    s.phone.session = .up := by
  by_contra hne
  exact hc (h.resting hne)

theorem ClientInv.of_same (h : ClientInv s)
    (hstore : s'.phone.store = s.phone.store)
    (hsession : s'.phone.session = s.phone.session)
    (hcallback : s'.callback = s.callback)
    (hhold : s'.adv.advertisementHold = s.adv.advertisementHold) :
    ClientInv s' := by
  constructor
  · rw [hstore]
    exact h.claims
  · rw [hsession, hcallback]
    exact h.resting
  · rw [hcallback, hstore]
    exact h.answered
  · rw [hsession, hcallback, hhold, hstore]
    exact h.settled

/-- A value has been applied, and the callback is to run. -/
theorem clientInv_emitted (hclaims : ClaimsLive s.phone.store)
    (hup : s.phone.session = .up) (hc : s.callback = .emitted) :
    ClientInv s := by
  refine ⟨hclaims, fun h => absurd hup h, ?_, ?_⟩
  · rw [hc]
    nofun
  · rw [hc]
    rintro - (h | ⟨_, h⟩) <;> cases h

/-- No session is up. -/
theorem clientInv_down (hclaims : ClaimsLive s.phone.store)
    (hdown : s.phone.session ≠ .up) (hc : s.callback = .idle) :
    ClientInv s := by
  refine ⟨hclaims, fun _ => hc, ?_, fun h => absurd h hdown⟩
  rw [hc]
  nofun

/-- The store gains claims. -/
theorem ClientInv.more (h : ClientInv s) {store : Store}
    (hclaims : ClaimsLive store) (hmore : MoreClaims s.phone.store store) :
    ClientInv { s with phone := { s.phone with store := store } } :=
  ⟨hclaims, h.resting, fun hc => hmore.quiet (h.answered hc),
    fun hup hc hclear => hmore.quiet (h.settled hup hc hclear)⟩

/-- Every move keeps what is known of the client. -/
theorem HandBackMove.clientInv (h : ClientInv s)
    (hm : HandBackMove s act s') : ClientInv s' := by
  cases hm with
  | calls act phone hstore hsession _ =>
    exact h.of_same hstore hsession rfl rfl
  | subscribe phone _ hdown hstore hsub =>
    refine clientInv_down ?_ (by rw [hsub]; nofun) (h.resting ?_)
    · rw [hstore]
      exact h.claims
    · rw [hdown]
      nofun
  | read phone _ _ hstore hup | deliver phone calls rest _ _ _ hstore hup _ =>
    refine clientInv_emitted ?_ hup rfl
    rw [hstore]
    exact exec_claimsLive h.claims _
  | lose phone _ hwhy hstore hdown =>
    refine clientInv_down ?_ (by rw [hdown]; nofun) ?_
    · rw [hstore]
      exact h.claims
    · rcases hwhy with hsub | ⟨hidle, -⟩
      · exact h.resting (by rw [hsub]; nofun)
      · exact hidle
  | identity value callback hup hidle hc =>
    have hclaims := exec_claimsLive h.claims (.applyIncomingCall value)
    rcases hc with rfl | rfl
    · refine (h.more hclaims (moreClaims_identity _ value)).of_same rfl rfl
        ?_ rfl
      exact hidle.symm
    · exact clientInv_emitted hclaims hup rfl
  | claim index token =>
    exact h.more (exec_claimsLive h.claims (.claimCall index token))
      (moreClaims_claim h.claims index token)
  | answered order hc ho =>
    have hup : s.phone.session = .up := h.up (by rw [hc]; nofun)
    refine ⟨h.claims, fun hne => absurd hup hne, ?_, ?_⟩
    · intro hzero
      injection hzero with hzero
      have := handsetAnswered_bne ho
      rw [hzero] at this
      simpa using this.symm
    · rintro - (hi | ⟨_, hi⟩) <;> cases hi
  | held order token hc =>
    have hup : s.phone.session = .up := h.up (by rw [hc]; nofun)
    refine ⟨h.claims, fun hne => absurd hup hne, nofun, ?_⟩
    intro _ _ hclear
    have hzero : token = 0 := by
      have : (token != 0) = false := hclear
      simpa using this
    exact h.answered (hzero ▸ hc)
  | done order token dropped drops hc _ =>
    refine ⟨h.claims, fun _ => rfl, nofun, ?_⟩
    intro hup _ hclear
    exact h.settled hup (Or.inr ⟨token, hc⟩) hclear
  | send _ | dropped _ _ => exact h.of_same rfl rfl rfl rfl
  | lost _ _ _ | linkUp _ => exact h.of_same rfl rfl rfl (setLink_hold _ _)
  | loop act adv es hl => exact h.of_same rfl rfl rfl hl.frame.hold

end Callbridge.Serve
