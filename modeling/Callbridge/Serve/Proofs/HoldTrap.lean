/-
The hold as a trap. Only a Snapshot lifts the hold, a Snapshot needs a
session, a session needs the link, the phone brings the link up only in
answer to the advertisement, and the hold keeps that down. So a link that
goes while the hold is set, or is about to be, never comes back
(`hold_traps_the_phone`); one that goes while the session's remaining work
leaves the hold clear (`holdAfter`) does (`link_comes_back`).
-/
import Callbridge.Serve.Proofs.HandBackSteps

namespace Callbridge.Serve

open Lib Protocol Gtbs Bluez

variable {s s' : HandBack} {act : HandBackAct} {es : List AdvEvent}

-- == what the hold is going to be

/-- The hold once the session has handled what it has received. -/
def HandBack.holdAfter (s : HandBack) : Bool :=
  match s.phone.session, s.phone.queue, s.callback with
  | .up, calls :: rest, _ =>
      !(s.phone.store.drained (calls :: rest)).quiet
  | .up, [], .emitted => !s.phone.store.quiet
  | .up, [], .answered token => token != 0
  | _, _, _ => s.adv.advertisementHold

theorem holdAfter_down (h : s.phone.session ≠ .up) :
    s.holdAfter = s.adv.advertisementHold := by
  unfold HandBack.holdAfter
  cases hs : s.phone.session with
  | up => exact absurd hs h
  | down | subscribed => rfl

theorem holdAfter_idle (hq : s.phone.queue = []) (hc : s.callback = .idle) :
    s.holdAfter = s.adv.advertisementHold := by
  unfold HandBack.holdAfter
  rw [hq, hc]
  cases s.phone.session <;> rfl

theorem holdAfter_queued {calls : List PhoneCall}
    {rest : List (List PhoneCall)} (hup : s.phone.session = .up)
    (hq : s.phone.queue = calls :: rest) :
    s.holdAfter = !(s.phone.store.drained (calls :: rest)).quiet := by
  unfold HandBack.holdAfter
  rw [hup, hq]

theorem holdAfter_emitted (hup : s.phone.session = .up)
    (hc : s.callback = .emitted) :
    s.holdAfter = !(s.phone.store.drained s.phone.queue).quiet := by
  unfold HandBack.holdAfter
  rw [hup, hc]
  cases hq : s.phone.queue <;> rfl

theorem holdAfter_congr (hstore : s'.phone.store = s.phone.store)
    (hsession : s'.phone.session = s.phone.session)
    (hqueue : s'.phone.queue = s.phone.queue)
    (hcallback : s'.callback = s.callback)
    (hhold : s'.adv.advertisementHold = s.adv.advertisementHold) :
    s'.holdAfter = s.holdAfter := by
  unfold HandBack.holdAfter
  rw [hstore, hsession, hqueue, hcallback, hhold]

/-- Claims do not bring the hold on. -/
theorem holdAfter_more {store : Store}
    (hmore : MoreClaims s.phone.store store) (h : s.holdAfter = false) :
    HandBack.holdAfter { s with phone := { s.phone with store := store } }
      = false := by
  by_cases hup : s.phone.session = .up
  · unfold HandBack.holdAfter at h ⊢
    cases hq : s.phone.queue with
    | cons calls rest =>
      simp only [hup, hq] at h ⊢
      have := (hmore.drained (calls :: rest)).quiet (by simpa using h)
      simpa using this
    | nil =>
      cases hc : s.callback with
      | emitted =>
        simp only [hup, hq, hc] at h ⊢
        have := hmore.quiet (by simpa using h)
        simpa using this
      | idle | answered | held =>
        simp only [hup, hq, hc] at h ⊢
        exact h
  · rw [holdAfter_down hup] at h
    exact (holdAfter_down (s := { s with
      phone := { s.phone with store := store } }) hup).trans h

-- == the link

abbrev HandBackTrans := Lib.Trans HandBack HandBackAct AdvEvent

/-- If the step takes the link down, the session's remaining work leaves
the hold clear. -/
def ClearLoss (x : HandBackTrans) : Prop :=
  x.pre.adv.connected = true → x.post.adv.connected = false →
    x.pre.holdAfter = false

instance (x : HandBackTrans) : Decidable (ClearLoss x) :=
  inferInstanceAs (Decidable (_ → _ → _))

/-- While the link is down, a session that is left has heard of it or
will, and what it has received leaves the hold clear. -/
structure LinkInv (s : HandBack) : Prop where
  cut : s.adv.connected = false → s.phone.session ≠ .down → s.cut = true
  clear : s.adv.connected = false → s.holdAfter = false

/-- Nothing the link depends on has moved. -/
theorem LinkInv.of_same (h : LinkInv s)
    (hlink : s'.adv.connected = s.adv.connected) (hcut : s'.cut = s.cut)
    (hsession : s'.phone.session = s.phone.session)
    (hafter : s.adv.connected = false → s'.holdAfter = s.holdAfter) :
    LinkInv s' := by
  constructor
  · rw [hlink, hsession, hcut]
    exact h.cut
  · rw [hlink]
    intro hdown
    rw [hafter hdown]
    exact h.clear hdown

theorem linkInv_up (h : s.adv.connected = true) : LinkInv s := by
  constructor <;> rw [h] <;> nofun

/-- A hold that is going to be clear stays so over the callback of an
identity. -/
theorem holdAfter_identity (hclient : ClientInv s)
    (hup : s.phone.session = .up) (hidle : s.callback = .idle)
    (hclear : s.holdAfter = false) (value : Bytes) :
    ({ s with
      phone := { s.phone with
        store := s.phone.store.exec (.applyIncomingCall value) }
      callback := .emitted } : HandBack).holdAfter = false := by
  refine Eq.trans (holdAfter_emitted hup rfl) ?_
  rw [Bool.not_eq_false']
  refine ((moreClaims_identity s.phone.store value).drained _).quiet ?_
  cases hq : s.phone.queue with
  | nil =>
    -- the last callback left the hold clear on a quiet store
    rw [holdAfter_idle hq hidle] at hclear
    exact hclient.settled hup (Or.inl hidle) hclear
  | cons calls rest =>
    rw [holdAfter_queued hup hq] at hclear
    simpa using hclear

/-- Every move keeps it, if the link is lost with the hold clear. -/
theorem HandBackMove.linkInv (h : LinkInv s) (hclient : ClientInv s)
    (hloss : s.adv.connected = true → s'.adv.connected = false →
      s.holdAfter = false)
    (hm : HandBackMove s act s') : LinkInv s' := by
  cases hm with
  | calls act phone hstore hsession hqueue =>
    refine h.of_same rfl rfl hsession ?_
    intro hdown
    refine holdAfter_congr hstore hsession (hqueue ?_) rfl rfl
    by_cases hs : s.phone.session = .down
    · exact Or.inr hs
    · exact Or.inl (h.cut hdown hs)
  | subscribe phone hup _ _ _ => exact linkInv_up hup
  | read phone hcut hsub _ _ =>
    refine linkInv_up ?_
    -- a link that is down would have cut the session
    rw [← Bool.not_eq_false]
    intro hdown
    rw [h.cut hdown (by rw [hsub]; nofun)] at hcut
    cases hcut
  | deliver phone calls rest hup hq hidle hstore hup' hq' =>
    refine h.of_same rfl rfl (hup'.trans hup.symm) ?_
    intro _
    rw [holdAfter_emitted hup' rfl, holdAfter_queued hup hq]
    rw [hstore, hq']
    rfl
  | lose phone _ hwhy _ hdown =>
    refine ⟨fun _ hs => absurd hdown hs, ?_⟩
    intro hlink
    rw [holdAfter_down (by rw [hdown]; nofun)]
    have hclear := h.clear hlink
    rcases hwhy with hsub | ⟨hidle, hq⟩
    · rw [holdAfter_down (by rw [hsub]; nofun)] at hclear
      exact hclear
    · rw [holdAfter_idle hq hidle] at hclear
      exact hclear
  | identity value callback hup hidle hc =>
    refine ⟨h.cut, ?_⟩
    intro hdown
    have hclear := h.clear hdown
    rcases hc with rfl | rfl
    · rw [← holdAfter_more (moreClaims_identity s.phone.store value) hclear]
      exact holdAfter_congr rfl rfl rfl hidle.symm rfl
    · exact holdAfter_identity hclient hup hidle hclear value
  | claim index token =>
    refine ⟨h.cut, ?_⟩
    intro hdown
    exact holdAfter_more
      (moreClaims_claim hclient.claims index token) (h.clear hdown)
  | answered order hc ho =>
    refine h.of_same rfl rfl rfl ?_
    intro _
    have hup : s.phone.session = .up := hclient.up (by rw [hc]; nofun)
    rw [holdAfter_emitted hup hc]
    unfold HandBack.holdAfter
    cases hq : s.phone.queue with
    | nil =>
      simp only [hup]
      exact handsetAnswered_bne ho
    | cons calls rest => simp only [hup]
  | held order token hc =>
    refine h.of_same rfl rfl rfl ?_
    intro _
    have hup : s.phone.session = .up := hclient.up (by rw [hc]; nofun)
    unfold HandBack.holdAfter
    cases hq : s.phone.queue with
    | nil =>
      simp only [hup, hc]
      rfl
    | cons calls rest => simp only [hup]
  | done order token dropped drops hc _ =>
    refine h.of_same rfl rfl rfl ?_
    intro _
    unfold HandBack.holdAfter
    cases s.phone.session <;> cases s.phone.queue <;>
      simp only [hc]
  | send _ | dropped _ _ =>
    exact h.of_same rfl rfl rfl
      (fun _ => holdAfter_congr rfl rfl rfl rfl rfl)
  | lost _ drops hup =>
    have hdown : ({ s.loseLink with drops := drops } :
        HandBack).adv.connected = false := setLink_connected _ _
    refine ⟨?_, ?_⟩
    · intro _ hs
      have hs' : s.phone.session ≠ .down := hs
      show (s.cut || decide (s.phone.session ≠ .down)) = true
      rw [decide_eq_true hs', Bool.or_true]
    · intro _
      rw [← hloss hup hdown]
      exact holdAfter_congr rfl rfl rfl rfl (setLink_hold _ _)
  | linkUp _ => exact linkInv_up (setLink_connected _ _)
  | loop act adv es hl =>
    exact h.of_same hl.frame.connected rfl rfl
      (fun _ => holdAfter_congr rfl rfl rfl rfl hl.frame.hold)

-- == runs

structure HandBackInv (s : HandBack) : Prop where
  loop : LoopInv s.adv
  client : ClientInv s
  link : LinkInv s

theorem newHandBack_inv (now : UInt64) (connected : Bool) :
    HandBackInv (newHandBack now connected) := by
  refine ⟨⟨newAdv_armed connected, rfl, ⟨nofun, nofun⟩⟩, ?_, ?_⟩
  · exact clientInv_down (newStore_claimsLive now) nofun rfl
  · exact ⟨fun _ h => absurd rfl h, fun _ => rfl⟩

theorem step_handBackInv (h : HandBackInv s)
    (hloss : ClearLoss ⟨s, act, es, s'⟩)
    (hstep : handBackStep s act = some (s', es)) : HandBackInv s' := by
  have hm := HandBackMove.of_step hstep
  exact ⟨hm.loopInv h.loop, hm.clientInv h.client,
    hm.linkInv h.link h.client hloss⟩

theorem run_handBackInv {now : UInt64} {connected : Bool}
    {tr : List HandBackTrans}
    (h : Exec handBackStep (newHandBack now connected) tr s)
    (hloss : ∀ x ∈ tr, ClearLoss x) : HandBackInv s :=
  h.inv_of (G := ClearLoss) (newHandBack_inv now connected)
    (fun hi hx hs => step_handBackInv hi hx hs) hloss

-- == the way back

/-- The link is down, and everything known so far holds. -/
structure Down (s : HandBack) : Prop where
  inv : HandBackInv s
  down : s.adv.connected = false

theorem Down.step (h : Down s) (hstep : handBackStep s act = some (s', es))
    (hdown : s'.adv.connected = false) : Down s' := by
  refine ⟨step_handBackInv h.inv ?_ hstep, hdown⟩
  intro hup
  rw [show s.adv.connected = false from h.down] at hup
  cases hup

/-- A state the system can come to with the link still down, the phone's
calls, session and store as they are. -/
def Comes (s s' : HandBack) : Prop :=
  Reaches handBackStep s s' ∧ Down s' ∧ s'.phone = s.phone

theorem Comes.trans {s'' : HandBack} (h₁ : Comes s s') (h₂ : Comes s' s'') :
    Comes s s'' :=
  ⟨h₁.1.trans h₂.1, h₂.2.1, h₂.2.2.trans h₁.2.2⟩

theorem Down.comes (h : Down s) (hstep : handBackStep s act = some (s', es))
    (hdown : s'.adv.connected = false) (hp : s'.phone = s.phone) :
    Comes s s' :=
  ⟨Reaches.single hstep, h.step hstep hdown, hp⟩

/-- Every release of the hold gets its request sent. -/
theorem Down.sent (h : Down s) : ∃ s', Comes s s' ∧ s'.callback = s.callback
    ∧ s'.adv.sending = 0 := by
  generalize hn : s.adv.sending = n
  induction n generalizing s with
  | zero => exact ⟨s, ⟨Reaches.refl, h, rfl⟩, rfl, hn⟩
  | succ n ih =>
    have hstep : handBackStep s .send
        = some (s.withAdv s.adv.sendRearm, []) := by
      simp [handBackStep, hn]
    have hc := h.comes hstep h.down rfl
    have hn' : (s.withAdv s.adv.sendRearm).adv.sending = n := by
      show s.adv.sending - 1 = n
      omega
    obtain ⟨r, hr, hcb, hsent⟩ := ih hc.2.1 hn'
    exact ⟨r, hc.trans hr, hcb, hsent⟩

/-- The callback runs to its end. -/
theorem Down.returns (h : Down s) :
    ∃ s', Comes s s' ∧ s'.callback = .idle := by
  have hheld : ∀ {r : HandBack} {token : UInt64}, Down r →
      r.callback = .held token → ∃ r', Comes r r' ∧ r'.callback = .idle := by
    intro r token hr hc
    obtain ⟨q, hq, hqc, hsent⟩ := hr.sent
    rw [hc] at hqc
    obtain ⟨dropped, drops, heq⟩ := dropOnce_eq q token
    have hstep : handBackStep q (.callback []) = some (q.dropOnce token, [])
        := by
      simp [handBackStep, HandBack.callbackStep, hqc, hsent]
    rw [heq] at hstep
    exact ⟨_, hq.trans (hq.2.1.comes hstep hq.2.1.down rfl), rfl⟩
  have hanswered : ∀ {r : HandBack} {token : UInt64}, Down r →
      r.callback = .answered token →
      ∃ r', Comes r r' ∧ r'.callback = .idle := by
    intro r token hr hc
    have hstep : handBackStep r (.callback []) = some ({ r with
        adv := r.adv.holdAdvertisement (token != 0)
        callback := .held token }, []) := by
      simp [handBackStep, HandBack.callbackStep, hc]
    have hcomes := hr.comes hstep hr.down rfl
    obtain ⟨q, hq, hidle⟩ := hheld hcomes.2.1 rfl
    exact ⟨q, hcomes.trans hq, hidle⟩
  cases hc : s.callback with
  | idle => exact ⟨s, ⟨Reaches.refl, h, rfl⟩, hc⟩
  | held token => exact hheld h hc
  | answered token => exact hanswered h hc
  | emitted =>
    have hstep : handBackStep s
        (.callback s.phone.store.calls.sorted) = some ({ s with
          callback := .answered (s.phone.store.handsetAnswered
            s.phone.store.calls.sorted) }, []) := by
      simp [handBackStep, HandBack.callbackStep, hc,
        s.phone.store.calls.sorted_order]
    have hcomes := h.comes hstep h.down rfl
    obtain ⟨q, hq, hidle⟩ := hanswered hcomes.2.1 rfl
    exact ⟨q, hcomes.trans hq, hidle⟩

/-- The session handles what it has received. The induction is on its
queue; one notification and the callback after it leave the rest. -/
theorem Down.drains (queue : List (List PhoneCall)) :
    ∀ {s : HandBack}, Down s → s.phone.session = .up →
      s.phone.queue = queue →
      ∃ s', Reaches handBackStep s s' ∧ Down s' ∧ s'.phone.queue = []
        ∧ s'.callback = .idle := by
  induction queue with
  | nil =>
    intro s h _ hq
    obtain ⟨r, hr, hidle⟩ := h.returns
    exact ⟨r, hr.1, hr.2.1, by rw [hr.2.2, hq], hidle⟩
  | cons calls rest ih =>
    intro s h hup hq
    obtain ⟨r, hr, hidle⟩ := h.returns
    have hrup : r.phone.session = .up := by rw [hr.2.2, hup]
    have hrq : r.phone.queue = calls :: rest := by rw [hr.2.2, hq]
    have hstep : handBackStep r (.session .deliver) = some ({ r with
        phone := { r.phone.apply calls with queue := rest }
        callback := .emitted }, []) := by
      simp [handBackStep, HandBack.allows, phoneStep, HandBack.session,
        hidle, hrup, hrq]
    have hdown := hr.2.1.step hstep hr.2.1.down
    obtain ⟨q, hq, hqd, hempty, hqi⟩ :=
      ih hdown ((apply_frame _ _).trans hrup) rfl
    exact ⟨q, (hr.1.trans (Reaches.single hstep)).trans hq, hqd, hempty,
      hqi⟩

/-- Where the session has nothing left to do, the hold is clear; the
releases of it get sent. -/
theorem Down.freed (h : Down s)
    (hrest : s.phone.session = .up →
      s.phone.queue = [] ∧ s.callback = .idle) :
    ∃ s', Reaches handBackStep s s' ∧ Free s'.adv ∧ Running s'.adv := by
  obtain ⟨r, hr, hcb, hsent⟩ := h.sent
  have hinv := hr.2.1.inv
  have hclear := hinv.link.clear hr.2.1.down
  have hafter : r.holdAfter = r.adv.advertisementHold := by
    by_cases hup : s.phone.session = .up
    · obtain ⟨hq, hidle⟩ := hrest hup
      exact holdAfter_idle (by rw [hr.2.2, hq]) (hcb.trans hidle)
    · exact holdAfter_down (by rw [hr.2.2]; exact hup)
  rw [hafter] at hclear
  exact ⟨r, hr.1, ⟨hinv.loop.armed, hinv.loop.agrees, hr.2.1.down, hclear,
    hsent⟩, hinv.loop.running⟩

/-- What the loop can reach by itself, it can reach here. -/
theorem reaches_loop {a : Adv} (h : Reaches loopStep s.adv a) :
    Reaches handBackStep s (s.withAdv a) := by
  refine h.lift (f := s.withAdv) (g := .loop) ?_
  intro t b t' us hstep
  have hloop : loopStep (s.withAdv t).adv b = some (t', us) := hstep
  refine ⟨us, ?_⟩
  simp only [handBackStep, hloop]
  rfl

/-- In a run in which the link is lost only where the session's remaining
work leaves the hold clear, every state with the link down has a
continuation in which the advertisement is registered. -/
theorem link_comes_back (now : UInt64) (connected : Bool)
    {tr : List HandBackTrans} {s : HandBack}
    (hrun : Exec handBackStep (newHandBack now connected) tr s)
    (hloss : ∀ x ∈ tr, ClearLoss x) (hdown : s.adv.connected = false) :
    ∃ s', Reaches handBackStep s s' ∧ s'.adv.advertised = true := by
  have hd : Down s := ⟨run_handBackInv hrun hloss, hdown⟩
  have hfree : ∃ r, Reaches handBackStep s r ∧ Free r.adv
      ∧ Running r.adv := by
    by_cases hup : s.phone.session = .up
    · obtain ⟨r, hr, hrd, hq, hidle⟩ := hd.drains s.phone.queue hup rfl
      obtain ⟨r', hr', hf⟩ := hrd.freed (fun _ => ⟨hq, hidle⟩)
      exact ⟨r', hr.trans hr', hf⟩
    · exact hd.freed (fun h => absurd h hup)
  obtain ⟨r, hr, hf, hrunning⟩ := hfree
  obtain ⟨a, ha, hadv⟩ := reaches_advertised hf hrunning
  exact ⟨r.withAdv a, hr.trans (reaches_loop ha), hadv⟩

/-- Steps of the loop whose calls succeed. -/
def ticks (n : Nat) : List HandBackAct :=
  List.replicate n (.loop (.advance true))

/-- The advertisement comes up, the phone answers it, and a session
starts with no call on the phone. -/
def connects : List HandBackAct :=
  [HandBackAct.loop .start] ++ ticks 3
    ++ [HandBackAct.linkUp, .loop .takeSignal] ++ ticks 2
    ++ [HandBackAct.session .subscribe, .session .read]
    ++ List.replicate 3 (HandBackAct.callback [])

/-- A call comes in and is answered on the handset, which is notified and
lays the hold. -/
def handsetAnswers : List HandBackAct :=
  [.calls (.start 1 stateIncoming 0), .session .deliver,
    .callback [(1, ⟨1, stateIncoming, 0, 8, Identity.zero⟩)], .callback [],
    .callback [], .calls (.change 0 stateActive), .session .deliver,
    .callback [(1, ⟨1, stateActive, 0, 8, Identity.zero⟩)], .callback [],
    .callback []]

/-- The call ends while the link is still up, the drop having failed, and
the link is lost with the notification unhandled. -/
def endsBeforeLoss : List HandBackAct :=
  connects ++ handsetAnswers
    ++ [HandBackAct.drop false, .calls (.finish 0), .linkDown]

/-- The hold is still set when the link goes, but what the session has
received lifts it: the advertisement can be registered again. -/
theorem link_comes_back_drained :
    ∃ tr s, Exec handBackStep (newHandBack 7 false) tr s
      ∧ (∀ x ∈ tr, ClearLoss x) ∧ s.adv.connected = false
      ∧ s.phone.calls = [] ∧ s.adv.advertisementHold = true
      ∧ ∃ s', Reaches handBackStep s s' ∧ s'.adv.advertised = true := by
  obtain ⟨tr, s, hrun, hloss, hdown, hcalls, hon⟩ :=
    exec_of_decide handBackStep (newHandBack 7 false) endsBeforeLoss
      (fun tr s => (∀ x ∈ tr, ClearLoss x) ∧ s.adv.connected = false
        ∧ s.phone.calls = [] ∧ s.adv.advertisementHold = true)
      (by decide +kernel)
  exact ⟨tr, s, hrun, hloss, hdown, hcalls, hon,
    link_comes_back 7 false hrun hloss hdown⟩

-- == the trap

/-- The link is down and nobody is left to do anything about it. -/
structure Stuck (s : HandBack) : Prop where
  down : s.adv.connected = false
  unadvertised : s.adv.advertised = false
  waiting : s.adv.pc = .waiting
  signals : s.adv.signals = []
  request : s.adv.rearmRequest = false
  sent : s.adv.sending = 0
  session : s.phone.session = .down
  idle : s.callback = .idle

/-- A waiting loop with nothing to take does not move. -/
theorem Stuck.loop {act : LoopAct} {a : Adv} (h : Stuck s)
    (hm : LoopMove s.adv act a es) : False := by
  cases hm with
  | takeRearm _ hreq =>
    rw [h.request] at hreq
    cases hreq
  | nameLost rest _ hsig | sawConnect rest _ hsig
  | sawDisconnect rest _ hsig =>
    rw [h.signals] at hsig
    cases hsig
  | start hpc | startConnected hpc _ | resetSkipped hpc | rearmRead hpc
  | rearmSkipped _ _ hpc _ | rearmDecided _ hpc _
  | disconnectSkipped _ hpc _ | disconnectDecided _ hpc _
  | setAlready _ _ hpc _ | setInvoked _ hpc _ | setFailed _ hpc _
  | record _ _ hpc | leave _ _ hpc =>
    rw [h.waiting] at hpc
    cases hpc
  | readFailed _ hpc _ | startDown hpc _ =>
    rw [h.waiting] at hpc
    rcases hpc with hpc | hpc <;> cases hpc

/-- Calls may come and go on the phone, and be claimed; nothing else can
happen. -/
theorem Stuck.step (h : Stuck s)
    (hstep : handBackStep s act = some (s', es)) : Stuck s' := by
  cases HandBackMove.of_step hstep with
  | calls act phone _ hsession _ =>
    exact ⟨h.down, h.unadvertised, h.waiting, h.signals, h.request,
      h.sent, hsession.trans h.session, h.idle⟩
  | claim index token | dropped _ _ =>
    exact ⟨h.down, h.unadvertised, h.waiting, h.signals, h.request,
      h.sent, h.session, h.idle⟩
  | subscribe phone hup _ _ _ =>
    rw [h.down] at hup
    cases hup
  | read phone _ hsub _ _ =>
    rw [h.session] at hsub
    cases hsub
  | deliver phone calls rest hup _ _ _ _ _ =>
    rw [h.session] at hup
    cases hup
  | lose phone hup _ _ _ => exact absurd h.session hup
  | identity value callback hup _ _ =>
    rw [h.session] at hup
    cases hup
  | answered order hc _ | held order token hc | done order token _ _ hc _ =>
    rw [h.idle] at hc
    cases hc
  | send hpos =>
    rw [h.sent] at hpos
    exact absurd hpos (Nat.lt_irrefl 0)
  | lost _ _ hup =>
    rw [h.down] at hup
    cases hup
  | linkUp hadv =>
    rw [h.unadvertised] at hadv
    cases hadv
  | loop act adv us hl => exact absurd hl h.loop

/-- The call is handed back: the link is dropped under the hold, the
session ends, and so, later, does the call. -/
def handedBack : List HandBackAct :=
  connects ++ handsetAnswers
    ++ [HandBackAct.drop true, .loop .takeSignal] ++ ticks 1
    ++ [HandBackAct.session .lose, .calls (.finish 0)]

/-- After a call was handed back to the phone and has ended there, the
link is down for good: in every continuation, whatever calls the phone has
since, the advertisement is not registered. -/
theorem hold_traps_the_phone :
    ∃ tr s, Exec handBackStep (newHandBack 7 false) tr s
      ∧ s.adv.connected = false ∧ s.phone.calls = []
      ∧ ∀ s', Reaches handBackStep s s' → s'.adv.advertised = false := by
  obtain ⟨tr, s, hrun, ⟨h₁, h₂, h₃, h₄, h₅, h₆, h₇, h₈⟩, hcalls⟩ :=
    exec_of_decide handBackStep (newHandBack 7 false) handedBack
      (fun _ s => (s.adv.connected = false ∧ s.adv.advertised = false
        ∧ s.adv.pc = .waiting ∧ s.adv.signals = []
        ∧ s.adv.rearmRequest = false ∧ s.adv.sending = 0
        ∧ s.phone.session = .down ∧ s.callback = .idle)
        ∧ s.phone.calls = []) (by decide +kernel)
  refine ⟨tr, s, hrun, h₁, hcalls, ?_⟩
  rintro s' ⟨tr', hrun'⟩
  have hstuck : Stuck s' := hrun'.inv ⟨h₁, h₂, h₃, h₄, h₅, h₆, h₇, h₈⟩
    (fun h hs => h.step hs)
  exact hstuck.unadvertised

end Callbridge.Serve
