/-
What a published call control token stands for. The broker half of the
argument is that a token in a descriptor was the answer of a poll made
after the pair was reserved (`token_since`); the store half, that such an
answer certifies a call (`Gtbs.currentCallToken_certified`), is then read
at the moment of that poll.
-/
import Callbridge.Serve.Command
import Callbridge.Gtbs.Proofs.Authorise
import Callbridge.Bluez.Proofs.Reservation

namespace Callbridge.Serve

open Lib Gtbs Bluez

variable {s s' : Media} {a : MediaAct} {es : List Event}

abbrev MediaTrans := Lib.Trans Media MediaAct Event

-- == projections

/-- The store method a transition runs, as a transition of the store. -/
def toStore (x : MediaTrans) : Option StoreTrans :=
  match x.act with
  | .store op => some ⟨x.pre.store, op, [], x.post.store⟩
  | _ => none

/-- The region a transition runs, as a transition of the broker. -/
def toBroker (x : MediaTrans) : Option WorldTrans :=
  match x.pre.region x.act with
  | some act => some ⟨x.pre.world, act, x.out, x.post.world⟩
  | none => none

/-- What happened to the store. -/
def storeTrace (tr : List MediaTrans) : List StoreTrans :=
  tr.filterMap toStore

/-- A step runs a method of the store or a region of the broker. -/
theorem mediaStep_cases (h : mediaStep s a = some (s', es)) :
    (∃ op, a = .store op ∧ s' = { s with store := s.store.exec op }
        ∧ es = [])
      ∨ ∃ act w, s.region a = some act ∧ step s.world act = some (w, es)
          ∧ s' = { s with world := w } := by
  cases a with
  | store op =>
    cases h
    exact Or.inl ⟨op, rfl, rfl, rfl⟩
  | broker act | callToken id expired =>
    refine Or.inr ?_
    simp only [mediaStep] at h
    split at h
    case h_1 => cases h
    case h_2 act' hr =>
      split at h
      case h_1 => cases h
      case h_2 w es' hs =>
        cases h
        exact ⟨act', w, hr, hs, rfl⟩

section Runs

variable {now : UInt64} {device : Bytes} {wait : Nat}
  {tr : List MediaTrans} {id : AcquireId} {q : Acquisition}
  {sink source : PendingTransport} {token : UInt64}

/-- The store sees a run of its own. -/
theorem store_run {s₀ : Media} (h : Exec mediaStep s₀ tr s) :
    Exec storeStep s₀.store (storeTrace tr) s.store := by
  refine h.project (v := Media.store) ?_ ?_
  · intro x hx hf
    rcases mediaStep_cases hx with ⟨op, hact, -, -⟩ | ⟨act, w, -, -, hs⟩
    · unfold toStore at hf
      rw [hact] at hf
      cases hf
    · rw [hs]
  · intro x y hx hf
    rcases mediaStep_cases hx with ⟨op, hact, hs, -⟩ | ⟨act, w, hr, -, -⟩
    · unfold toStore at hf
      rw [hact] at hf
      cases hf
      refine ⟨rfl, rfl, ?_⟩
      rw [hs]
      rfl
    · unfold toStore at hf
      split at hf
      case h_1 op hact =>
        rw [hact] at hr
        cases hr
      case h_2 => cases hf

/-- So does the broker. -/
theorem broker_run {s₀ : Media} (h : Exec mediaStep s₀ tr s) :
    Exec step s₀.world (tr.filterMap toBroker) s.world := by
  refine h.project (v := Media.world) ?_ ?_
  · intro x hx hf
    rcases mediaStep_cases hx with ⟨op, -, hs, -⟩ | ⟨act, w, hr, -, -⟩
    · rw [hs]
    · unfold toBroker at hf
      rw [hr] at hf
      cases hf
  · intro x y hx hf
    rcases mediaStep_cases hx with ⟨op, hact, -, -⟩ | ⟨act, w, hr, hw, hs⟩
    · unfold toBroker at hf
      rw [hact] at hf
      cases hf
    · unfold toBroker at hf
      rw [hr] at hf
      cases hf
      refine ⟨rfl, rfl, ?_⟩
      rw [hs]
      exact hw

-- == the provider

/-- A call that waits on a pair reserved it in the run. -/
theorem reserved_since (h : Exec mediaStep (newMedia now device wait) tr s)
    (hw : s.world.Waits id q sink source) :
    ∃ x ∈ tr, Event.reserved id sink source ∈ x.out := by
  obtain ⟨t₁, y, t₂, htr, hres, -⟩ := waits_since (broker_run h) hw
  have hy : y ∈ tr.filterMap toBroker := by
    rw [htr]
    exact List.mem_append_right _ List.mem_cons_self
  obtain ⟨x, hx, hf⟩ := List.mem_filterMap.mp hy
  refine ⟨x, hx, ?_⟩
  unfold toBroker at hf
  split at hf
  case h_1 =>
    cases hf
    exact hres
  case h_2 => cases hf

/-- The token a call goes on with was the answer of `CurrentCallToken` at
some moment after the pair was reserved. -/
theorem token_since (h : Exec mediaStep (newMedia now device wait) tr s)
    (hc : s.world.acquires[id]?
      = some (.correlated q sink source token true)) :
    ∃ (t₁ : List MediaTrans) (x : MediaTrans) (t₂ : List MediaTrans)
      (z : MediaTrans) (t₃ : List MediaTrans),
      tr = t₁ ++ x :: (t₂ ++ z :: t₃)
      ∧ Event.reserved id sink source ∈ x.out ∧ token ≠ 0
      ∧ z.pre.store.currentCallToken = (token, true) := by
  induction h with
  | nil => cases hc
  | @snoc tr s s' a es hrun hstep ih =>
    have hlater : s.world.acquires[id]?
          = some (.correlated q sink source token true) →
        ∃ (t₁ : List MediaTrans) (x : MediaTrans) (t₂ : List MediaTrans)
          (z : MediaTrans) (t₃ : List MediaTrans),
          tr ++ [⟨s, a, es, s'⟩]
            = t₁ ++ x :: (t₂ ++ z :: t₃)
          ∧ Event.reserved id sink source ∈ x.out ∧ token ≠ 0
          ∧ z.pre.store.currentCallToken = (token, true) := by
      intro hc
      obtain ⟨t₁, x, t₂, z, t₃, rfl, hx, h0, hz⟩ := ih hc
      refine ⟨t₁, x, t₂, z, t₃ ++ [⟨s, a, es, s'⟩], ?_, hx, h0, hz⟩
      simp only [List.append_assoc, List.cons_append]
    rcases mediaStep_cases hstep with ⟨op, -, rfl, -⟩
      | ⟨act, w, hr, hw, rfl⟩
    · exact hlater hc
    · have hm := ReserveMove.of_step (run_configInv (broker_run hrun)) hw
      rcases hm.correlated_before hc with hc
        | ⟨hres, answer, expired, rfl, htoken⟩
      · exact hlater hc
      · -- the poll that was just answered
        have hanswer : answer = some s.store.currentCallToken := by
          cases a with
          | store op => cases hr
          | broker act =>
            simp only [Media.region] at hr
            split at hr
            case isTrue => cases hr
            case isFalse hpolls =>
              cases hr
              exact absurd rfl hpolls
          | callToken id' expired' => cases hr; rfl
        subst hanswer
        unfold correlatedToken at htoken
        simp only at htoken
        split at htoken
        case isFalse => cases htoken
        case isTrue hok =>
          cases htoken
          obtain ⟨hcorr, h0⟩ := Bool.and_eq_true_iff.mp hok
          obtain ⟨x, hx, hxres⟩ := reserved_since hrun
            (⟨_, hres, rfl⟩ : s.world.Waits id q sink source)
          obtain ⟨t₁, t₂, rfl⟩ := List.append_of_mem hx
          refine ⟨t₁, x, t₂, ⟨s, a, es, _⟩, [],
            by rw [List.append_assoc, List.cons_append], hxres,
            by simpa using h0, Prod.ext rfl hcorr⟩

/-- Whenever the store lets media through for a token, the token is
certified; with one live call the store does so exactly when the handset
has not answered it; and over every run of the store together with the
broker, a pair is published under a nonzero token that `CurrentCallToken`
gave, and that was certified, after the pair was reserved. -/
theorem media_authorisation :
    (∀ now tr s, Exec storeStep (newStore now) tr s →
        issuedIn tr < 2 ^ 64 - 2 →
        (∀ t, s.currentCallToken = (t, true) → Certified tr s t)
          ∧ (s.calls.len = 1 → ∀ order, s.calls.Order order →
              ((∃ t, s.currentCallToken = (t, true))
                ↔ s.handsetAnswered order = 0)))
      ∧ ∀ now device wait tr s,
          Exec mediaStep (newMedia now device wait) tr s →
          issuedIn (storeTrace tr) < 2 ^ 64 - 2 →
          ∀ t (y : MediaTrans) t' id sink source d d' ok,
            tr = t ++ y :: t' →
            Event.publishPair id sink source d d' ok ∈ y.out →
            d.callControlToken ≠ 0
              ∧ d'.callControlToken = d.callControlToken
              ∧ ∃ (t₁ : List MediaTrans) (x : MediaTrans)
                  (t₂ : List MediaTrans) (z : MediaTrans)
                  (t₃ : List MediaTrans),
                  t = t₁ ++ x :: (t₂ ++ z :: t₃)
                ∧ Event.reserved id sink source ∈ x.out
                ∧ z.pre.store.currentCallToken = (d.callControlToken, true)
                ∧ Certified (storeTrace (t₁ ++ x :: t₂)) z.pre.store
                    d.callControlToken := by
  refine ⟨?_, ?_⟩
  · intro now tr s h hb
    have hb' := Nat.le_of_lt hb
    refine ⟨fun t ht => currentCallToken_certified h hb' ht, ?_⟩
    intro hlen order ho
    exact answers_complement (run_inv h hb') hlen ho
  · intro now device wait tr s h hb t y t' id sink source d d' ok htr he
    subst htr
    obtain ⟨h₁, hy, -⟩ := h.split
    rcases mediaStep_cases hy with ⟨op, -, -, hout⟩ | ⟨act, w, -, hw, -⟩
    · rw [hout] at he
      cases he
    · have hm := ReserveMove.of_step (run_configInv (broker_run h₁)) hw
      obtain ⟨q, token, corr, hid, -, hd, hd', hreq⟩ :=
        hm.published (List.mem_filter.mpr ⟨he, rfl⟩)
      have hcorr : corr = true := by
        refine hreq ((broker_run h₁).inv
          (P := fun w => w.broker.requireToken = true) rfl ?_)
        intro w act w' es hw hs
        rw [requireToken_step hs]
        exact hw
      subst hcorr hd
      obtain ⟨t₁, x, t₂, z, t₃, rfl, hx, h0, hz⟩ := token_since h₁ hid
      refine ⟨h0, hd', t₁, x, t₂, z, t₃, rfl, hx, hz, ?_⟩
      have hz₁ : Exec mediaStep (newMedia now device wait) (t₁ ++ x :: t₂)
          z.pre := by
        have h' : Exec mediaStep (newMedia now device wait)
            ((t₁ ++ x :: t₂) ++ z :: t₃) y.pre := by
          simpa using h₁
        exact h'.split.1
      refine currentCallToken_certified (store_run hz₁) ?_ hz
      -- no more tokens up to the poll than in the whole run
      have hcut : storeTrace ((t₁ ++ x :: (t₂ ++ z :: t₃)) ++ y :: t')
          = storeTrace (t₁ ++ x :: t₂)
            ++ storeTrace (z :: t₃ ++ y :: t') := by
        unfold storeTrace
        rw [← List.filterMap_append]
        simp
      rw [hcut, issuedIn_append] at hb
      omega

end Runs

/-- A ringing call that is claimed and answered, and the pair its media
goes out on. -/
def answeredHere : List MediaAct :=
  MediaAct.store (.apply [1, 0, 0])
    :: (Action.connect sampleDevice
      :: configurePair (samplePath 1) (samplePath 2)
      ++ reserveLinked 0 (samplePath 1) (samplePath 2) 1 0).map .broker
    ++ [MediaAct.store (.claimCall 1 8), .store (.apply [1, 3, 0]),
      .callToken 0 false,
      .broker (.acquire 0 (.publish (some (1, 0)) (some (1, 0)) (some 9)
        0))]

/-- A call is answered here, and its pair published. -/
theorem media_authorisation_answered :
    ∃ tr s, Exec mediaStep (newMedia 7 sampleDevice 1) tr s
      ∧ tr.map Trans.act = answeredHere
      ∧ s.world.broker.acquired = {samplePath 1, samplePath 2}
      ∧ Certified (storeTrace tr) s.store 8
      ∧ ∀ t (y : MediaTrans) t' id sink source d d' ok,
          tr = t ++ y :: t' →
          Event.publishPair id sink source d d' ok ∈ y.out →
          d.callControlToken ≠ 0
            ∧ d'.callControlToken = d.callControlToken
            ∧ ∃ (t₁ : List MediaTrans) (x : MediaTrans) (t₂ : List MediaTrans)
                (z : MediaTrans) (t₃ : List MediaTrans),
                t = t₁ ++ x :: (t₂ ++ z :: t₃)
              ∧ Event.reserved id sink source ∈ x.out
              ∧ z.pre.store.currentCallToken = (d.callControlToken, true)
              ∧ Certified (storeTrace (t₁ ++ x :: t₂)) z.pre.store
                  d.callControlToken := by
  obtain ⟨tr, s, hrun, hact, hacq, htoken, hb⟩ := exec_of_decide mediaStep
      (newMedia 7 sampleDevice 1) answeredHere
      (fun tr s => tr.map Trans.act = answeredHere
        ∧ s.world.broker.acquired = {samplePath 1, samplePath 2}
        ∧ s.store.currentCallToken = (8, true)
        ∧ issuedIn (storeTrace tr) < 2 ^ 64 - 2) (by decide +kernel)
  exact ⟨tr, s, hrun, hact, hacq,
    (media_authorisation.1 7 _ _ (store_run hrun) hb).1 8 htoken,
    media_authorisation.2 7 sampleDevice 1 tr s hrun hb⟩

end Callbridge.Serve
