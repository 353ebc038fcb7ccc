/-
Media authorisation at the store: when `CurrentCallToken` answers, and why
the answer can be trusted.

The store lets media through for one call only, and in one of three ways:
this side originated it, it is still ringing, or it was claimed
(`authorised`). The third is where history matters: a claim in force was
made after the token it names was issued (`claim_since_issue`).
-/
import Callbridge.Gtbs.Proofs.Lifecycle

namespace Callbridge.Gtbs

open Lib Protocol

variable {s : Store} {now : UInt64} {tr t₁ t₂ : List StoreTrans} {i : UInt8}
  {call : Call} {t : UInt64}

-- == the two predicates

/-- May media be let through for this call? -/
def Store.authorised (s : Store) (call : Call) : Bool :=
  call.outgoing || call.state == stateIncoming
    || s.claimAt call.index == call.token

/-- `call` is the one live call, at index `i`. -/
def Store.Only (s : Store) (i : UInt8) (call : Call) : Prop :=
  ∀ j d, s.calls.lookup j = some d ↔ j = i ∧ d = call

theorem Store.Only.lookup (h : s.Only i call) :
    s.calls.lookup i = some call :=
  (h i call).mpr ⟨rfl, rfl⟩

/-- One live call, found. -/
theorem only_of_len (h : s.calls.len = 1) :
    ∃ i call, s.Only i call ∧ s.calls.sorted = [(i, call)] := by
  obtain ⟨i, call, hl, honly⟩ := s.calls.sorted_order.of_len_one h
  exact ⟨i, call, honly, hl⟩

theorem len_of_only (h : s.calls.sorted = [(i, call)]) : s.calls.len = 1 := by
  rw [← GoMap.sorted_length, h]
  rfl

/-- `CurrentCallToken` when one call is live. -/
theorem currentCallToken_of_only (h : s.calls.sorted = [(i, call)])
    (h0 : call.token ≠ 0) :
    s.currentCallToken
      = if s.authorised call then (call.token, true) else (0, false) := by
  unfold Store.currentCallToken
  have hneg : (!call.outgoing && call.state != stateIncoming
      && s.claimAt call.index != call.token) = !s.authorised call := by
    simp only [Store.authorised, bne, Bool.not_or]
  rw [if_neg (by rw [len_of_only h]; simp), h]
  show (if call.token = 0 then ((0, false) : UInt64 × Bool) else _) = _
  rw [if_neg h0, hneg]
  cases s.authorised call <;> rfl

/-- `CurrentCallToken` when no call, or more than one, is live. -/
theorem currentCallToken_of_len_ne (h : s.calls.len ≠ 1) :
    s.currentCallToken = (0, false) := by
  unfold Store.currentCallToken
  rw [if_pos h]

/-- What an answer says about the calls. -/
theorem currentCallToken_only (ht : s.currentCallToken = (t, true)) :
    ∃ i call, s.Only i call ∧ call.token = t ∧ t ≠ 0
      ∧ s.authorised call = true := by
  have hlen : s.calls.len = 1 := by
    by_contra hne
    rw [currentCallToken_of_len_ne hne] at ht
    cases ht
  obtain ⟨i, call, honly, hsorted⟩ := only_of_len hlen
  have h0 : call.token ≠ 0 := by
    intro h0
    unfold Store.currentCallToken at ht
    rw [if_neg (by rw [hlen]; simp), hsorted] at ht
    simp [h0] at ht
  rw [currentCallToken_of_only hsorted h0] at ht
  split at ht
  case isFalse => cases ht
  case isTrue hauth =>
      cases ht
      exact ⟨i, call, honly, rfl, h0, hauth⟩

/-- The three ways a call is authorised. -/
theorem authorised_cases (h0 : call.token ≠ 0) (h : s.authorised call = true) :
    call.outgoing = true ∨ call.state = stateIncoming
      ∨ s.claimed.lookup call.index = some call.token := by
  unfold Store.authorised at h
  rw [Bool.or_eq_true, Bool.or_eq_true, beq_iff_eq, beq_iff_eq] at h
  rcases h with (hout | hinc) | hclaim
  · exact Or.inl hout
  · exact Or.inr (Or.inl hinc)
  · right; right
    unfold Store.claimAt at hclaim
    cases hl : s.claimed.lookup call.index with
    | none =>
      rw [hl] at hclaim
      exact absurd hclaim.symm h0
    | some u =>
      rw [hl] at hclaim
      rw [show u = call.token from hclaim]

/-- A call is the handset's exactly when it is not authorised. -/
theorem handsetCall_eq (h0 : call.token ≠ 0) :
    s.handsetCall call = !s.authorised call := by
  unfold Store.handsetCall Store.authorised
  have h0' : (call.token == 0) = false := by simpa using h0
  cases call.outgoing <;> cases call.state == stateIncoming <;>
    cases h : s.claimAt call.index == call.token <;> simp_all

/-- `HandsetAnswered` when one call is live, whatever the visiting
order. -/
theorem handsetAnswered_of_only (h0 : call.token ≠ 0) :
    s.handsetAnswered [(i, call)]
      = if s.authorised call then 0 else call.token := by
  unfold Store.handsetAnswered
  simp only [List.find?_cons, List.find?_nil, handsetCall_eq h0]
  cases s.authorised call <;> rfl

/-- In a state with one live call of nonzero token the two predicates are
complements. -/
theorem answers_complement {n : Nat} (hinv : Inv s n)
    (hlen : s.calls.len = 1) {order : List (UInt8 × Call)}
    (ho : s.calls.Order order) :
    (∃ t, s.currentCallToken = (t, true)) ↔ s.handsetAnswered order = 0 := by
  obtain ⟨i, call, rfl, honly⟩ := ho.of_len_one hlen
  obtain ⟨i', call', honly', hsorted⟩ := only_of_len hlen
  obtain ⟨rfl, rfl⟩ := (honly' i call).mp ((honly i call).mpr ⟨rfl, rfl⟩)
  have h0 := hinv.token_ne_zero honly'.lookup
  rw [currentCallToken_of_only hsorted h0, handsetAnswered_of_only h0]
  cases s.authorised call with
  | true => simp
  | false => simp [h0]

-- == the history

/-- A claim found after a method call was there before it, or is what the
call was for. -/
theorem claimed_exec {op : StoreOp}
    (h : (s.exec op).claimed.lookup i = some t) :
    s.claimed.lookup i = some t ∨ op = .claimCall i t := by
  cases op with
  | apply value =>
    cases hp : parseCallState value with
    | error e =>
      simp only [Store.exec, apply_error hp] at h
      exact Or.inl h
    | ok parsed =>
      simp only [Store.exec, apply_ok hp] at h
      exact Or.inl ((claimed_replaceCalls s parsed).mp h).1
  | applyIncomingCall value =>
    obtain ⟨ids, seq, hs⟩ := applyIncomingCall_frame s value
    simp only [Store.exec, hs] at h
    exact Or.inl h
  | claimCall j u =>
    simp only [Store.exec] at h
    rcases claimCall_cases s j u with hs | ⟨c, -, -, -, hs⟩
    · rw [hs] at h
      exact Or.inl h
    · rw [hs] at h
      rw [GoMap.lookup_insert] at h
      split at h
      case isTrue hij =>
          injection h with h
          subst h hij
          exact Or.inr rfl
      case isFalse => exact Or.inl h

/-- A claim that a stretch of a run brought about was made in it. -/
theorem claimed_during {s₀ : Store} (h : Exec storeStep s₀ tr s)
    (h₀ : s₀.claimed.lookup i ≠ some t) (ht : s.claimed.lookup i = some t) :
    ∃ y ∈ tr, y.act = .claimCall i t := by
  induction h with
  | nil => exact absurd ht h₀
  | @snoc tr s s' op es hrun hstep ih =>
    rw [storeStep_eq hstep] at ht
    rcases claimed_exec ht with hold | rfl
    · obtain ⟨y, hy, hact⟩ := ih hold
      exact ⟨y, List.mem_append_left _ hy, hact⟩
    · exact ⟨_, List.mem_append_right _ (List.mem_singleton_self _), rfl⟩

/-- A claim in force was made after the token it names was issued. -/
theorem claim_since_issue {x : StoreTrans}
    (h : Exec storeStep (newStore now) (t₁ ++ x :: t₂) s)
    (hb : issuedIn (t₁ ++ x :: t₂) ≤ 2 ^ 64 - 2) (hx : Issues x i t)
    (ht : s.claimed.lookup i = some t) :
    ∃ y ∈ t₂, y.act = .claimCall i t := by
  obtain ⟨-, hstep, hrest⟩ := h.split
  have hinv := (prefix_inv h hb).1
  -- the index was not live before the issue, so it was not claimed either
  have hpre : x.pre.claimed.lookup i = none := by
    cases hl : x.pre.claimed.lookup i with
    | none => rfl
    | some u =>
      obtain ⟨c, hc, -⟩ := hinv.claim_live hl
      rw [hx.1] at hc
      cases hc
  refine claimed_during hrest ?_ ht
  intro hpost
  rw [storeStep_eq hstep] at hpost
  rcases claimed_exec hpost with hold | hact
  · rw [hpre] at hold
    cases hold
  · -- a claim does not make an index live
    obtain ⟨c, hc, -⟩ := hx.2
    rw [storeStep_eq hstep, hact] at hc
    simp only [Store.exec, claimCall_calls] at hc
    rw [hx.1] at hc
    cases hc

/-- The token of the live call at `i` was issued in the run, and wherever
it was, a claim of the index under that token came after. -/
def ClaimedSinceIssue (tr : List StoreTrans) (i : UInt8) (t : UInt64) :
    Prop :=
  (∃ t₁ x t₂, tr = t₁ ++ x :: t₂ ∧ Issues x i t)
    ∧ ∀ t₁ x t₂, tr = t₁ ++ x :: t₂ → Issues x i t →
        ∃ y ∈ t₂, y.act = .claimCall i t

/-- What an answer of `CurrentCallToken` certifies. -/
def Certified (tr : List StoreTrans) (s : Store) (t : UInt64) : Prop :=
  ∃ i call, s.Only i call ∧ call.token = t ∧ t ≠ 0
    ∧ (call.outgoing = true ∨ call.state = stateIncoming
        ∨ ClaimedSinceIssue tr i t)

/-- Whenever the store lets media through for a token, the token is
certified. -/
theorem currentCallToken_certified (h : Exec storeStep (newStore now) tr s)
    (hb : issuedIn tr ≤ 2 ^ 64 - 2) (ht : s.currentCallToken = (t, true)) :
    Certified tr s t := by
  have hinv := run_inv h hb
  obtain ⟨i, call, honly, rfl, h0, hauth⟩ := currentCallToken_only ht
  refine ⟨i, call, honly, rfl, h0, ?_⟩
  rcases authorised_cases h0 hauth with hout | hinc | hclaim
  · exact Or.inl hout
  · exact Or.inr (Or.inl hinc)
  · right; right
    rw [hinv.index_eq honly.lookup] at hclaim
    refine ⟨live_issued h honly.lookup, ?_⟩
    intro t₁ x t₂ htr hx
    subst htr
    exact claim_since_issue h hb hx hclaim

end Callbridge.Gtbs
