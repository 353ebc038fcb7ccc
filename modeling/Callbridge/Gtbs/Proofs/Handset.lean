/-
Calls the handset answered, over the values a store is going to apply.
`quiet` says that `HandsetAnswered` finds none, in whatever order it
visits the calls. Claims only ever help: a store that agrees with another
on its calls and has at least its claims (`MoreClaims`) still does after
any values, and is quiet when the other is.
-/
import Callbridge.Gtbs.Phone
import Callbridge.Gtbs.Proofs.StoreInv

namespace Callbridge.Gtbs

open Lib Protocol

variable {s s' : Store}

-- == no handset call

/-- No live call was answered by the handset. -/
def Store.quiet (s : Store) : Bool :=
  s.handsetAnswered s.calls.sorted == 0

theorem token_of_handsetCall {call : Call} (h : s.handsetCall call = true) :
    call.token ≠ 0 := by
  intro h0
  unfold Store.handsetCall at h
  simp [h0] at h

/-- No call was answered on the handset. -/
theorem handsetAnswered_eq_zero {order : List (UInt8 × Call)}
    (ho : s.calls.Order order) :
    s.handsetAnswered order = 0
      ↔ ∀ i call, s.calls.lookup i = some call →
          s.handsetCall call = false := by
  unfold Store.handsetAnswered
  constructor
  · intro h i call hl
    rw [← Bool.not_eq_true]
    intro hcall
    split at h
    case h_1 e he =>
      have hfound : s.handsetCall e.2 = true := by
        simpa using List.find?_some he
      exact token_of_handsetCall hfound h
    case h_2 hnone =>
      exact List.find?_eq_none.mp hnone _ (ho.mem_iff.mpr hl) hcall
  · intro h
    split
    case h_1 e he =>
      have hl := ho.mem_iff.mp (List.mem_of_find?_eq_some he)
      have hcall := List.find?_some he
      rw [h _ _ hl] at hcall
      cases hcall
    case h_2 => rfl

theorem quiet_iff :
    s.quiet = true ↔ ∀ i call, s.calls.lookup i = some call →
      s.handsetCall call = false := by
  unfold Store.quiet
  rw [beq_iff_eq]
  exact handsetAnswered_eq_zero s.calls.sorted_order

/-- The visiting order decides which token is answered, not whether one
is. -/
theorem handsetAnswered_bne {order : List (UInt8 × Call)}
    (ho : s.calls.Order order) :
    (s.handsetAnswered order != 0) = !s.quiet := by
  unfold Store.quiet bne
  rw [Bool.eq_iff_iff, Bool.not_eq_true', Bool.not_eq_true',
    Bool.eq_false_iff, Bool.eq_false_iff, ne_eq, ne_eq, beq_iff_eq,
    beq_iff_eq, handsetAnswered_eq_zero ho,
    handsetAnswered_eq_zero s.calls.sorted_order]

-- == more claims

/-- Every claim names the live call at its index. -/
def ClaimsLive (s : Store) : Prop :=
  ∀ i t, s.claimed.lookup i = some t →
    ∃ c, s.calls.lookup i = some c ∧ c.token = t

theorem newStore_claimsLive (now : UInt64) : ClaimsLive (newStore now) :=
  fun _ _ h => (newStore_inv now).claim_live h

/-- Every operation keeps claims to live calls. -/
theorem exec_claimsLive (h : ClaimsLive s) (op : StoreOp) :
    ClaimsLive (s.exec op) := by
  intro i t ht
  cases op with
  | apply value =>
    cases hp : parseCallState value with
    | error e =>
      simp only [Store.exec, apply_error hp] at ht ⊢
      exact h i t ht
    | ok parsed =>
      simp only [Store.exec, apply_ok hp] at ht ⊢
      exact ((claimed_replaceCalls s parsed).mp ht).2
  | applyIncomingCall value =>
    obtain ⟨ids, seq, hs⟩ := applyIncomingCall_frame s value
    simp only [Store.exec, hs] at ht ⊢
    exact h i t ht
  | claimCall j u =>
    simp only [Store.exec] at ht ⊢
    rcases claimCall_cases s j u with hs | ⟨c, hc, hct, -, hs⟩
    · rw [hs] at ht ⊢
      exact h i t ht
    · rw [hs] at ht ⊢
      rw [GoMap.lookup_insert] at ht
      split at ht
      case isTrue hji =>
          injection ht with ht
          subst ht hji
          exact ⟨c, hc, hct⟩
      case isFalse => exact h i t ht

/-- The two stores have the same calls and will number new ones alike, and
the claims of the first stand in the second. -/
structure MoreClaims (s s' : Store) : Prop where
  calls : s'.calls = s.calls
  seed : s'.seed = s.seed
  tokens : s'.tokens = s.tokens
  claimed : ∀ i t, s.claimed.lookup i = some t →
    s'.claimed.lookup i = some t

/-- A claim adds a claim at most. -/
theorem moreClaims_claim (h : ClaimsLive s) (i : UInt8) (t : UInt64) :
    MoreClaims s (s.claimCall i t) := by
  rcases claimCall_cases s i t with hs | ⟨c, hc, hct, -, hs⟩
  · rw [hs]
    exact ⟨rfl, rfl, rfl, fun _ _ h => h⟩
  · rw [hs]
    refine ⟨rfl, rfl, rfl, ?_⟩
    intro j u hj
    rw [GoMap.lookup_insert]
    split
    case isFalse => exact hj
    case isTrue hji =>
      -- a claim that was there names the same call
      subst hji
      obtain ⟨d, hd, rfl⟩ := h j u hj
      rw [hc] at hd
      cases hd
      rw [hct]

theorem moreClaims_identity (s : Store) (value : Bytes) :
    MoreClaims s (s.applyIncomingCall value).2 := by
  obtain ⟨ids, seq, hs⟩ := applyIncomingCall_frame s value
  rw [hs]
  exact ⟨rfl, rfl, rfl, fun _ _ h => h⟩

/-- The loop of `Apply` reads nothing but the calls and the counter. -/
theorem foldl_assignToken_congr (parsed : List Call) :
    ∀ (next : GoMap UInt8 Call) {s s' : Store}, s'.calls = s.calls →
      s'.seed = s.seed → s'.tokens = s.tokens →
      (parsed.foldl assignToken (next, s')).1
          = (parsed.foldl assignToken (next, s)).1
        ∧ (parsed.foldl assignToken (next, s')).2.seed
          = (parsed.foldl assignToken (next, s)).2.seed
        ∧ (parsed.foldl assignToken (next, s')).2.tokens
          = (parsed.foldl assignToken (next, s)).2.tokens := by
  induction parsed with
  | nil => exact fun next _ _ _ hseed htok => ⟨rfl, hseed, htok⟩
  | cons call rest ih =>
    intro next s s' hcalls hseed htok
    rw [List.foldl_cons, List.foldl_cons]
    cases hl : s.calls.lookup call.index with
    | some prior =>
      rw [assignToken_live hl, assignToken_live (by rw [hcalls]; exact hl)]
      exact ih _ hcalls hseed htok
    | none =>
      rw [assignToken_absent hl,
        assignToken_absent (by rw [hcalls]; exact hl), hseed, htok]
      exact ih _ hcalls rfl rfl

/-- A value keeps two such stores in step. -/
theorem MoreClaims.apply (h : MoreClaims s s') (value : Bytes) :
    MoreClaims (s.apply value).2 (s'.apply value).2 := by
  cases hp : parseCallState value with
  | error e =>
    rw [apply_error hp, apply_error hp]
    exact h
  | ok parsed =>
    rw [apply_ok hp, apply_ok hp]
    obtain ⟨hcalls, hseed, htok⟩ :=
      foldl_assignToken_congr parsed ∅ h.calls h.seed h.tokens
    refine ⟨hcalls, hseed, htok, ?_⟩
    intro i t ht
    rw [claimed_replaceCalls] at ht ⊢
    obtain ⟨hc, c, hl, hct⟩ := ht
    refine ⟨h.claimed i t hc, c, ?_, hct⟩
    rw [show (s'.replaceCalls parsed).calls
      = (s.replaceCalls parsed).calls from hcalls]
    exact hl

/-- A quiet store stays quiet under more claims. -/
theorem MoreClaims.quiet (h : MoreClaims s s') (hq : s.quiet = true) :
    s'.quiet = true := by
  rw [quiet_iff] at hq ⊢
  intro i call hl
  rw [h.calls] at hl
  rw [← Bool.not_eq_true]
  intro hcall
  have hs := hq i call hl
  unfold Store.handsetCall at hs hcall
  obtain ⟨hkind, hclaim⟩ := Bool.and_eq_true_iff.mp hcall
  rw [hkind, Bool.true_and, bne_eq_false_iff_eq] at hs
  rw [bne_iff_ne] at hclaim
  have h0 : call.token ≠ 0 := token_of_handsetCall hcall
  -- the claim that stands in the first store stands in the second
  refine hclaim ?_
  unfold Store.claimAt at hs ⊢
  cases hc : s.claimed.lookup call.index with
  | none =>
    rw [hc] at hs
    exact absurd hs.symm h0
  | some t =>
    rw [hc] at hs
    rw [h.claimed _ _ hc]
    exact hs

-- == draining

/-- The store once it has applied these values. -/
def Store.drained (s : Store) (queue : List (List PhoneCall)) : Store :=
  queue.foldl (fun s calls => (s.apply (encodeCalls calls)).2) s

theorem MoreClaims.drained (h : MoreClaims s s')
    (queue : List (List PhoneCall)) :
    MoreClaims (s.drained queue) (s'.drained queue) := by
  induction queue generalizing s s' with
  | nil => exact h
  | cons calls rest ih => exact ih (h.apply _)

end Callbridge.Gtbs
