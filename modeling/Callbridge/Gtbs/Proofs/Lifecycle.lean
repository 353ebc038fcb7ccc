/-
The call token lifecycle, stated over whole runs of the store. The tokens
alive before a transition rank at most as high as the tokens issued by
then, and the token a new index receives ranks above them
(`issued_fresh`). Between two applied values nothing else moves the call
map (`calls_between`).
-/
import Callbridge.Gtbs.Proofs.StoreInv

namespace Callbridge.Gtbs

open Lib Protocol

variable {s : Store} {now : UInt64} {tr t₁ t₂ : List StoreTrans}
  {x : StoreTrans} {i : UInt8}

/-- A transition that is a successful `Apply`. -/
def AppliedOk (x : StoreTrans) : Prop :=
  ∃ value snapshot, x.act = .apply value
    ∧ (x.pre.apply value).1 = .ok snapshot

/-- Whatever is not a successful `Apply` leaves the call map. -/
theorem calls_of_not_applied
    (hx : storeStep x.pre x.act = some (x.post, x.out)) (h : ¬ AppliedOk x) :
    x.post.calls = x.pre.calls := by
  rw [storeStep_eq hx]
  rcases exec_calls x.pre x.act
    with hsame | ⟨value, parsed, hact, hp, -⟩
  · exact hsame
  · apply absurd _ h
    exact ⟨value, _, hact, by rw [apply_ok hp]⟩

/-- A stretch of a run without a successful `Apply` leaves the call
map. -/
theorem calls_between {s₀ : Store} (h : Exec storeStep s₀ tr s)
    (hno : ∀ z ∈ tr, ¬ AppliedOk z) : s.calls = s₀.calls := by
  induction h with
  | nil => rfl
  | @snoc tr s s' op es hrun hstep ih =>
    have hlast := hno ⟨s, op, es, s'⟩
      (List.mem_append_right _ (List.mem_singleton_self _))
    have hcalls : s'.calls = s.calls :=
      calls_of_not_applied (x := ⟨s, op, es, s'⟩) hstep hlast
    rw [hcalls]
    exact ih fun z hz => hno z (List.mem_append_left _ hz)

/-- A run's prefix, with its own token count. -/
theorem prefix_inv (h : Exec storeStep (newStore now) (t₁ ++ x :: t₂) s)
    (hb : issuedIn (t₁ ++ x :: t₂) ≤ 2 ^ 64 - 2) :
    Inv x.pre (issuedIn t₁)
      ∧ Inv x.post (issuedIn t₁ + x.pre.tokensIssued x.act) := by
  obtain ⟨hrun, hstep, -⟩ := h.split
  rw [issuedIn_append, issuedIn_cons] at hb
  have hpre := run_inv hrun (by omega)
  refine ⟨hpre, ?_⟩
  rw [storeStep_eq hstep]
  exact exec_inv hpre (by omega)

/-- A token handed to an index that was not live ranks above every token
issued before. -/
theorem issued_rank {n : Nat} {op : StoreOp} {c : Call} (h : Inv s n)
    (hb : n + s.tokensIssued op ≤ 2 ^ 64 - 2) (hpre : s.calls.lookup i = none)
    (hpost : (s.exec op).calls.lookup i = some c) :
    n < rank s.seed c.token := by
  rcases exec_calls s op
    with hsame | ⟨value, parsed, rfl, hp, hrep⟩
  · rw [hsame, hpre] at hpost
    cases hpost
  · rw [hrep] at hpost
    have hcount : s.tokensIssued (.apply value)
        = parsed.countP s.absent := by
      simp only [Store.tokensIssued, hp]
      rfl
    rw [hcount] at hb
    have hrk := replaceCalls_ranked h.seed_ne (by rw [h.rank_eq]; exact hb)
    have := (hrk.fresh hpost hpre).1
    rw [h.rank_eq] at this
    exact this

/-- Every token alive in a state of a run ranks at most as high as the
tokens issued by then. -/
theorem alive_rank (h : Exec storeStep (newStore now) tr s)
    (hb : issuedIn tr ≤ 2 ^ 64 - 2) (hx : x ∈ tr) {j : UInt8} {d : Call}
    (hd : x.post.calls.lookup j = some d) :
    rank s.seed d.token ≤ issuedIn tr := by
  obtain ⟨u₁, u₂, rfl⟩ := List.append_of_mem hx
  have hpost := (prefix_inv h hb).2
  have hseed : x.post.seed = s.seed := by
    obtain ⟨hrun, hstep, -⟩ := h.split
    rw [run_seed h, run_seed (hrun.snoc hstep)]
  have := (hpost.token_ok hd).2
  rw [hseed] at this
  rw [issuedIn_append, issuedIn_cons]
  omega

/-- The token an index receives when it appears has been on no call
earlier in the run. -/
theorem issued_fresh {y : StoreTrans}
    (h : Exec storeStep (newStore now) (t₁ ++ y :: t₂) s)
    (hb : issuedIn (t₁ ++ y :: t₂) ≤ 2 ^ 64 - 2) {j : UInt8} {c d : Call}
    (hpre : y.pre.calls.lookup i = none)
    (hpost : y.post.calls.lookup i = some c) (hx : x ∈ t₁)
    (hd : x.post.calls.lookup j = some d) : d.token ≠ c.token := by
  obtain ⟨hrun, hstep, -⟩ := h.split
  have hinv := (prefix_inv h hb).1
  rw [issuedIn_append, issuedIn_cons] at hb
  have hle := alive_rank hrun (by omega) hx hd
  rw [storeStep_eq hstep] at hpost
  have hlt := issued_rank hinv (by omega) hpre hpost
  intro he
  rw [he] at hle
  omega

/-- A validated command names the live call by its current token. -/
theorem validate_live {t : UInt64} {op : UInt8}
    (h : s.validateIndexedCommand i t op = true) :
    t ≠ 0 ∧ ∃ c, s.calls.lookup i = some c ∧ c.token = t := by
  unfold Store.validateIndexedCommand at h
  split at h
  case h_1 => cases h
  case h_2 c hc =>
      split at h
      case isTrue => cases h
      case isFalse hne =>
          rw [not_or, not_not] at hne
          exact ⟨hne.1, c, hc, hne.2⟩

/-- Over every run of the store that issues fewer than `2^64 - 2` tokens:
live tokens are nonzero and distinct, a call listed by two consecutive
applied values keeps its token, a call that appears receives a token that
is neither zero nor the seed and that no call of the run has carried, and
only the live token of an index validates a command. -/
theorem call_token_lifecycle (h : Exec storeStep (newStore now) tr s)
    (hfew : issuedIn tr < 2 ^ 64 - 2) :
    (∀ i c, s.calls.lookup i = some c → c.token ≠ 0)
      ∧ (∀ i j c d, s.calls.lookup i = some c →
          s.calls.lookup j = some d → i ≠ j → c.token ≠ d.token)
      ∧ (∀ t₁ (x : StoreTrans) t₂ (y : StoreTrans) t₃,
          tr = t₁ ++ x :: (t₂ ++ y :: t₃) →
          AppliedOk x → AppliedOk y → (∀ z ∈ t₂, ¬ AppliedOk z) →
          ∀ i c d, x.post.calls.lookup i = some c →
            y.post.calls.lookup i = some d → d.token = c.token)
      ∧ (∀ t₁ (y : StoreTrans) t₂, tr = t₁ ++ y :: t₂ → AppliedOk y →
          ∀ i c, y.pre.calls.lookup i = none →
            y.post.calls.lookup i = some c →
            c.token ≠ 0 ∧ c.token ≠ (newStore now).seed
              ∧ ∀ x ∈ t₁, ∀ j d, x.post.calls.lookup j = some d →
                  d.token ≠ c.token)
      ∧ (∀ i t op, s.validateIndexedCommand i t op = true →
          ∃ c, s.calls.lookup i = some c ∧ c.token = t) := by
  have hb : issuedIn tr ≤ 2 ^ 64 - 2 := by omega
  have hinv := run_inv h hb
  refine ⟨?_, ?_, ?_, ?_, ?_⟩
  · intro i c hc
    exact hinv.token_ne_zero hc
  · intro i j c d hc hd hij he
    exact hij (hinv.token_inj hc hd he)
  · intro t₁ x t₂ y t₃ htr _ _ hno i c d hc hd
    subst htr
    obtain ⟨-, -, hrest⟩ := h.split
    obtain ⟨hmid, hy, -⟩ := hrest.split
    have hcalls := calls_between hmid hno
    rw [storeStep_eq hy] at hd
    exact exec_keeps (by rw [hcalls]; exact hc) hd
  · intro t₁ y t₂ htr _ i c hpre hpost
    subst htr
    have hok := ((prefix_inv h hb).2.token_ok hpost).1
    have hseed : y.post.seed = (newStore now).seed := by
      obtain ⟨hrun, hstep, -⟩ := h.split
      exact run_seed (hrun.snoc hstep)
    rw [hseed] at hok
    refine ⟨fun h0 => hok (Or.inl h0), fun hs => hok (Or.inr hs), ?_⟩
    intro x hx j d hd
    exact issued_fresh h hb hpre hpost hx hd
  · intro i t op hv
    exact (validate_live hv).2

/-- The counter one step before it wraps: the token after `2^64 - 1` is
`1`, zero is skipped, and the index that stays keeps its token. -/
theorem call_token_lifecycle_wrap :
    ∃ (tr : List StoreTrans) (s : Store),
      Exec storeStep (newStore 0xfffffffffffffffe) tr s
        ∧ issuedIn tr < 2 ^ 64 - 2
        ∧ (∀ i c, s.calls.lookup i = some c → c.token ≠ 0)
        ∧ s.calls.lookup 4 = some ⟨4, 3, 0, 0xffffffffffffffff, ⟨[], []⟩⟩
        ∧ s.calls.lookup 7 = some ⟨7, 0, 0, 1, ⟨[], []⟩⟩ := by
  obtain ⟨tr, s, hrun, hfew, h4, h7⟩ := exec_of_decide storeStep
      (newStore 0xfffffffffffffffe)
      [.apply [4, 0, 0], .apply [4, 3, 0, 7, 0, 0]]
      (fun tr s => issuedIn tr < 2 ^ 64 - 2
        ∧ s.calls.lookup 4 = some ⟨4, 3, 0, 0xffffffffffffffff, ⟨[], []⟩⟩
        ∧ s.calls.lookup 7 = some ⟨7, 0, 0, 1, ⟨[], []⟩⟩) (by decide)
  exact ⟨tr, s, hrun, hfew, (call_token_lifecycle hrun hfew).1, h4, h7⟩

end Callbridge.Gtbs
