/-
The store invariant, and what it says about whole runs.

`Inv s n` holds of a store that has issued `n` tokens: the counter has
rank `n`, live tokens are distinct, never zero and never the seed, and
every claim names the live call at its index. On it stand two readings of
a run: `live_issued` finds the moment at which a live token was issued,
and by `claim_since_issue` a claim in force was made after it.
-/
import Callbridge.Gtbs.Proofs.Tokens

namespace Callbridge.Gtbs

open Lib Protocol

variable {s s' : Store} {parsed : List Call} {i : UInt8} {n : Nat} {c : Call}
  {op : StoreOp}

-- == the methods, inverted

theorem apply_error {value : Bytes} {e : StoreError}
    (h : parseCallState value = .error e) : s.apply value = (.error e, s) := by
  simp only [Store.apply, h]

theorem apply_ok {value : Bytes} (h : parseCallState value = .ok parsed) :
    s.apply value = (.ok (s.replaceCalls parsed).snapshot,
      s.replaceCalls parsed) := by
  simp only [Store.apply, h]

/-- An identity is what it was, or is stored or removed under a new
sequence number. -/
theorem setIdentityLocked_cases (s : Store) (index : UInt8)
    (identity : Identity) :
    s.setIdentityLocked index identity = (false, s)
      ∨ ∃ ids, s.setIdentityLocked index identity = (true, { s with
            identities := ids, sequence := bumpSequence s.sequence })
          ∧ (ids = s.identities.erase index
            ∨ ids = s.identities.insert index identity) := by
  unfold Store.setIdentityLocked
  split
  case isTrue =>
    split
    case isTrue => exact Or.inl rfl
    case isFalse => exact Or.inr ⟨_, rfl, Or.inl rfl⟩
  case isFalse =>
    split
    case isTrue => exact Or.inl rfl
    case isFalse => exact Or.inr ⟨_, rfl, Or.inr rfl⟩

/-- A caller identity is refused, and the store left alone, or it is
stored or removed at one index under a new sequence number. -/
theorem applyIncomingCall_cases (s : Store) (value : Bytes) :
    (∃ e, s.applyIncomingCall value = (.error e, s))
      ∨ ∃ index raw ids, s.applyIncomingCall value = (.ok (), { s with
            identities := ids, sequence := bumpSequence s.sequence })
          ∧ (ids = s.identities.erase index
            ∨ ids = s.identities.insert index ⟨stripURIScheme raw,
                (identityAt s.identities index).name⟩) := by
  unfold Store.applyIncomingCall
  cases hp : parseCallIdentifier value with
  | error e => exact Or.inl ⟨e, rfl⟩
  | ok r =>
    obtain ⟨index, raw⟩ := r
    rcases setIdentityLocked_cases s index ⟨stripURIScheme raw,
        (identityAt s.identities index).name⟩ with h | ⟨ids, h, hids⟩
    · exact Or.inl ⟨.identityUnchanged, by simp only [h]⟩
    · exact Or.inr ⟨index, raw, ids, by simp only [h], hids⟩

/-- A caller identity moves nothing but the identities and the sequence
number. -/
theorem applyIncomingCall_frame (s : Store) (value : Bytes) :
    ∃ ids seq, (s.applyIncomingCall value).2
      = { s with identities := ids, sequence := seq } := by
  rcases applyIncomingCall_cases s value with ⟨e, h⟩
    | ⟨_, _, ids, h, -⟩
  · rw [h]
    exact ⟨s.identities, s.sequence, rfl⟩
  · rw [h]
    exact ⟨ids, bumpSequence s.sequence, rfl⟩

/-- A claim is recorded only for the live call that carries its token. -/
theorem claimCall_cases (s : Store) (i : UInt8) (t : UInt64) :
    s.claimCall i t = s
      ∨ ∃ c, s.calls.lookup i = some c ∧ c.token = t ∧ t ≠ 0
          ∧ s.claimCall i t = { s with claimed := s.claimed.insert i t } := by
  unfold Store.claimCall
  split
  · exact Or.inl rfl
  · next ht =>
    split
    · next c hc =>
      split
      · next hct => exact Or.inr ⟨c, hc, hct, ht, rfl⟩
      · exact Or.inl rfl
    · exact Or.inl rfl

theorem claimCall_calls (s : Store) (i : UInt8) (t : UInt64) :
    (s.claimCall i t).calls = s.calls := by
  rcases claimCall_cases s i t with h | ⟨c, -, -, -, h⟩ <;> rw [h]

/-- A claim survives an applied value exactly when it names the call the
value leaves at its index. -/
theorem claimed_replaceCalls (s : Store) (parsed : List Call) {t : UInt64} :
    (s.replaceCalls parsed).claimed.lookup i = some t
      ↔ s.claimed.lookup i = some t
        ∧ ∃ c, (s.replaceCalls parsed).calls.lookup i = some c
            ∧ c.token = t := by
  rw [(replaceCalls_spec s parsed).2.2, GoMap.lookup_filter,
    Option.filter_eq_some_iff]
  unfold claimStands
  cases hl : (s.replaceCalls parsed).calls.lookup i with
  | none | some c => simp

/-- The identities an applied value leaves are those of the indexes it
lists. -/
theorem identities_replaceCalls {identity : Identity}
    (h : (s.replaceCalls parsed).identities.lookup i = some identity) :
    s.identities.lookup i = some identity
      ∧ ∃ d, (s.replaceCalls parsed).calls.lookup i = some d := by
  have hfilter : (s.replaceCalls parsed).identities
      = s.identities.filter fun index _ =>
          ((s.replaceCalls parsed).calls.lookup index).isSome := rfl
  rw [hfilter, GoMap.lookup_filter, Option.filter_eq_some_iff] at h
  exact ⟨h.1, Option.isSome_iff_exists.mp h.2⟩

-- == the invariant

/-- What holds of a store that has issued `n` tokens. -/
structure Inv (s : Store) (n : Nat) : Prop where
  seed_ne : s.seed ≠ 0
  rank_eq : rank s.seed s.tokens = n
  index_eq : ∀ {i c}, s.calls.lookup i = some c → c.index = i
  token_ok : ∀ {i c}, s.calls.lookup i = some c →
    ¬ excluded s.seed c.token ∧ rank s.seed c.token ≤ n
  token_inj : ∀ {i j c d}, s.calls.lookup i = some c →
    s.calls.lookup j = some d → c.token = d.token → i = j
  claim_live : ∀ {i t}, s.claimed.lookup i = some t →
    ∃ c, s.calls.lookup i = some c ∧ c.token = t

theorem newStore_inv (now : UInt64) : Inv (newStore now) 0 := by
  have hseed : (newStore now).seed ≠ 0 := by
    simp only [newStore]
    split
    · decide
    · next h => exact h
  have htok : (newStore now).tokens = (newStore now).seed := rfl
  constructor
  · exact hseed
  · exact rank_start
  all_goals simp [newStore]

theorem Inv.token_ne_zero (h : Inv s n) (hc : s.calls.lookup i = some c) :
    c.token ≠ 0 :=
  fun h0 => (h.token_ok hc).1 (Or.inl h0)

/-- An applied value keeps the invariant, at the new count. -/
theorem replaceCalls_inv (h : Inv s n)
    (hb : n + parsed.countP s.absent ≤ 2 ^ 64 - 2) :
    Inv (s.replaceCalls parsed) (n + parsed.countP s.absent) := by
  obtain ⟨has, hseed, -⟩ := replaceCalls_spec s parsed
  have hr := h.rank_eq
  have hrk := replaceCalls_ranked h.seed_ne (by rw [hr]; exact hb)
  constructor
  · rw [hseed]
    exact h.seed_ne
  · rw [hseed, hrk.rank_eq, hr]
  · intro i c hc
    obtain ⟨c₀, -, hidx, heq⟩ := has.entry hc
    rw [heq]
    exact hidx
  · intro i c hc
    rw [hseed]
    cases hl : s.calls.lookup i with
    | some prior =>
      rw [has.kept hc hl]
      have := h.token_ok hl
      exact ⟨this.1, by omega⟩
    | none =>
      refine ⟨has.issued hc hl, ?_⟩
      have := (hrk.fresh hc hl).2
      rw [hrk.rank_eq, hr] at this
      exact this
  · -- a kept token ranks at most `n`, an issued one above it
    intro i j c d hc hd he
    cases hi : s.calls.lookup i with
    | some p =>
      have hcp := has.kept hc hi
      have hpn := (h.token_ok hi).2
      cases hj : s.calls.lookup j with
      | some q =>
        have hdq := has.kept hd hj
        exact h.token_inj hi hj (by rw [← hcp, he, hdq])
      | none =>
        have := (hrk.fresh hd hj).1
        rw [← he, hcp] at this
        omega
    | none =>
      cases hj : s.calls.lookup j with
      | some q =>
        have hdq := has.kept hd hj
        have hqn := (h.token_ok hj).2
        have := (hrk.fresh hc hi).1
        rw [he, hdq] at this
        omega
      | none => exact hrk.distinct hc hd hi hj he
  · intro i t ht
    exact ((claimed_replaceCalls s parsed).mp ht).2

/-- Every method keeps the invariant, at the new count. -/
theorem exec_inv (h : Inv s n) (hb : n + s.tokensIssued op ≤ 2 ^ 64 - 2) :
    Inv (s.exec op) (n + s.tokensIssued op) := by
  cases op with
  | apply value =>
    cases hp : parseCallState value with
    | error e =>
      simpa [Store.exec, Store.tokensIssued, apply_error, hp] using h
    | ok parsed =>
      have hcount : s.tokensIssued (.apply value)
          = parsed.countP s.absent := by
        simp only [Store.tokensIssued, hp]
        rfl
      rw [hcount] at hb ⊢
      simp only [Store.exec, apply_ok hp]
      exact replaceCalls_inv h hb
  | applyIncomingCall value =>
    obtain ⟨ids, seq, hs⟩ := applyIncomingCall_frame s value
    simp only [Store.exec, hs, Store.tokensIssued, Nat.add_zero]
    exact ⟨h.seed_ne, h.rank_eq, h.index_eq, h.token_ok, h.token_inj,
      h.claim_live⟩
  | claimCall i t =>
    simp only [Store.exec, Store.tokensIssued, Nat.add_zero]
    rcases claimCall_cases s i t with hs | ⟨c, hc, hct, -, hs⟩
    · rw [hs]
      exact h
    · rw [hs]
      refine ⟨h.seed_ne, h.rank_eq, h.index_eq, h.token_ok, h.token_inj,
        ?_⟩
      intro j u hj
      rw [GoMap.lookup_insert] at hj
      split at hj
      case isTrue hji =>
          injection hj with hj
          subst hj hji
          exact ⟨c, hc, hct⟩
      case isFalse => exact h.claim_live hj

-- == runs

/-- A transition of the store machine. -/
abbrev StoreTrans := Lib.Trans Store StoreOp Unit

/-- The tokens issued along a run. -/
def issuedIn (tr : List StoreTrans) : Nat :=
  (tr.map fun x => x.pre.tokensIssued x.act).sum

theorem issuedIn_append (t₁ t₂ : List StoreTrans) :
    issuedIn (t₁ ++ t₂) = issuedIn t₁ + issuedIn t₂ := by
  simp [issuedIn]

theorem issuedIn_cons (x : StoreTrans) (t : List StoreTrans) :
    issuedIn (x :: t) = x.pre.tokensIssued x.act + issuedIn t := by
  simp [issuedIn]

theorem storeStep_eq {es : List Unit} (h : storeStep s op = some (s', es)) :
    s' = s.exec op := by
  injection h with h
  injection h with h _
  exact h.symm

variable {now : UInt64} {tr : List StoreTrans}

/-- After a run that has not used up the tokens the invariant holds, at
the number of tokens issued. -/
theorem run_inv (h : Exec storeStep (newStore now) tr s)
    (hb : issuedIn tr ≤ 2 ^ 64 - 2) : Inv s (issuedIn tr) := by
  induction h with
  | nil => exact newStore_inv now
  | snoc _ hstep ih =>
    rw [issuedIn_append] at hb ⊢
    rw [storeStep_eq hstep]
    have hone : ∀ x : StoreTrans, issuedIn [x]
        = x.pre.tokensIssued x.act := by
      intro x
      simp [issuedIn]
    exact exec_inv (ih (by omega)) hb

/-- The run's seed is the one it started with. -/
theorem run_seed (h : Exec storeStep (newStore now) tr s) :
    s.seed = (newStore now).seed := by
  refine h.inv (P := fun s => s.seed = (newStore now).seed) rfl ?_
  intro s a s' es hs hstep
  rw [storeStep_eq hstep, ← hs]
  cases a with
  | apply value =>
    cases hp : parseCallState value with
    | error e => simp [Store.exec, apply_error hp]
    | ok parsed =>
      simp only [Store.exec, apply_ok hp]
      exact (replaceCalls_spec s parsed).2.1
  | applyIncomingCall value =>
    obtain ⟨ids, seq, hs'⟩ := applyIncomingCall_frame s value
    simp only [Store.exec, hs']
  | claimCall i t =>
    simp only [Store.exec]
    rcases claimCall_cases s i t with h' | ⟨c, -, -, -, h'⟩ <;> rw [h']

/-- A transition that hands index `i` the token `t`: the index was not
live before and carries `t` after. -/
def Issues (x : StoreTrans) (i : UInt8) (t : UInt64) : Prop :=
  x.pre.calls.lookup i = none
    ∧ ∃ c, x.post.calls.lookup i = some c ∧ c.token = t

/-- Only an applied value changes the call map. -/
theorem exec_calls (s : Store) (op : StoreOp) :
    (s.exec op).calls = s.calls
      ∨ ∃ value parsed, op = .apply value
          ∧ parseCallState value = .ok parsed
          ∧ s.exec op = s.replaceCalls parsed := by
  cases op with
  | apply value =>
    cases hp : parseCallState value with
    | error e => exact Or.inl (by simp [Store.exec, apply_error hp])
    | ok parsed =>
      exact Or.inr ⟨value, parsed, rfl, hp,
        by simp [Store.exec, apply_ok hp]⟩
  | applyIncomingCall value =>
    obtain ⟨ids, seq, hs⟩ := applyIncomingCall_frame s value
    exact Or.inl (by simp [Store.exec, hs])
  | claimCall i t => exact Or.inl (claimCall_calls s i t)

/-- A method call leaves the token of an index that stays live. -/
theorem exec_keeps {d : Call} (hc : s.calls.lookup i = some c)
    (hd : (s.exec op).calls.lookup i = some d) : d.token = c.token := by
  rcases exec_calls s op with h | ⟨_, parsed, -, -, h⟩
  · rw [h, hc] at hd
    injection hd with hd
    rw [hd]
  · rw [h] at hd
    exact (replaceCalls_spec s parsed).1.kept hd hc

/-- Every live token was issued at some transition of the run. -/
theorem live_issued (h : Exec storeStep (newStore now) tr s)
    (hc : s.calls.lookup i = some c) :
    ∃ t₁ x t₂, tr = t₁ ++ x :: t₂ ∧ Issues x i c.token := by
  induction h generalizing c with
  | nil => simp [newStore] at hc
  | @snoc tr s s' op es hrun hstep ih =>
    have hs' := storeStep_eq hstep
    subst hs'
    cases hl : s.calls.lookup i with
    | some prior =>
      obtain ⟨t₁, x, t₂, rfl, hx⟩ := ih hl
      refine ⟨t₁, x, t₂ ++ [_], by rw [List.append_assoc]; rfl, ?_⟩
      rw [exec_keeps hl hc]
      exact hx
    | none => exact ⟨tr, _, [], rfl, hl, c, hc, rfl⟩

end Callbridge.Gtbs
