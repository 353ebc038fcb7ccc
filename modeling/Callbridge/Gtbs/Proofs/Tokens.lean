/-
The life of a call token.

A token is handed out when an index appears in an applied Call State
value, stays with the index while every applied value lists it, and is
never seen again. The argument is the rank of the token counter
(`Lib.rank`): after `n` tokens the counter has rank `n`, live tokens rank
from one to `n`, and the next has rank `n + 1`, so wrap-around needs no
case of its own.

`Assigned` says what `Apply`'s loop does; `Ranked` adds the ranks, while
the counter has not come round.
-/
import Callbridge.Gtbs.Store
import Callbridge.Lib.Trace

namespace Callbridge.Gtbs

open Lib Protocol

-- == the loop of `Apply`

variable {s s' : Store} {seen : List Call} {next : GoMap UInt8 Call}
  {call : Call}

/-- `call` names an index that is not live in `s`. -/
def Store.absent (s : Store) (call : Call) : Bool :=
  (s.calls.lookup call.index).isNone

/-- What `Apply`'s loop has built after the entries `seen`: their
indexes, each with its own entry, and live indexes with the token they
had. -/
structure Assigned (s : Store) (seen : List Call)
    (next : GoMap UInt8 Call) : Prop where
  dom : ∀ i, (∃ c, next.lookup i = some c) ↔ ∃ c ∈ seen, c.index = i
  entry : ∀ {i c}, next.lookup i = some c →
    ∃ c₀ ∈ seen, c₀.index = i ∧ c = { c₀ with token := c.token }
  kept : ∀ {i c prior}, next.lookup i = some c →
    s.calls.lookup i = some prior → c.token = prior.token
  issued : ∀ {i c}, next.lookup i = some c → s.calls.lookup i = none →
    ¬ excluded s.seed c.token

theorem Assigned.nil (s : Store) : Assigned s [] ∅ where
  dom := by simp
  entry := by simp
  kept := by simp
  issued := by simp

/-- One more entry, with a token that suits it. -/
theorem Assigned.insert (h : Assigned s seen next) {token : UInt64}
    (hkept : ∀ prior, s.calls.lookup call.index = some prior →
      token = prior.token)
    (hnew : s.calls.lookup call.index = none → ¬ excluded s.seed token) :
    Assigned s (seen ++ [call])
      (next.insert call.index { call with token := token }) where
  dom i := by
    rw [GoMap.lookup_insert]
    by_cases hi : i = call.index
    · subst hi
      simp
    · rw [if_neg hi, h.dom i]
      have hne : ¬ call.index = i := fun he => hi he.symm
      simp [hne]
  entry {i c} hc := by
    rw [GoMap.lookup_insert] at hc
    by_cases hi : i = call.index
    · rw [if_pos hi] at hc
      injection hc with hc
      subst hc hi
      exact ⟨call, by simp, rfl, rfl⟩
    · rw [if_neg hi] at hc
      obtain ⟨c₀, hmem, hidx, heq⟩ := h.entry hc
      exact ⟨c₀, List.mem_append_left _ hmem, hidx, heq⟩
  kept {i c prior} hc hp := by
    rw [GoMap.lookup_insert] at hc
    by_cases hi : i = call.index
    · rw [if_pos hi] at hc
      injection hc with hc
      subst hc hi
      exact hkept prior hp
    · rw [if_neg hi] at hc
      exact h.kept hc hp
  issued {i c} hc hn := by
    rw [GoMap.lookup_insert] at hc
    by_cases hi : i = call.index
    · rw [if_pos hi] at hc
      injection hc with hc
      subst hc hi
      exact hnew hn
    · rw [if_neg hi] at hc
      exact h.issued hc hn

/-- The loop body on an index that is live. -/
theorem assignToken_live {prior : Call}
    (h : s.calls.lookup call.index = some prior) :
    assignToken (next, s) call
      = (next.insert call.index { call with token := prior.token }, s) := by
  simp only [assignToken, h]

/-- The loop body on an index that is not. -/
theorem assignToken_absent (h : s.calls.lookup call.index = none) :
    assignToken (next, s) call
      = (next.insert call.index
          { call with token := skip s.seed s.tokens },
        { s with tokens := skip s.seed s.tokens }) := by
  simp only [assignToken, h, Store.nextToken]

/-- The loop moves nothing of the store but the token counter, and keeps
what both its branches keep. -/
theorem foldl_assignToken (s : Store) (parsed : List Call)
    {P : List Call → GoMap UInt8 Call → UInt64 → Prop}
    (hnil : P [] ∅ s.tokens)
    (hlive : ∀ seen next tok call prior, P seen next tok →
      s.calls.lookup call.index = some prior → P (seen ++ [call])
        (next.insert call.index { call with token := prior.token }) tok)
    (hissue : ∀ seen next tok call, P seen next tok →
      s.calls.lookup call.index = none → P (seen ++ [call])
        (next.insert call.index { call with token := skip s.seed tok })
        (skip s.seed tok)) :
    ∃ next tok, parsed.foldl assignToken (∅, s)
        = (next, { s with tokens := tok }) ∧ P parsed next tok := by
  induction parsed using List.reverseRecOn with
  | nil => exact ⟨∅, s.tokens, rfl, hnil⟩
  | append_singleton seen call ih =>
    obtain ⟨next, tok, heq, hp⟩ := ih
    rw [List.foldl_append, heq]
    cases hl : s.calls.lookup call.index with
    | some prior =>
      exact ⟨_, tok, assignToken_live (s := { s with tokens := tok }) hl,
        hlive seen next tok call prior hp hl⟩
    | none =>
      exact ⟨_, _, assignToken_absent (s := { s with tokens := tok }) hl,
        hissue seen next tok call hp hl⟩

/-- What a parsed value does to the store, field by field. -/
theorem replaceCalls_spec (s : Store) (parsed : List Call) :
    Assigned s parsed (s.replaceCalls parsed).calls
      ∧ (s.replaceCalls parsed).seed = s.seed
      ∧ (s.replaceCalls parsed).claimed
          = s.claimed.filter (claimStands (s.replaceCalls parsed).calls) := by
  obtain ⟨next, tok, heq, has⟩ := foldl_assignToken s parsed
    (P := fun seen next _ => Assigned s seen next) (Assigned.nil s)
    (by
      intro seen next tok call prior h hl
      apply h.insert
      · intro p hp
        rw [hl] at hp
        cases hp
        rfl
      · intro hn
        rw [hl] at hn
        cases hn)
    (by
      intro seen next tok call h hl
      apply h.insert
      · intro p hp
        rw [hl] at hp
        cases hp
      · exact fun _ => skip_not_excluded s.seed tok)
  simp only [Store.replaceCalls, heq]
  exact ⟨has, trivial, trivial⟩

-- == the ranks

/-- The ranks of what the loop has issued: above the counter it started
from, at most the counter it stands at, and no two alike. -/
structure Ranked (s : Store) (seen : List Call) (next : GoMap UInt8 Call)
    (tok : UInt64) : Prop where
  rank_eq : rank s.seed tok
    = rank s.seed s.tokens + seen.countP s.absent
  fresh : ∀ {i c}, next.lookup i = some c → s.calls.lookup i = none →
    rank s.seed s.tokens < rank s.seed c.token
      ∧ rank s.seed c.token ≤ rank s.seed tok
  distinct : ∀ {i j c d}, next.lookup i = some c →
    next.lookup j = some d → s.calls.lookup i = none →
    s.calls.lookup j = none → c.token = d.token → i = j

/-- An entry at a live index takes over the token that is there. -/
theorem Ranked.live {tok : UInt64} {prior : Call} (h : Ranked s seen next tok)
    (hl : s.calls.lookup call.index = some prior) :
    Ranked s (seen ++ [call])
      (next.insert call.index { call with token := prior.token }) tok := by
  have habs : s.absent call = false := by
    simp [Store.absent, hl]
  constructor
  · rw [h.rank_eq, List.countP_append]
    simp [habs]
  · intro i c hc hn
    rw [GoMap.lookup_insert] at hc
    split at hc
    case isTrue hi => rw [hi, hl] at hn; cases hn
    case isFalse => exact h.fresh hc hn
  · intro i j c d hc hd hn hm he
    rw [GoMap.lookup_insert] at hc hd
    split at hc
    case isTrue hi => rw [hi, hl] at hn; cases hn
    case isFalse =>
      split at hd
      case isTrue hj => rw [hj, hl] at hm; cases hm
      case isFalse => exact h.distinct hc hd hn hm he

/-- An entry at a free index takes the next token, which outranks
everything issued so far. -/
theorem Ranked.issue {tok : UInt64} (h : Ranked s seen next tok)
    (hl : s.calls.lookup call.index = none)
    (hstep : rank s.seed (skip s.seed tok) = rank s.seed tok + 1) :
    Ranked s (seen ++ [call])
      (next.insert call.index { call with token := skip s.seed tok })
      (skip s.seed tok) := by
  have habs : s.absent call = true := by
    simp [Store.absent, hl]
  -- so no entry made before has it
  have hnew : ∀ {i c}, next.lookup i = some c → s.calls.lookup i = none →
      c.token ≠ skip s.seed tok := by
    intro i c hc hn he
    have hle := (h.fresh hc hn).2
    rw [he] at hle
    omega
  constructor
  · rw [hstep, h.rank_eq, List.countP_append]
    simp [habs]
    omega
  · intro i c hc hn
    rw [GoMap.lookup_insert] at hc
    split at hc
    case isTrue =>
      cases hc
      have hr := h.rank_eq
      refine ⟨?_, Nat.le_refl _⟩
      show _ < rank s.seed (skip s.seed tok)
      omega
    case isFalse =>
      have hfresh := h.fresh hc hn
      omega
  · intro i j c d hc hd hn hm he
    rw [GoMap.lookup_insert] at hc hd
    split at hc
    case isTrue hi =>
      split at hd
      case isTrue hj => rw [hi, hj]
      case isFalse =>
        cases hc
        exact absurd he.symm (hnew hd hm)
    case isFalse =>
      split at hd
      case isTrue hj =>
        cases hd
        exact absurd he (hnew hc hn)
      case isFalse => exact h.distinct hc hd hn hm he

/-- The ranks after one applied value, while the counter has not come
round. -/
theorem replaceCalls_ranked {parsed : List Call} (hseed : s.seed ≠ 0)
    (hb : rank s.seed s.tokens + parsed.countP s.absent ≤ 2 ^ 64 - 2) :
    Ranked s parsed (s.replaceCalls parsed).calls
      (s.replaceCalls parsed).tokens := by
  obtain ⟨next, tok, heq, has⟩ := foldl_assignToken s parsed
    (P := fun seen next tok =>
      rank s.seed s.tokens + seen.countP s.absent ≤ 2 ^ 64 - 2 →
      Ranked s seen next tok) (fun _ => ⟨by simp, by simp, by simp⟩)
    (by
      intro seen next tok call prior h hl hb
      rw [List.countP_append] at hb
      exact (h (by omega)).live hl)
    (by
      intro seen next tok call h hl hb
      have habs : s.absent call = true := by
        simp [Store.absent, hl]
      rw [List.countP_append, List.countP_singleton, if_pos habs] at hb
      have hseen := h (by omega)
      refine hseen.issue hl (rank_skip hseed ?_)
      rw [hseen.rank_eq]
      omega)
  simp only [Store.replaceCalls, heq]
  exact has hb

end Callbridge.Gtbs
