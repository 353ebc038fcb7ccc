/-
Caller identities: what one Incoming Call value does to the store, and to
which call an identity belongs.

The three cases of `ApplyIncomingCall` are one: it returns nil when the
identity shown for the index is another one afterwards
(`applyIncomingCall_eq`). An identity outlives a call only until the next
applied value.
-/
import Callbridge.Gtbs.Proofs.Wire

namespace Callbridge.Gtbs

open Lib Protocol

variable {s : Store} {value raw : Bytes} {index i : UInt8}
  {identity : Identity}

-- == one value

/-- An identity that `ApplyIncomingCall` may have stored. -/
structure Numbered (identity : Identity) : Prop where
  uri : identity.uri ≠ []
  name : identity.name = []

/-- Every stored identity is a number and nothing else. -/
def Store.Identified (s : Store) : Prop :=
  ∀ i identity, s.identities.lookup i = some identity → Numbered identity

/-- The identities with the one of an index replaced. -/
def withIdentity (identities : GoMap UInt8 Identity) (index : UInt8)
    (identity : Identity) : GoMap UInt8 Identity :=
  if identity.uri = [] then identities.erase index
  else identities.insert index identity

/-- The identity an Incoming Call value names. -/
def identityOf (raw : Bytes) : Identity := ⟨stripURIScheme raw, []⟩

theorem Store.Identified.name_at (h : s.Identified) (i : UInt8) :
    (identityAt s.identities i).name = [] := by
  unfold identityAt
  cases hl : s.identities.lookup i with
  | none => rfl
  | some identity => exact (h _ _ hl).name

/-- The three cases of the source are one comparison. -/
theorem setIdentityLocked_eq (h : s.Identified)
    (hname : identity.name = []) :
    s.setIdentityLocked index identity
      = if identityAt s.identities index = identity then (false, s)
        else (true, { s with
          identities := withIdentity s.identities index identity
          sequence := bumpSequence s.sequence }) := by
  unfold Store.setIdentityLocked withIdentity identityAt
  by_cases huri : identity.uri = []
  · rw [if_pos ⟨huri, hname⟩, if_pos huri]
    have hzero : identity = Identity.zero := by
      cases identity
      cases huri
      cases hname
      rfl
    cases hl : s.identities.lookup index with
    | none => simp [hzero]
    | some stored =>
      have hne : stored ≠ identity := by
        intro he
        exact (h _ _ hl).uri (he ▸ huri)
      simp [hne]
  · rw [if_neg (fun hboth => huri hboth.1), if_neg huri]
    cases hl : s.identities.lookup index with
    | none =>
      have hne : Identity.zero ≠ identity := by
        intro he
        exact huri (he ▸ rfl)
      simp [hne]
    | some stored => simp

/-- What a readable value does: nothing if it names the identity that is
shown for the index, and otherwise it replaces it. -/
theorem applyIncomingCall_eq (h : s.Identified)
    (hparse : parseCallIdentifier value = .ok (index, raw)) :
    s.applyIncomingCall value
      = if identityAt s.identities index = identityOf raw then
          (.error .identityUnchanged, s)
        else (.ok (), { s with
          identities := withIdentity s.identities index (identityOf raw)
          sequence := bumpSequence s.sequence }) := by
  unfold Store.applyIncomingCall identityOf
  rw [hparse]
  dsimp only
  rw [h.name_at index, setIdentityLocked_eq h rfl]
  by_cases hsame : identityAt s.identities index
      = ⟨stripURIScheme raw, []⟩
  · rw [if_pos hsame, if_pos hsame]
  · rw [if_neg hsame, if_neg hsame]

theorem applyIncomingCall_unreadable {e : StoreError}
    (hparse : parseCallIdentifier value = .error e) :
    s.applyIncomingCall value = (.error e, s) := by
  unfold Store.applyIncomingCall
  rw [hparse]

theorem identityAt_withIdentity (identities : GoMap UInt8 Identity)
    (hname : identity.name = []) :
    identityAt (withIdentity identities index identity) index
      = identity := by
  unfold withIdentity identityAt
  by_cases huri : identity.uri = []
  · rw [if_pos huri, GoMap.lookup_erase, if_pos rfl]
    cases identity
    cases huri
    cases hname
    rfl
  · rw [if_neg huri, GoMap.lookup_insert, if_pos rfl]
    rfl

/-- Of the identities afterwards, one is new and the others were there. -/
theorem lookup_withIdentity {identities : GoMap UInt8 Identity}
    {stored : Identity}
    (h : (withIdentity identities index identity).lookup i = some stored) :
    (i = index ∧ stored = identity ∧ identity.uri ≠ [])
      ∨ (i ≠ index ∧ identities.lookup i = some stored) := by
  unfold withIdentity at h
  by_cases huri : identity.uri = []
  · rw [if_pos huri, GoMap.lookup_erase] at h
    split at h
    case isTrue => cases h
    case isFalse hi => exact Or.inr ⟨hi, h⟩
  · rw [if_neg huri, GoMap.lookup_insert] at h
    split at h
    case isTrue hi =>
      cases h
      exact Or.inl ⟨hi, rfl, huri⟩
    case isFalse hi => exact Or.inr ⟨hi, h⟩

-- == one method

/-- The step stores this identity for this index: it is an
`ApplyIncomingCall` that returns nil. -/
def Records (x : StoreTrans) (i : UInt8) (identity : Identity) : Prop :=
  ∃ value raw, x.act = .applyIncomingCall value
    ∧ parseCallIdentifier value = .ok (i, raw)
    ∧ (x.pre.applyIncomingCall value).1 = .ok ()
    ∧ identity = identityOf raw
    ∧ x.post.identities.lookup i = some identity

/-- An identity that is stored after a method call was stored by it, or
was there before, and then its index has not been given to another
call. -/
theorem exec_identity (op : StoreOp) (h : s.Identified)
    (hid : (s.exec op).identities.lookup i = some identity) :
    (Records ⟨s, op, [], s.exec op⟩ i identity ∧ Numbered identity)
      ∨ s.identities.lookup i = some identity
        ∧ ∀ {c}, s.calls.lookup i = some c →
          ∃ d, (s.exec op).calls.lookup i = some d ∧ d.token = c.token := by
  cases op with
  | apply value =>
    right
    cases hp : parseCallState value with
    | error e =>
      simp only [Store.exec, apply_error hp] at hid ⊢
      exact ⟨hid, fun hc => ⟨_, hc, rfl⟩⟩
    | ok parsed =>
      simp only [Store.exec, apply_ok hp] at hid ⊢
      obtain ⟨hold, d, hd⟩ := identities_replaceCalls hid
      exact ⟨hold, fun hc =>
        ⟨d, hd, (replaceCalls_spec s parsed).1.kept hd hc⟩⟩
  | applyIncomingCall value =>
    cases hparse : parseCallIdentifier value with
    | error e =>
      right
      simp only [Store.exec, applyIncomingCall_unreadable hparse]
        at hid ⊢
      exact ⟨hid, fun hc => ⟨_, hc, rfl⟩⟩
    | ok parsed =>
      obtain ⟨index, raw⟩ := parsed
      have heq := applyIncomingCall_eq h hparse
      -- the same identity again changes nothing
      by_cases hsame : identityAt s.identities index = identityOf raw
      · right
        rw [if_pos hsame] at heq
        simp only [Store.exec, heq] at hid ⊢
        exact ⟨hid, fun hc => ⟨_, hc, rfl⟩⟩
      · rw [if_neg hsame] at heq
        have hid' := hid
        simp only [Store.exec, heq] at hid'
        rcases lookup_withIdentity hid' with
          ⟨rfl, rfl, huri⟩ | ⟨-, hold⟩
        · exact Or.inl ⟨⟨value, raw, rfl, hparse, by rw [heq], rfl, hid⟩,
            huri, rfl⟩
        · right
          simp only [Store.exec, heq]
          exact ⟨hold, fun hc => ⟨_, hc, rfl⟩⟩
  | claimCall j t =>
    right
    simp only [Store.exec] at hid ⊢
    rcases claimCall_cases s j t with hs | ⟨-, -, -, -, hs⟩
    · rw [hs] at hid ⊢
      exact ⟨hid, fun hc => ⟨_, hc, rfl⟩⟩
    · rw [hs] at hid ⊢
      exact ⟨hid, fun hc => ⟨_, hc, rfl⟩⟩

-- == runs

variable {now : UInt64} {tr : List StoreTrans}

theorem run_identified (hrun : Exec storeStep (newStore now) tr s) :
    s.Identified := by
  refine hrun.inv (P := fun s => s.Identified) ?_ ?_
  · intro i identity hid
    simp [newStore] at hid
  · intro s op s' es h hstep i identity hid
    rw [storeStep_eq hstep] at hid
    rcases exec_identity op h hid with ⟨-, hnew⟩ | ⟨hold, -⟩
    · exact hnew
    · exact h _ _ hold

/-- The step that recorded a stored identity. Nothing has been stored for
the index since, and the call that was live there then is live there
now. -/
theorem recorded_at (hrun : Exec storeStep (newStore now) tr s)
    (hid : s.identities.lookup i = some identity) :
    ∃ t₁ x t₂, tr = t₁ ++ x :: t₂ ∧ Records x i identity
      ∧ (∀ y ∈ t₂, y.pre.identities.lookup i = some identity)
      ∧ ∀ {c}, x.pre.calls.lookup i = some c →
          ∃ d, s.calls.lookup i = some d ∧ d.token = c.token := by
  induction hrun with
  | nil => simp [newStore] at hid
  | @snoc tr s s' op es hrun hstep ih =>
    obtain rfl := storeStep_eq hstep
    rcases exec_identity op (run_identified hrun) hid with
      ⟨hrec, -⟩ | ⟨hold, hlive⟩
    · refine ⟨tr, _, [], rfl, hrec, by simp, fun {c} hc => ?_⟩
      obtain ⟨value, -, rfl, -⟩ := hrec
      obtain ⟨ids, seq, hs⟩ := applyIncomingCall_frame s value
      refine ⟨c, ?_, rfl⟩
      simpa only [Store.exec, hs] using hc
    · obtain ⟨t₁, x, t₂, rfl, hrec, hsince, htoken⟩ := ih hold
      refine ⟨t₁, x, t₂ ++ [_], by rw [List.append_assoc]; rfl, hrec,
        ?_, fun {c} hc => ?_⟩
      · intro y hy
        rcases List.mem_append.mp hy with hy | hy
        · exact hsince y hy
        · obtain rfl := List.mem_singleton.mp hy
          exact hold
      · obtain ⟨d, hd, htd⟩ := htoken hc
        obtain ⟨d', hd', htd'⟩ := hlive hd
        exact ⟨d', hd', htd'.trans htd⟩

/-- An identity in a snapshot is stored, for a call that is live under the
token it is listed with. -/
theorem snapshot_identity {c : Call}
    (hrun : Exec storeStep (newStore now) tr s)
    (hc : c ∈ s.snapshot.calls) (hid : c.identity ≠ Identity.zero) :
    s.identities.lookup c.index = some c.identity
      ∧ ∃ d, s.calls.lookup c.index = some d ∧ d.token = c.token := by
  obtain ⟨⟨i, d⟩, hd, rfl⟩ := List.mem_map.mp hc
  have hl := GoMap.mem_sorted.mp hd
  obtain rfl := (run_sendable hrun).index_eq hl
  refine ⟨?_, d, hl, rfl⟩
  simp only [identityAt] at hid ⊢
  cases hi : s.identities.lookup d.index with
  | none =>
    rw [hi] at hid
    exact absurd rfl hid
  | some identity => rfl

/-- An identity stays with its call. Whatever a snapshot shows was stored
by one `ApplyIncomingCall`, is what that one stored, and stands on the
call that was live then, if there was one. An applied value leaves no
identity without a call, and no identity has a name. -/
theorem identity_stays_with_call
    (hrun : Exec storeStep (newStore now) tr s) :
    (∀ c ∈ s.snapshot.calls, c.identity ≠ Identity.zero →
      ∃ t₁ x t₂, tr = t₁ ++ x :: t₂ ∧ Records x c.index c.identity
        ∧ (∀ y ∈ t₂, y.pre.identities.lookup c.index = some c.identity)
        ∧ ∀ d, x.pre.calls.lookup c.index = some d → c.token = d.token)
      ∧ (∀ x ∈ tr, ∀ value snapshot, x.act = .apply value →
          (x.pre.apply value).1 = .ok snapshot →
          ∀ i identity, x.post.identities.lookup i = some identity →
            ∃ c, x.post.calls.lookup i = some c)
      ∧ ∀ i identity, s.identities.lookup i = some identity →
          identity.name = [] := by
  refine ⟨?_, ?_, fun i identity hid => (run_identified hrun i _ hid).name⟩
  · intro c hc hne
    obtain ⟨hid, e, he, hte⟩ := snapshot_identity hrun hc hne
    obtain ⟨t₁, x, t₂, htr, hrec, hsince, hlive⟩ := recorded_at hrun hid
    refine ⟨t₁, x, t₂, htr, hrec, hsince, fun d hd => ?_⟩
    obtain ⟨e', he', hte'⟩ := hlive hd
    rw [he] at he'
    cases he'
    exact hte.symm.trans hte'
  · intro x hx value snapshot hact hok i identity hid
    obtain ⟨-, -, -, -, hstep, -⟩ := hrun.of_mem hx
    have hpost := storeStep_eq hstep
    rw [hact] at hpost
    cases hp : parseCallState value with
    | error e =>
      rw [apply_error hp] at hok
      cases hok
    | ok parsed =>
      simp only [Store.exec, apply_ok hp] at hpost
      rw [hpost] at hid ⊢
      exact (identities_replaceCalls hid).2

/-- A caller rings, goes, and another one rings at the same index before
its number is known. -/
theorem identity_stays_with_call_reused :
    ∃ tr s, Exec storeStep (newStore 1) tr s
      ∧ s.calls.lookup 4 = some ⟨4, 0, 0, 3, Identity.zero⟩
      ∧ s.identities.lookup 4 = some ⟨[0x37], []⟩
      ∧ ∀ c ∈ s.snapshot.calls, c.identity ≠ Identity.zero →
        ∃ t₁ x t₂, tr = t₁ ++ x :: t₂ ∧ Records x c.index c.identity
          ∧ (∀ y ∈ t₂, y.pre.identities.lookup c.index = some c.identity)
          ∧ ∀ d, x.pre.calls.lookup c.index = some d → c.token = d.token := by
  obtain ⟨tr, s, hrun, hcall, hid⟩ := exec_of_decide storeStep (newStore 1)
      [.apply [4, 0, 0], .applyIncomingCall [4, 0x35], .apply [],
        .apply [4, 0, 0], .applyIncomingCall [4, 0x37]]
      (fun _ s =>
        s.calls.lookup 4 = some ⟨4, 0, 0, 3, Identity.zero⟩
        ∧ s.identities.lookup 4 = some ⟨[0x37], []⟩) (by decide +kernel)
  exact ⟨tr, s, hrun, hcall, hid, (identity_stays_with_call hrun).1⟩

-- == all or none

theorem bumpSequence_toNat {sequence : UInt64}
    (h : sequence.toNat + 1 < 2 ^ 64) :
    (bumpSequence sequence).toNat = sequence.toNat + 1 := by
  have hsucc : (sequence + 1).toNat = sequence.toNat + 1 := by
    exact Nat.mod_eq_of_lt h
  unfold bumpSequence
  rw [if_neg, hsucc]
  intro h0
  rw [h0] at hsucc
  cases hsucc

/-- What the two updates do to a store: a refused one nothing at all, the
other takes the next number, and an identity changes nothing else. -/
structure Updates (s : Store) (value : Bytes) : Prop where
  apply_refused : ∀ e, (s.apply value).1 = .error e →
    (s.apply value).2 = s
  apply_numbered : ∀ snapshot, (s.apply value).1 = .ok snapshot →
    s.sequence.toNat + 1 < 2 ^ 64 →
    (s.apply value).2.sequence.toNat = s.sequence.toNat + 1
  identity_refused : ∀ e, (s.applyIncomingCall value).1 = .error e →
    (s.applyIncomingCall value).2 = s
  identity_numbered : (s.applyIncomingCall value).1 = .ok () →
    s.sequence.toNat + 1 < 2 ^ 64 →
    (s.applyIncomingCall value).2.sequence.toNat = s.sequence.toNat + 1
  identity_changes : (s.applyIncomingCall value).1 = .ok ()
    ↔ ∃ index raw, parseCallIdentifier value = .ok (index, raw)
        ∧ identityAt (s.applyIncomingCall value).2.identities index
          ≠ identityAt s.identities index
  identity_frame : (s.applyIncomingCall value).2.calls = s.calls
    ∧ (s.applyIncomingCall value).2.claimed = s.claimed
    ∧ (s.applyIncomingCall value).2.tokens = s.tokens

/-- It returns nil exactly if the identity shown changes. -/
theorem identity_changes_iff (h : s.Identified) :
    (s.applyIncomingCall value).1 = .ok ()
      ↔ ∃ index raw, parseCallIdentifier value = .ok (index, raw)
          ∧ identityAt (s.applyIncomingCall value).2.identities index
            ≠ identityAt s.identities index := by
  cases hparse : parseCallIdentifier value with
  | error e =>
    rw [applyIncomingCall_unreadable hparse]
    simp
  | ok parsed =>
    obtain ⟨index, raw⟩ := parsed
    rw [applyIncomingCall_eq h hparse]
    by_cases hsame : identityAt s.identities index = identityOf raw
    · rw [if_pos hsame]
      simp
    · rw [if_neg hsame]
      refine ⟨fun _ => ⟨index, raw, rfl, ?_⟩, fun _ => rfl⟩
      rw [identityAt_withIdentity s.identities rfl]
      exact Ne.symm hsame

/-- What one value does to the store. -/
theorem Store.Identified.updates (h : s.Identified) (value : Bytes) :
    Updates s value := by
  have happly : (∃ e, s.apply value = (.error e, s))
      ∨ ∃ snapshot s', s.apply value = (.ok snapshot, s')
        ∧ s'.sequence = bumpSequence s.sequence := by
    cases hp : parseCallState value with
    | error e => exact Or.inl ⟨e, apply_error hp⟩
    | ok parsed => exact Or.inr ⟨_, _, apply_ok hp, rfl⟩
  refine ⟨?_, ?_, ?_, ?_, identity_changes_iff h, ?_⟩
  · rcases happly with ⟨e, hs⟩ | ⟨σ, s', hs, -⟩ <;> rw [hs]
    · exact fun _ _ => rfl
    · exact fun e he => by cases he
  · rcases happly with ⟨e, hs⟩ | ⟨σ, s', hs, hseq⟩ <;> rw [hs]
    · exact fun σ hσ => by cases hσ
    · intro _ _ hroom
      rw [hseq, bumpSequence_toNat hroom]
  · rcases applyIncomingCall_cases s value with ⟨e, hs⟩ | ⟨_, _, _, hs, -⟩
      <;> rw [hs]
    · exact fun _ _ => rfl
    · exact fun e he => by cases he
  · rcases applyIncomingCall_cases s value with ⟨e, hs⟩ | ⟨_, _, _, hs, -⟩
      <;> rw [hs]
    · exact fun he => by cases he
    · exact fun _ hroom => bumpSequence_toNat hroom
  · obtain ⟨ids, seq, hs⟩ := applyIncomingCall_frame s value
    rw [hs]
    exact ⟨rfl, rfl, rfl⟩

end Callbridge.Gtbs
