/-
What of the store can be put on the wire. An entry of a Call State value
is refused unless it meets the bounds of a state message, tokens are never
zero, and a caller URI is reduced to a short dialable string or to
nothing. `Sendable` says so of a whole store, and every method keeps it.
-/
import Callbridge.Gtbs.Proofs.CallState
import Callbridge.Gtbs.Proofs.StoreInv

namespace Callbridge.Gtbs

open Lib Protocol

variable {s s' : Store}

-- == what the parser accepts

/-- An entry the parser lets through. -/
structure Call.WellFormed (c : Call) : Prop where
  index_ne : c.index ≠ 0
  state_le : c.state ≤ stateLocallyRemotelyHeld
  flags_known : c.flags &&& ~~~knownFlags = 0

theorem parseCallState_wellFormed {value : Bytes} {parsed : List Call}
    (h : parseCallState value = .ok parsed) {c : Call} (hc : c ∈ parsed) :
    c.WellFormed := by
  obtain ⟨hacc, rfl⟩ := parseCallState_iff.mp h
  have hentry := hacc.entry c ((sortCalls_perm _).mem_iff.mp hc)
  exact ⟨hentry.index, hentry.state, (flags_known c.flags).mpr hentry.flags⟩

-- == identities

/-- An identity without a name whose URI is short and dialable. -/
structure Dialable (identity : Identity) : Prop where
  nameless : identity.name = []
  short : identity.uri.length ≤ identityURIMax
  characters : ∀ c ∈ identity.uri, dialable c = true

theorem dialable_zero : Dialable Identity.zero :=
  ⟨rfl, Nat.zero_le _, nofun⟩

/-- Whatever the phone sends, what is kept of a URI is dialable. -/
theorem stripURIScheme_dialable (raw : Bytes) :
    Dialable ⟨stripURIScheme raw, []⟩ := by
  unfold stripURIScheme
  generalize trimSpace (beforeAny [0x3b, 0x3f]
    (afterByte 0x3a (trimSpace raw))) = trimmed
  show Dialable ⟨if trimmed = [] ∨ trimmed.length > identityURIMax then []
    else if trimmed.all dialable then trimmed else [], []⟩
  split
  case isTrue => exact dialable_zero
  case isFalse hbound =>
    split
    case isTrue hall =>
      exact ⟨rfl, Nat.le_of_not_lt (not_or.mp hbound).2,
        List.all_eq_true.mp hall⟩
    case isFalse => exact dialable_zero

-- == sendable

structure Sendable (s : Store) : Prop where
  index_eq : ∀ {i c}, s.calls.lookup i = some c → c.index = i
  call_ok : ∀ {i c}, s.calls.lookup i = some c →
    c.WellFormed ∧ c.token ≠ 0
  identity_ok : ∀ {i identity}, s.identities.lookup i = some identity →
    Dialable identity
  seed_ne : s.seed ≠ 0
  sequence_ne : s.sequence ≠ 0

theorem bumpSequence_ne (sequence : UInt64) : bumpSequence sequence ≠ 0 := by
  unfold bumpSequence
  split
  case isTrue => decide
  case isFalse h => exact h

theorem newStore_sendable (now : UInt64) : Sendable (newStore now) := by
  have hseed := (newStore_inv now).seed_ne
  exact ⟨by simp [newStore], by simp [newStore], by simp [newStore], hseed,
    hseed⟩

theorem Sendable.identityAt (h : Sendable s) (index : UInt8) :
    Dialable (identityAt s.identities index) := by
  unfold Gtbs.identityAt
  cases hl : s.identities.lookup index with
  | none => exact dialable_zero
  | some identity => exact h.identity_ok hl

/-- Well-formed entries leave the store sendable. -/
theorem Sendable.replaceCalls (h : Sendable s) {parsed : List Call}
    (hp : ∀ c ∈ parsed, c.WellFormed) :
    Sendable (s.replaceCalls parsed) := by
  obtain ⟨has, hseed, -⟩ := replaceCalls_spec s parsed
  refine ⟨?_, ?_, ?_, hseed ▸ h.seed_ne, bumpSequence_ne _⟩
  · intro i c hc
    obtain ⟨c₀, -, hidx, heq⟩ := has.entry hc
    rw [heq]
    exact hidx
  · intro i c hc
    obtain ⟨c₀, hmem, -, heq⟩ := has.entry hc
    have hwell := hp c₀ hmem
    refine ⟨by rw [heq]; exact ⟨hwell.1, hwell.2, hwell.3⟩, ?_⟩
    cases hl : s.calls.lookup i with
    | some prior =>
      rw [has.kept hc hl]
      exact (h.call_ok hl).2
    | none => exact fun h0 => has.issued hc hl (Or.inl h0)
  · intro i identity hid
    exact h.identity_ok (identities_replaceCalls hid).1

/-- Every method keeps the store sendable. -/
theorem Sendable.exec (h : Sendable s) (op : StoreOp) :
    Sendable (s.exec op) := by
  cases op with
  | apply value =>
    cases hp : parseCallState value with
    | error e =>
      simp only [Store.exec, apply_error hp]
      exact h
    | ok parsed =>
      simp only [Store.exec, apply_ok hp]
      exact h.replaceCalls fun c => parseCallState_wellFormed hp
  | applyIncomingCall value =>
    rcases applyIncomingCall_cases s value with ⟨e, hs⟩
      | ⟨index, raw, ids, hs, hids⟩
    · simp only [Store.exec, hs]
      exact h
    · simp only [Store.exec, hs]
      refine ⟨h.index_eq, h.call_ok, ?_, h.seed_ne, bumpSequence_ne _⟩
      intro i identity hid
      rcases hids with rfl | rfl
      · rw [GoMap.lookup_erase] at hid
        split at hid
        case isTrue => cases hid
        case isFalse => exact h.identity_ok hid
      · rw [GoMap.lookup_insert] at hid
        split at hid
        case isTrue =>
          cases hid
          rw [(h.identityAt index).nameless]
          exact stripURIScheme_dialable raw
        case isFalse => exact h.identity_ok hid
  | claimCall i t =>
    simp only [Store.exec]
    rcases claimCall_cases s i t with hs | ⟨c, -, -, -, hs⟩
    · rw [hs]
      exact h
    · rw [hs]
      exact ⟨h.index_eq, h.call_ok, h.identity_ok, h.seed_ne,
        h.sequence_ne⟩

theorem run_sendable {now : UInt64} {tr : List StoreTrans}
    (h : Exec storeStep (newStore now) tr s) : Sendable s := by
  refine h.inv (newStore_sendable now) ?_
  intro s op s' es hs hstep
  rw [storeStep_eq hstep]
  exact hs.exec op

-- == snapshots

/-- A call as a snapshot lists it. -/
structure Listed (c : Call) : Prop where
  wellFormed : c.WellFormed
  token_ne : c.token ≠ 0
  identity : Dialable c.identity

theorem Sendable.listed (h : Sendable s) {c : Call}
    (hc : c ∈ s.snapshot.calls) : Listed c := by
  obtain ⟨⟨i, call⟩, hmem, rfl⟩ := List.mem_map.mp hc
  obtain ⟨hwell, htok⟩ := h.call_ok (GoMap.mem_sorted.mp hmem)
  exact ⟨⟨hwell.1, hwell.2, hwell.3⟩, htok, h.identityAt _⟩

/-- A snapshot lists its calls in ascending index order. -/
theorem Sendable.ascending (h : Sendable s) :
    s.snapshot.calls.Pairwise fun c d => c.index < d.index := by
  have hsnap : s.snapshot.calls = s.calls.sorted.map fun e =>
      { e.2 with identity := Gtbs.identityAt s.identities e.2.index } := rfl
  rw [hsnap, List.pairwise_map]
  refine s.calls.sorted_ascending.imp_of_mem ?_
  intro e f he hf hlt
  have hei := h.index_eq (GoMap.mem_sorted.mp he)
  have hfi := h.index_eq (GoMap.mem_sorted.mp hf)
  rw [hei, hfi]
  exact UInt8.lt_of_le_of_ne hlt.1 hlt.2

theorem snapshot_claimCall (s : Store) (index : UInt8) (token : UInt64) :
    (s.claimCall index token).snapshot = s.snapshot := by
  rcases claimCall_cases s index token with h | ⟨c, -, -, -, h⟩ <;> rw [h]
  rfl

/-- Every change a snapshot shows spends a sequence number. -/
theorem exec_snapshot (s : Store) (op : StoreOp) :
    (s.exec op).snapshot = s.snapshot
      ∨ (s.exec op).sequence = bumpSequence s.sequence := by
  cases op with
  | apply value =>
    cases hp : parseCallState value with
    | error e => exact Or.inl (by simp only [Store.exec, apply_error hp])
    | ok parsed =>
      right
      simp only [Store.exec, apply_ok hp]
      rfl
  | applyIncomingCall value =>
    rcases applyIncomingCall_cases s value with ⟨e, hs⟩
      | ⟨index, raw, ids, hs, -⟩
    · exact Or.inl (by simp only [Store.exec, hs])
    · exact Or.inr (by simp only [Store.exec, hs])
  | claimCall i t => exact Or.inl (snapshot_claimCall s i t)

end Callbridge.Gtbs
