/-
A control client's view never goes backwards. Whatever snapshot reaches a
client was the store's at some moment of the run (`Passed`), told by its
number while the sequence has not wrapped. A broadcast sends the store as
it is; a greeting sends the store as it was when the client was accepted,
and is the first thing the client gets.
-/
import Callbridge.Control.Proofs.RelaySteps

namespace Callbridge.Control

open Lib Protocol Gtbs

variable {r r' r₀ : Relay} {es : List ServerEvent} {tr : List RelayTrans}
  {x : RelayTrans} {σ σ' : Snapshot} {client : ClientId}

-- == snapshots of the past

/-- The snapshot was the store's at some moment of the run. -/
def Passed (tr : List RelayTrans) (r : Relay) (σ : Snapshot) : Prop :=
  (∃ z ∈ tr, σ = z.pre.store.snapshot) ∨ σ = r.store.snapshot

/-- A step passes by the store it leads to. -/
theorem passed_snoc :
    Passed (tr ++ [x]) x.post σ
      ↔ Passed tr x.pre σ ∨ σ = x.post.store.snapshot := by
  simp only [Passed, List.mem_append, List.mem_singleton]
  constructor
  · rintro (⟨z, hz | rfl, he⟩ | he)
    · exact Or.inl (Or.inl ⟨z, hz, he⟩)
    · exact Or.inl (Or.inr he)
    · exact Or.inr he
  · rintro ((⟨z, hz, he⟩ | he) | he)
    · exact Or.inl ⟨z, Or.inl hz, he⟩
    · exact Or.inl ⟨x, Or.inr rfl, he⟩
    · exact Or.inr he

/-- The store sequence has not wrapped. -/
def Unwrapped (tr : List RelayTrans) : Prop :=
  ∀ x ∈ tr, x.pre.store.sequence ≤ x.post.store.sequence

/-- A snapshot a store has left behind, told by its number. -/
structure Past (s : Store) (σ : Snapshot) : Prop where
  le : σ.sequence ≤ s.sequence
  same : σ.sequence = s.sequence → σ = s.snapshot

/-- A sequence that has not wrapped has gone up. -/
theorem lt_bumpSequence {sequence : UInt64}
    (h : sequence ≤ bumpSequence sequence) :
    sequence < bumpSequence sequence := by
  unfold bumpSequence at h ⊢
  split at h
  case isTrue hw =>
    have hmax : sequence = 0xFFFFFFFFFFFFFFFF := by
      have : sequence = 0 - 1 := by rw [← hw]; simp
      exact this
    rw [hmax] at h
    exact absurd h (by decide)
  case isFalse hw =>
    rw [if_neg hw]
    refine UInt64.lt_of_le_of_ne h fun he => ?_
    have : (1 : UInt64) = 0 := by
      have h0 := congrArg (· - sequence) he
      simpa using h0.symm
    exact absurd this (by decide)

theorem RelayMove.store (h : RelayMove r r' es) :
    r'.store.snapshot = r.store.snapshot
      ∨ r'.store.sequence = bumpSequence r.store.sequence := by
  cases h with
  | applied op _ => exact exec_snapshot r.store op
  | claimed i t => exact Or.inl (snapshot_claimCall r.store i t)
  | turned | accepted | dropped | sent => exact Or.inl rfl

/-- What was the store's stays in its past. -/
theorem Past.step (h : RelayMove r r' es) (hp : Past r.store σ)
    (hup : r.store.sequence ≤ r'.store.sequence) : Past r'.store σ := by
  rcases h.store with hs | hs
  · have hseq : r'.store.sequence = r.store.sequence :=
      congrArg Snapshot.sequence hs
    refine ⟨hseq ▸ hp.le, fun he => ?_⟩
    rw [hs]
    exact hp.same (he.trans hseq)
  · rw [hs] at hup
    have hlt : σ.sequence < r'.store.sequence := by
      rw [hs]
      exact UInt64.lt_of_le_of_lt hp.le (lt_bumpSequence hup)
    exact ⟨UInt64.le_of_lt hlt, fun he => absurd he (UInt64.ne_of_lt hlt)⟩

/-- Every snapshot that passed is in the store's past. -/
theorem passed_past (hrun : Exec relayStep r₀ tr r) (hup : Unwrapped tr) :
    ∀ {σ}, Passed tr r σ → Past r.store σ := by
  induction hrun with
  | nil =>
    rintro σ (⟨z, hz, -⟩ | rfl)
    · cases hz
    · exact ⟨UInt64.le_refl _, fun _ => rfl⟩
  | @snoc tr r r' act es _ hstep ih =>
    intro σ hσ
    have hlast := hup _ (List.mem_append_right _
      (List.mem_singleton_self _))
    rcases (passed_snoc (x := ⟨r, act, es, r'⟩)).mp hσ with hσ | rfl
    · exact (ih (fun y hy => hup y (List.mem_append_left _ hy)) hσ).step
        (RelayMove.of_step hstep) hlast
    · exact ⟨UInt64.le_refl _, fun _ => rfl⟩

/-- Two snapshots of a run with one number are one snapshot. -/
theorem passed_same (hrun : Exec relayStep r₀ tr r) (hup : Unwrapped tr) :
    ∀ {σ σ'}, Passed tr r σ → Passed tr r σ' →
      σ.sequence = σ'.sequence → σ = σ' := by
  induction hrun with
  | nil =>
    rintro σ σ' (⟨z, hz, -⟩ | rfl) (⟨z, hz, -⟩ | rfl) _
    · cases hz
    · cases hz
    · cases hz
    · rfl
  | @snoc tr r r' act es hrun hstep ih =>
    intro σ σ' hσ hσ' hseq
    have hpast := passed_past (hrun.snoc hstep) hup hσ
    have hpast' := passed_past (hrun.snoc hstep) hup hσ'
    rcases (passed_snoc (x := ⟨r, act, es, r'⟩)).mp hσ with hold | rfl
    · rcases (passed_snoc (x := ⟨r, act, es, r'⟩)).mp hσ' with hold' | rfl
      · exact ih (fun y hy => hup y (List.mem_append_left _ hy)) hold
          hold' hseq
      · exact hpast.same hseq
    · exact (hpast'.same hseq.symm).symm

-- == batches

/-- A batch, or what there is of it, is of the store as it is or of the
snapshot its client was accepted with. -/
theorem RelayMove.batch (hinv : RelayInv x.pre)
    (h : RelayMove x.pre x.post x.out) (hne : batchOf client x ≠ []) :
    x.pre.server.client = some client
      ∧ ∃ σ, batchOf client x <+: snapshotMessages x.pre.server.device σ
        ∧ (x.pre.accepting = some σ
          ∨ x.pre.accepting = none ∧ σ = x.pre.store.snapshot) := by
  rcases h.gets hinv client with ⟨hnil, -⟩ | ⟨hc, -, ms, hletter, hpre, -⟩
  · refine absurd ?_ hne
    unfold batchOf
    rw [hnil]
    rfl
  · have hstates : batchOf client x <+: statesIn (encodable ms) :=
      hpre.filter _
    rcases hletter.states hinv with hnil | ⟨σ, he, hσ⟩
    · rw [hnil] at hstates
      exact absurd (List.prefix_nil.mp hstates) hne
    · rw [he] at hstates
      exact ⟨hc, σ, hstates, hσ⟩

/-- A complete batch is the whole of it: no message before the last one is
marked. -/
theorem complete_eq {device : Bytes} {batch : List Message}
    (h : batch <+: snapshotMessages device σ) (hc : Complete batch) :
    batch = snapshotMessages device σ := by
  obtain ⟨m, hm, hmark⟩ := hc
  obtain ⟨front, last, he, -, hfront⟩ := snapshotMessages_last device σ
  rw [he] at h ⊢
  rcases List.prefix_concat_iff.mp h with hall | hpart
  · exact hall
  · have hmem : m ∈ front :=
      hpart.subset (List.mem_of_getLast? hm)
    exact absurd (hfront m hmem) hmark

-- == the view

/-- What a run has shown its clients. -/
structure Viewed (tr : List RelayTrans) (r : Relay) : Prop where
  /-- A client still to be greeted will get a snapshot of the run. -/
  accepting : ∀ {σ}, r.accepting = some σ → Passed tr r σ
  fresh : ∀ {client}, r.clients ≤ client →
    received client (events tr) = []
  quiet : ∀ {client}, r.accepting ≠ none →
    r.server.client = some client → received client (events tr) = []
  ready : ∀ {client}, r.accepting = none →
    r.server.client = some client →
    lastReady client (events tr) = some (readyCode r.server.ready)
  batches : ∀ {client x}, x ∈ tr → batchOf client x ≠ [] →
    ∃ σ, Passed tr r σ
      ∧ batchOf client x <+: snapshotMessages r.server.device σ

/-- The greeting under way is the store as it was taken. -/
theorem RelayMove.accepting (h : RelayMove r r' es)
    (hacc : r'.accepting = some σ) :
    (r.accepting = some σ ∧ r'.server.client = r.server.client)
      ∨ σ = r'.store.snapshot ∧ r'.server.client = some r.clients := by
  cases h with
  | applied | turned | claimed => exact Or.inl ⟨hacc, rfl⟩
  | accepted =>
    cases hacc
    exact Or.inr ⟨rfl, rfl⟩
  | dropped hidle =>
    have hnone : r.accepting = some σ := hacc
    rw [hidle] at hnone
    cases hnone
  | sent => cases hacc

theorem RelayMove.clients_le (h : RelayMove r r' es) :
    r.clients ≤ r'.clients := by
  cases h with
  | accepted => exact Nat.le_succ _
  | applied | turned | claimed | dropped | sent => exact Nat.le_refl _

theorem received_snoc (client : ClientId) (tr : List RelayTrans)
    (x : RelayTrans) :
    received client (events (tr ++ [x]))
      = received client (events tr) ++ received client x.out := by
  rw [events_snoc, received_append]

/-- Nothing is sent to a client that is not known, or not greeted yet. -/
theorem RelayMove.silent (hinv : RelayInv x.pre)
    (h : RelayMove x.pre x.post x.out)
    (hout : x.pre.clients ≤ client ∨ x.post.accepting ≠ none) :
    received client x.out = [] := by
  rcases h.gets hinv client with ⟨hnil, -⟩ | ⟨hc, hidle, -⟩
  · exact hnil
  · rcases hout with hle | hacc
    · exact absurd (hinv.known hc) (Nat.not_lt.mpr hle)
    · exact absurd hidle hacc

/-- Every change of the readiness reaches the client. -/
theorem lastReady_step (hinv : RelayInv x.pre)
    (h : RelayMove x.pre x.post x.out) (hv : Viewed tr x.pre)
    (hidle : x.post.accepting = none)
    (hc : x.post.server.client = some client) :
    lastReady client (events (tr ++ [x]))
      = some (readyCode x.post.server.ready) := by
  unfold lastReady
  rw [received_snoc, readinessIn, List.filter_append]
  show Option.map Message.code (readinessIn (received client (events tr))
    ++ readinessIn (received client x.out)).getLast? = _
  rcases h.gets hinv client with ⟨hnil, hsame⟩ | ⟨hthere, -, ms, hletter, -,
    hwhole⟩
  · obtain ⟨hwas, hthere, hready⟩ := hsame hidle hc
    rw [hnil, hready]
    show Option.map Message.code (_ ++ []).getLast? = _
    rw [List.append_nil]
    exact hv.ready hwas hthere
  · rw [hwhole hc]
    rcases hletter.readies hinv with ⟨sequence, he⟩ | ⟨he, hready, hwas⟩
    · rw [he, List.getLast?_concat]
      rfl
    · rw [he, List.append_nil, hready]
      exact hv.ready hwas hthere

/-- Every move keeps the client's view. -/
theorem Viewed.snoc (hinv : RelayInv x.pre)
    (h : RelayMove x.pre x.post x.out) (hv : Viewed tr x.pre) :
    Viewed (tr ++ [x]) x.post := by
  refine ⟨?_, ?_, ?_, lastReady_step hinv h hv, ?_⟩
  · intro σ hacc
    rcases h.accepting hacc with ⟨hwas, -⟩ | ⟨hnow, -⟩
    · exact passed_snoc.mpr (Or.inl (hv.accepting hwas))
    · exact passed_snoc.mpr (Or.inr hnow)
  · intro client hle
    have hle' := Nat.le_trans h.clients_le hle
    rw [received_snoc, hv.fresh hle', h.silent hinv (Or.inl hle')]
    rfl
  · intro client hacc hc
    have hbefore : received client (events tr) = [] := by
      obtain ⟨σ, hσ⟩ := Option.ne_none_iff_exists'.mp hacc
      rcases h.accepting hσ with ⟨hwas, hsame⟩ | ⟨-, hnew⟩
      · exact hv.quiet (Option.ne_none_iff_exists'.mpr ⟨_, hwas⟩) (hsame ▸ hc)
      · rw [hnew] at hc
        cases hc
        exact hv.fresh (Nat.le_refl _)
    rw [received_snoc, hbefore, h.silent hinv (Or.inr hacc)]
    rfl
  · intro client y hy hne
    rw [h.device]
    rcases List.mem_append.mp hy with hy | hy
    · obtain ⟨σ, hσ, hpre⟩ := hv.batches hy hne
      exact ⟨σ, passed_snoc.mpr (Or.inl hσ), hpre⟩
    · obtain rfl := List.mem_singleton.mp hy
      obtain ⟨-, σ, hpre, hσ⟩ := h.batch hinv hne
      refine ⟨σ, passed_snoc.mpr (Or.inl ?_), hpre⟩
      rcases hσ with hacc | ⟨-, rfl⟩
      · exact hv.accepting hacc
      · exact Or.inr rfl

/-- So does every run. -/
theorem run_viewed (hrun : Exec relayStep r₀ tr r) (h₀ : RelayInv r₀)
    (hnobody : r₀.server.client = none) (hidle : r₀.accepting = none) :
    Viewed tr r := by
  induction hrun with
  | nil =>
    refine ⟨fun h => ?_, fun _ => rfl, fun _ _ => rfl, fun _ h => ?_, nofun⟩
    · rw [hidle] at h
      cases h
    · rw [hnobody] at h
      cases h
  | @snoc tr r r' act es hrun hstep ih =>
    exact Viewed.snoc (x := ⟨r, act, es, r'⟩) (run_relayInv hrun h₀)
      (RelayMove.of_step hstep) ih

-- == the order

theorem batchOf_sequence {device : Bytes} {m : Message}
    (hpre : batchOf client x <+: snapshotMessages device σ)
    (hm : m ∈ batchOf client x) : m.sequence = σ.sequence :=
  (snapshotMessages_spec (hpre.subset hm)).2.2

/-- A state message a client has received is of a snapshot of the run. -/
theorem Viewed.state (hv : Viewed tr r) {m : Message}
    (hm : m ∈ statesIn (received client (events tr))) :
    ∃ σ, Passed tr r σ ∧ m.sequence = σ.sequence := by
  obtain ⟨hmem, hstate⟩ := List.mem_filter.mp hm
  obtain ⟨e, he, hread⟩ := List.mem_filterMap.mp hmem
  obtain ⟨x, hx, hex⟩ := List.mem_flatMap.mp he
  have hbatch : m ∈ batchOf client x :=
    List.mem_filter.mpr ⟨List.mem_filterMap.mpr ⟨e, hex, hread⟩, hstate⟩
  obtain ⟨σ, hσ, hpre⟩ := hv.batches hx (List.ne_nil_of_mem hbatch)
  exact ⟨σ, hσ, batchOf_sequence hpre hbatch⟩

/-- The numbers of the state messages a client receives never decrease. -/
theorem states_ascend (hrun : Exec relayStep r₀ tr r) (h₀ : RelayInv r₀)
    (hnobody : r₀.server.client = none) (hidle : r₀.accepting = none)
    (hup : Unwrapped tr) (client : ClientId) :
    (statesIn (received client (events tr))).Pairwise
      fun m m' => m.sequence ≤ m'.sequence := by
  induction hrun with
  | nil => exact List.Pairwise.nil
  | @snoc tr r r' act es hrun hstep ih =>
    have hup' : Unwrapped tr := fun y hy =>
      hup y (List.mem_append_left _ hy)
    have hv := run_viewed hrun h₀ hnobody hidle
    rw [received_snoc, statesIn, List.filter_append]
    show (statesIn (received client (events tr))
      ++ batchOf client ⟨r, act, es, r'⟩).Pairwise _
    by_cases hne : batchOf client ⟨r, act, es, r'⟩ = []
    · rw [hne, List.append_nil]
      exact ih hup'
    · obtain ⟨hc, σ, hpre, hσ⟩ := RelayMove.batch
        (x := ⟨r, act, es, r'⟩) (run_relayInv hrun h₀)
        (RelayMove.of_step hstep) hne
      refine List.pairwise_append.mpr ⟨ih hup', ?_, ?_⟩
      · refine List.pairwise_of_forall_mem_list fun m hm m' hm' => ?_
        rw [batchOf_sequence hpre hm, batchOf_sequence hpre hm']
        exact UInt64.le_refl _
      · intro m hm m' hm'
        rw [batchOf_sequence hpre hm']
        rcases hσ with hacc | ⟨-, rfl⟩
        · -- a client that is being greeted has received nothing yet
          have hgreeted : r.accepting ≠ none :=
            Option.ne_none_iff_exists'.mpr ⟨_, hacc⟩
          rw [hv.quiet hgreeted hc] at hm
          cases hm
        · obtain ⟨σ₀, hpast, hseq⟩ := hv.state hm
          rw [hseq]
          exact (passed_past hrun hup' hpast).le

/-- For every interleaving of the GTBS goroutine, the claims and the
server's accepts and drops that does not wrap the sequence: the numbers of
the state messages one client receives never decrease; two complete
batches with one number are the same messages, and so the same calls; and
outside `accept` the last readiness the connected client has received is
the server's. -/
theorem view_never_goes_back {address : Bytes} {clock now : UInt64}
    {server : Server} (h₀ : newServer address clock = some server)
    (hrun : Exec relayStep (newRelay server now) tr r)
    (hup : Unwrapped tr) :
    (∀ client, (statesIn (received client (events tr))).Pairwise
      fun m m' => m.sequence ≤ m'.sequence)
    ∧ (∀ client client' x y, x ∈ tr → y ∈ tr →
      Complete (batchOf client x) → Complete (batchOf client' y) →
      (∃ m ∈ batchOf client x, ∃ m' ∈ batchOf client' y,
        m.sequence = m'.sequence) →
      batchOf client x = batchOf client' y)
    ∧ ∀ client, r.accepting = none → r.server.client = some client →
      lastReady client (events tr) = some (readyCode r.server.ready) := by
  have hinv := newRelay_inv h₀ now
  have hnobody : (newRelay server now).server.client = none := by
    unfold newServer at h₀
    split at h₀
    case isTrue => cases h₀
    case isFalse =>
      cases h₀
      rfl
  have hv := run_viewed hrun hinv hnobody rfl
  refine ⟨states_ascend hrun hinv hnobody rfl hup, ?_,
    fun client hidle hc => hv.ready hidle hc⟩
  rintro client client' x y hx hy hcx hcy ⟨m, hm, m', hm', hseq⟩
  obtain ⟨σ, hσ, hpre⟩ := hv.batches hx (List.ne_nil_of_mem hm)
  obtain ⟨σ', hσ', hpre'⟩ := hv.batches hy (List.ne_nil_of_mem hm')
  rw [batchOf_sequence hpre hm, batchOf_sequence hpre' hm'] at hseq
  rw [complete_eq hpre hcx, complete_eq hpre' hcy,
    passed_same hrun hup hσ hσ' hseq]

/-- A client is accepted between a call's arrival and its broadcast, gets
both, and then the readiness and the call's answer. -/
def acceptedBetween : List RelayAct :=
  [.start [1, 0, 0], .take, .accept, .greet [], .broadcast [],
    .announce true, .callState [1, 3, 0], .broadcast []]

/-- The last thing the client knows of the readiness is right. -/
theorem view_never_goes_back_between :
    ∃ server, newServer (upperAddress [0, 0x11, 0x22, 0x33, 0x44, 0x55]) 5
        = some server
      ∧ ∃ tr r, Exec relayStep (newRelay server 7) tr r ∧ Unwrapped tr
        ∧ ((events tr).length = 5 ∧ r.server.ready = true)
        ∧ lastReady 0 (events tr) = some 1 := by
  obtain ⟨server, hserver, tr, r, hexec, hup, hseen, hidle, hclient⟩ :
      ∃ server, newServer (upperAddress [0, 0x11, 0x22, 0x33, 0x44, 0x55]) 5
          = some server
        ∧ ∃ tr r, Exec relayStep (newRelay server 7) tr r
          ∧ (∀ x ∈ tr, x.pre.store.sequence ≤ x.post.store.sequence)
          ∧ ((events tr).length = 5 ∧ r.server.ready = true)
          ∧ r.accepting = none ∧ r.server.client = some 0 :=
    ⟨_, rfl, exec_of_decide _ _ acceptedBetween _ (by decide +kernel)⟩
  refine ⟨server, hserver, tr, r, hexec, hup, hseen, ?_⟩
  rw [(view_never_goes_back hserver hexec hup).2.2 0 hidle hclient, hseen.2]
  rfl

end Callbridge.Control
