/-
What the GTBS client emits is numbered upwards, over all its sessions:
between two emissions the goroutine passes a successful `Apply` or
`ApplyIncomingCall`, each of which takes the next sequence number
(`NewsMove`). A value that changes nothing is refused, and brings no
snapshot.
-/
import Callbridge.Control.Proofs.ClientView
import Callbridge.Gtbs.Proofs.Identities

namespace Callbridge.Control

open Lib Protocol Gtbs

variable {r r' r₀ : Relay} {es : List ServerEvent} {tr : List RelayTrans}
  {x : RelayTrans} {σ : Snapshot} {act : RelayAct}

-- == emissions

/-- The snapshot the client hands to its callback in this step. -/
def emission (x : RelayTrans) : Option Snapshot :=
  match x.act with
  | .broadcast _ => x.pre.feed.held
  | _ => none

/-- The snapshots the client has emitted, in order. -/
def emitted (tr : List RelayTrans) : List Snapshot :=
  tr.filterMap emission

/-- The store has been changed and the goroutine is on its way to say
so. -/
def Feed.news : Feed → Bool
  | .started | .identified | .refreshing | .holding _ _ => true
  | .down | .announcing | .up | .leaving => false

/-- What a step does to the news. -/
inductive NewsMove (x : RelayTrans) : Prop
  | kept : emission x = none →
      x.post.store.sequence = x.pre.store.sequence →
      (x.post.feed.news = true → x.pre.feed.news = true) → NewsMove x
  | numbered : emission x = none →
      x.post.store.sequence = bumpSequence x.pre.store.sequence → NewsMove x
  | emitted {σ : Snapshot} : emission x = some σ →
      x.pre.feed.held = some σ → x.post.store = x.pre.store →
      x.post.feed.news = false → NewsMove x

/-- A Call State value, applied or refused. -/
theorem NewsMove.of_calls {value : Bytes} {failed : Feed}
    {applied : Snapshot → Feed} (hquiet : emission ⟨r, act, es, r'⟩ = none)
    (hpost : r' = r.applyCalls value failed applied)
    (hfailed : failed.news = false) : NewsMove ⟨r, act, es, r'⟩ := by
  subst hpost
  cases hp : parseCallState value with
  | error e =>
    refine .kept hquiet ?_ ?_
    · simp only [Relay.applyCalls, apply_error hp]
    · simp only [Relay.applyCalls, apply_error hp, hfailed]
      exact fun h => absurd h Bool.false_ne_true
  | ok parsed =>
    refine .numbered hquiet ?_
    simp only [Relay.applyCalls, apply_ok hp]
    rfl

/-- An Incoming Call value, applied or refused. -/
theorem NewsMove.of_identity {value : Bytes} {failed applied : Feed}
    (hquiet : emission ⟨r, act, es, r'⟩ = none)
    (hpost : r' = r.applyIdentity value failed applied)
    (hfailed : failed.news = true → r.feed.news = true) :
    NewsMove ⟨r, act, es, r'⟩ := by
  subst hpost
  rcases applyIncomingCall_cases r.store value with ⟨e, hs⟩
    | ⟨_, _, ids, hs, -⟩
  · refine .kept hquiet ?_ ?_
    · simp only [Relay.applyIdentity, hs]
    · simpa only [Relay.applyIdentity, hs] using hfailed
  · refine .numbered hquiet ?_
    simp only [Relay.applyIdentity, hs]

/-- The steps of the GTBS goroutine. -/
theorem NewsMove.of_feedStep (h : feedStep r r.feed act = some (r', es)) :
    NewsMove ⟨r, act, es, r'⟩ := by
  generalize hfeed : r.feed = feed at h
  cases feed with
  | down =>
    cases act with
    | start value =>
      cases h
      exact .of_calls rfl rfl rfl
    | _ => cases h
  | started =>
    cases act with
    | identify value =>
      cases h
      exact .of_identity rfl rfl fun _ => by rw [hfeed]; rfl
    | take =>
      cases h
      exact .kept rfl rfl fun _ => by rw [hfeed]; rfl
    | _ => cases h
  | identified | refreshing =>
    cases act with
    | take =>
      cases h
      exact .kept rfl rfl fun _ => by rw [hfeed]; rfl
    | _ => cases h
  | holding snapshot first =>
    cases act with
    | broadcast oks =>
      obtain ⟨hidle, h⟩ := Option.ite_none_right_eq_some.mp h
      cases h
      -- the only step that sends a snapshot
      have hheld : r.feed.held = some snapshot := by
        rw [hfeed]
        rfl
      refine .emitted (σ := snapshot) hheld hheld rfl ?_
      cases first with
      | true => rfl
      | false => rfl
    | _ => cases h
  | announcing =>
    cases act with
    | announce ok =>
      obtain ⟨-, h⟩ := Option.ite_none_right_eq_some.mp h
      cases h
      exact .kept rfl rfl fun hnews => by cases hnews
    | _ => cases h
  | up =>
    cases act with
    | callState value =>
      cases h
      exact .of_calls rfl rfl rfl
    | incomingCall value =>
      cases h
      exact .of_identity rfl rfl fun hnews => by cases hnews
    | result opcode index result token ok =>
      obtain ⟨-, h⟩ := Option.ite_none_right_eq_some.mp h
      cases h
      exact .kept rfl rfl fun hnews => by cases hnews
    | leave =>
      cases h
      exact .kept rfl rfl fun hnews => by cases hnews
    | _ => cases h
  | leaving =>
    cases act with
    | withdraw ok =>
      obtain ⟨-, h⟩ := Option.ite_none_right_eq_some.mp h
      cases h
      exact .kept rfl rfl fun hnews => by cases hnews
    | _ => cases h

/-- Every step is one of the moves. -/
theorem NewsMove.of_step (h : relayStep r act = some (r', es)) :
    NewsMove ⟨r, act, es, r'⟩ := by
  cases act with
  | claim index token =>
    cases h
    refine .kept rfl ?_ id
    exact congrArg Snapshot.sequence
      (snapshot_claimCall r.store index token)
  | accept | acknowledge | drop =>
    obtain ⟨-, h⟩ := Option.ite_none_right_eq_some.mp h
    cases h
    exact .kept rfl rfl id
  | greet oks =>
    unfold relayStep at h
    cases hacc : r.accepting with
    | none =>
      rw [hacc] at h
      cases h
    | some snapshot =>
      rw [hacc] at h
      cases h
      exact .kept rfl rfl id
  | start | identify | callState | incomingCall | result | take | broadcast
  | announce | leave | withdraw => exact .of_feedStep h

-- == numbers

/-- Everything emitted is numbered below the news, or at most as the
store when there is none. -/
structure Announced (tr : List RelayTrans) (r : Relay) : Prop where
  ascending : (emitted tr).Pairwise fun σ σ' => σ.sequence < σ'.sequence
  le : ∀ σ ∈ emitted tr, σ.sequence ≤ r.store.sequence
  lt : r.feed.news = true → ∀ σ ∈ emitted tr,
    σ.sequence < r.store.sequence

theorem emitted_snoc (tr : List RelayTrans) (x : RelayTrans) :
    emitted (tr ++ [x]) = emitted tr ++ (emission x).toList := by
  unfold emitted
  cases h : emission x <;> simp [h]

theorem emitted_quiet (h : emission x = none) :
    emitted (tr ++ [x]) = emitted tr := by
  rw [emitted_snoc, h]
  exact List.append_nil _

/-- Every move keeps the emissions numbered upwards. -/
theorem Announced.snoc (h : Announced tr x.pre)
    (hheld : Holds x.pre.feed x.pre.store.snapshot) (hmove : NewsMove x)
    (hup : x.pre.store.sequence ≤ x.post.store.sequence) :
    Announced (tr ++ [x]) x.post := by
  cases hmove with
  | kept hnone hseq hnews =>
    refine ⟨?_, ?_, ?_⟩ <;> rw [emitted_quiet hnone]
    · exact h.ascending
    · rw [hseq]
      exact h.le
    · rw [hseq]
      exact fun hpost => h.lt (hnews hpost)
  | numbered hnone hseq =>
    -- the store moved on, past everything sent
    have hlt : ∀ σ ∈ emitted tr, σ.sequence < x.post.store.sequence := by
      intro σ hσ
      rw [hseq] at hup ⊢
      exact UInt64.lt_of_le_of_lt (h.le σ hσ) (lt_bumpSequence hup)
    refine ⟨?_, ?_, ?_⟩ <;> rw [emitted_quiet hnone]
    · exact h.ascending
    · exact fun σ hσ => UInt64.le_of_lt (hlt σ hσ)
    · exact fun _ => hlt
  | @emitted σ hsome hσ hstore hnews =>
    -- the snapshot held is the store as it is now
    have hnow : σ = x.pre.store.snapshot := by
      rcases hheld with hnone | hthis
      · rw [hσ] at hnone
        cases hnone
      · rw [hσ] at hthis
        cases hthis
        rfl
    have hpre : x.pre.feed.news = true := by
      cases hf : x.pre.feed with
      | holding => rfl
      | down | started | identified | refreshing | announcing | up
      | leaving =>
        rw [hf] at hσ
        cases hσ
    have hall := h.lt hpre
    refine ⟨?_, ?_, ?_⟩
    · rw [emitted_snoc, hsome, List.pairwise_append]
      refine ⟨h.ascending, List.pairwise_singleton _ _, ?_⟩
      intro σ₀ hσ₀ σ' hσ'
      rw [List.mem_singleton.mp hσ', hnow]
      exact hall σ₀ hσ₀
    · rw [emitted_snoc, hsome, hstore]
      intro σ₀ hσ₀
      rcases List.mem_append.mp hσ₀ with hold | hnew
      · exact h.le σ₀ hold
      · rw [List.mem_singleton.mp hnew, hnow]
        exact UInt64.le_refl _
    · intro hpost
      rw [hnews] at hpost
      cases hpost

/-- So does every run that has not wrapped. -/
theorem run_announced {server : Server} {now : UInt64}
    (hrun : Exec relayStep (newRelay server now) tr r)
    (hup : Unwrapped tr) : Announced tr r := by
  have hheld : ∀ {tr r}, Exec relayStep (newRelay server now) tr r →
      Holds r.feed r.store.snapshot := by
    intro tr r hrun
    exact hrun.inv (P := fun r => Holds r.feed r.store.snapshot)
      (Or.inl rfl) fun h hstep => (RelayMove.of_step hstep).held h
  induction hrun with
  | nil =>
    refine ⟨List.Pairwise.nil, ?_, ?_⟩
    · intro σ hσ
      cases hσ
    · intro _ σ hσ
      cases hσ
  | @snoc tr r r' act es hrun hstep ih =>
    have hup' : Unwrapped tr := fun y hy =>
      hup y (List.mem_append_left _ hy)
    exact (ih hup').snoc (x := ⟨r, act, es, r'⟩) (hheld hrun)
      (NewsMove.of_step hstep) (hup _ (List.mem_append_right _
        (List.mem_singleton_self _)))

/-- Every update of a store that can be reached is all or nothing and
takes the next number, and so the snapshots the client emits, over all its
sessions, are numbered upwards. -/
theorem store_updates_numbered {now : UInt64} {s : Store}
    {ops : List StoreTrans} (hrun : Exec storeStep (newStore now) ops s) :
    (∀ value, Updates s value)
      ∧ ∀ server clock tr r,
          Exec relayStep (newRelay server clock) tr r → Unwrapped tr →
          (emitted tr).Pairwise fun σ σ' => σ.sequence < σ'.sequence := by
  refine ⟨fun value => (run_identified hrun).updates value, ?_⟩
  intro server clock tr r hrelay hup
  exact (run_announced hrelay hup).ascending

/-- A store with a call whose caller is known; the same number again is
refused. -/
theorem store_updates_numbered_repeat :
    ∃ ops s, Exec storeStep (newStore 7) ops s
      ∧ identityAt s.identities 1 = ⟨[0x35], []⟩
      ∧ (s.applyIncomingCall [1, 0x35]).1 = .error .identityUnchanged
      ∧ (s.applyIncomingCall [1, 0x35]).2 = s := by
  obtain ⟨ops, s, hrun, hid, hrefused⟩ := exec_of_decide storeStep (newStore 7)
      [.apply [1, 0, 0], .applyIncomingCall [1, 0x35]]
      (fun _ s => identityAt s.identities 1 = ⟨[0x35], []⟩
        ∧ (s.applyIncomingCall [1, 0x35]).1 = .error .identityUnchanged)
      (by decide +kernel)
  exact ⟨ops, s, hrun, hid, hrefused,
    ((store_updates_numbered hrun).1 [1, 0x35]).identity_refused _ hrefused⟩

end Callbridge.Control
