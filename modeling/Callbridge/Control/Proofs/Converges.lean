/-
No update of the calls is lost on the way to a control client. A change
of the calls is news until it is broadcast, and only a broadcast ends news
(`Told`); a client accepted meanwhile is greeted with a snapshot that is
the store's unless there is news.
-/
import Callbridge.Control.Proofs.Emitted

namespace Callbridge.Control

open Lib Protocol Gtbs

variable {r r' : Relay} {es : List ServerEvent} {tr : List RelayTrans}
  {act : RelayAct} {client : ClientId}

-- == news ends with a broadcast

/-- A step after which there is no news: a broadcast, or one that leaves
the calls as they are and finds no news. -/
inductive Told (r r' : Relay) (es : List ServerEvent) : Prop
  | broadcast {σ : Snapshot} {first : Bool} : r.accepting = none →
      r.feed = .holding σ first → r'.accepting = none →
      r'.store = r.store →
      Delivers r.server
        (encodable (snapshotMessages r.server.device σ)) r'.server es →
      Told r r' es
  | quiet : r.feed.news = false →
      r'.store.snapshot = r.store.snapshot → Told r r' es

/-- An applied value is news to be told. -/
theorem Told.of_calls {value : Bytes} {failed : Feed}
    {applied : Snapshot → Feed} (hpre : r.feed.news = false)
    (happlied : ∀ σ, (applied σ).news = true)
    (h : (r.applyCalls value failed applied).feed.news = false) :
    Told r (r.applyCalls value failed applied) es := by
  refine .quiet hpre ?_
  unfold Relay.applyCalls at h ⊢
  cases hp : parseCallState value with
  | error e => simp only [apply_error hp]
  | ok parsed =>
    simp only [apply_ok hp, happlied] at h
    cases h

/-- So is a changed identity. -/
theorem Told.of_identity {value : Bytes} {failed applied : Feed}
    (hpre : failed.news = false → r.feed.news = false)
    (happlied : applied.news = true)
    (h : (r.applyIdentity value failed applied).feed.news = false) :
    Told r (r.applyIdentity value failed applied) es := by
  unfold Relay.applyIdentity at h ⊢
  rcases applyIncomingCall_cases r.store value with ⟨e, hs⟩
    | ⟨_, _, ids, hs, -⟩ <;> simp only [hs] at h ⊢
  · exact .quiet (hpre h) rfl
  · rw [happlied] at h
    cases h

/-- The GTBS goroutine is rid of its news by telling it. -/
theorem Told.of_feedStep (h : feedStep r r.feed act = some (r', es))
    (hnews : r'.feed.news = false) : Told r r' es := by
  generalize hfeed : r.feed = feed at h
  have hpre : feed.news = false → r.feed.news = false := (hfeed ▸ id)
  cases feed with
  | down =>
    cases act with
    | start value =>
      cases h
      exact .of_calls (hpre rfl) (fun _ => rfl) hnews
    | _ => cases h
  | started =>
    cases act with
    | identify value =>
      cases h
      exact .of_identity (fun h => by cases h) rfl hnews
    -- a snapshot just taken is news
    | take => cases h; cases hnews
    | _ => cases h
  | identified | refreshing =>
    cases act with
    | take => cases h; cases hnews
    | _ => cases h
  | holding σ first =>
    cases act with
    | broadcast oks =>
      obtain ⟨hidle, h⟩ := Option.ite_none_right_eq_some.mp h
      cases h
      exact .broadcast hidle hfeed hidle rfl
        (sendMessagesLocked_delivers r.server _ oks)
    | _ => cases h
  | up =>
    cases act with
    | callState value =>
      cases h
      exact .of_calls (hpre rfl) (fun _ => rfl) hnews
    | incomingCall value =>
      cases h
      exact .of_identity (fun _ => hpre rfl) rfl hnews
    | result =>
      obtain ⟨-, h⟩ := Option.ite_none_right_eq_some.mp h
      cases h
      exact .quiet (hpre rfl) rfl
    | leave =>
      cases h
      exact .quiet (hpre rfl) rfl
    | _ => cases h
  | announcing =>
    cases act with
    | announce =>
      obtain ⟨-, h⟩ := Option.ite_none_right_eq_some.mp h
      cases h
      exact .quiet (hpre rfl) rfl
    | _ => cases h
  | leaving =>
    cases act with
    | withdraw =>
      obtain ⟨-, h⟩ := Option.ite_none_right_eq_some.mp h
      cases h
      exact .quiet (hpre rfl) rfl
    | _ => cases h

/-- A step that ends without news has told it. -/
theorem Told.of_step (h : relayStep r act = some (r', es))
    (hnews : r'.feed.news = false) : Told r r' es := by
  cases act with
  | claim index token =>
    cases h
    exact .quiet hnews (snapshot_claimCall r.store index token)
  | accept | acknowledge | drop =>
    obtain ⟨-, h⟩ := Option.ite_none_right_eq_some.mp h
    cases h
    exact .quiet hnews rfl
  | greet oks =>
    unfold relayStep at h
    cases hacc : r.accepting with
    | none =>
      rw [hacc] at h
      cases h
    | some snapshot =>
      rw [hacc] at h
      cases h
      exact .quiet hnews rfl
  | _ => exact .of_feedStep h hnews

-- == what clients have been shown

/-- While there is no news, an accepted client is about to be sent the
store's snapshot, and a greeted one was sent it last. -/
structure Shown (tr : List RelayTrans) (r : Relay) : Prop where
  pending : r.feed.news = false → ∀ {σ}, r.accepting = some σ →
    σ = r.store.snapshot
  shown : r.feed.news = false → r.accepting = none →
    ∀ {client}, r.server.client = some client →
      snapshotMessages r.server.device r.store.snapshot
        <:+ statesIn (received client (events tr))

theorem statesIn_append (ms ms' : List Message) :
    statesIn (ms ++ ms') = statesIn ms ++ statesIn ms' :=
  List.filter_append ..

/-- A letter with no state in it greets nobody. -/
theorem Letter.idle {ms : List Message} {ready : Bool} (hinv : RelayInv r)
    (h : Letter r ready ms) (hnone : statesIn (encodable ms) = []) :
    r.accepting = none := by
  cases h with
  | calls hidle | readiness hidle | other hidle => exact hidle
  | @greeting σ sequence hacc =>
    obtain ⟨s, hs, rfl⟩ := hinv.accepting hacc
    rw [encodable, List.filter_append, ← encodable,
      hinv.encodable_batch hs, statesIn_append, statesIn_snapshotMessages,
      List.append_eq_nil_iff] at hnone
    obtain ⟨front, last, he, -⟩ :=
      snapshotMessages_last r.server.device s.snapshot
    rw [he] at hnone
    simp at hnone

/-- A step that finds no news and brings none. -/
theorem Shown.quiet (hinv : RelayInv r) (h : Shown tr r)
    (hmove : RelayMove r r' es) (hnews : r.feed.news = false)
    (hidle : r'.accepting = none) (hc : r'.server.client = some client) :
    snapshotMessages r.server.device r.store.snapshot
      <:+ statesIn (received client (events tr) ++ received client es) := by
  rw [statesIn_append]
  rcases hmove.gets hinv client with
    ⟨hnone, hback⟩ | ⟨hthere, -, ms, hletter, -, hwhole⟩
  · obtain ⟨hacc, hclient, -⟩ := hback hidle hc
    rw [hnone]
    simpa [statesIn] using h.shown hnews hacc hclient
  · rw [hwhole hc]
    rcases hletter.states hinv with hnone | ⟨σ, hσ, hacc | ⟨-, rfl⟩⟩
    · rw [hnone, List.append_nil]
      exact h.shown hnews (hletter.idle hinv hnone) hthere
    · rw [hσ, h.pending hnews hacc]
      exact List.suffix_append _ _
    · rw [hσ]
      exact List.suffix_append _ _

/-- What was told last is what the client shows. -/
theorem Shown.snoc (hinv : RelayInv r) (h : Shown tr r)
    (hstep : relayStep r act = some (r', es)) :
    Shown (tr ++ [⟨r, act, es, r'⟩]) r' := by
  have hmove := RelayMove.of_step hstep
  refine ⟨fun hnews σ hσ => ?_, fun hnews hidle client hc => ?_⟩
  · cases Told.of_step hstep hnews with
    | broadcast _ _ hidle =>
      rw [hidle] at hσ
      cases hσ
    | quiet hpre hsame =>
      rcases hmove.accepting hσ with ⟨hwas, -⟩ | ⟨hnow, -⟩
      · rw [hsame]
        exact h.pending hpre hwas
      · exact hnow
  · rw [received_snoc, hmove.device]
    cases Told.of_step hstep hnews with
    | broadcast hpre hfeed _ hstore hout =>
      obtain rfl := hinv.holding hfeed
      rcases hout.connected hinv.device (Letter.calls hpre hfeed rfl).own
        (hout.frame.2.2 client hc) with ⟨-, hgot⟩ | ⟨hlost, -⟩
      · rw [hgot, hstore, hinv.encodable_batch hinv.sendable,
          statesIn_append, statesIn_snapshotMessages]
        exact List.suffix_append _ _
      · rw [hc] at hlost
        cases hlost
    | quiet hpre hsame =>
      rw [hsame]
      exact h.quiet hinv hmove hpre hidle hc

/-- Over every run, whoever connects, claims and drops in between: a
greeted client was sent the store's snapshot last, unless the goroutine is
on its way to send it. -/
theorem client_up_to_date {address : Bytes} {clock now : UInt64}
    {server : Server} (hserver : newServer address clock = some server)
    (hrun : Exec relayStep (newRelay server now) tr r)
    (hnews : r.feed.news = false) (hidle : r.accepting = none)
    (hclient : r.server.client = some client) :
    snapshotMessages r.server.device r.store.snapshot
      <:+ statesIn (received client (events tr)) := by
  have hnew := newRelay_inv hserver now
  have hshown : Shown tr r := by
    clear hnews hidle hclient
    induction hrun with
    | nil =>
      refine ⟨fun _ σ hσ => ?_, fun _ _ client hc => ?_⟩
      · cases hσ
      · exact absurd (hnew.known hc) (Nat.not_lt_zero _)
    | snoc hrun hstep ih => exact ih.snoc (run_relayInv hrun hnew) hstep
  exact hshown.shown hnews hidle hclient

/-- The client accepted between a call's arrival and its broadcast. -/
theorem client_up_to_date_between :
    ∃ server tr r, Exec relayStep (newRelay server 7) tr r
      ∧ snapshotMessages r.server.device r.store.snapshot
        <:+ statesIn (received 0 (events tr)) := by
  obtain ⟨server, hserver, tr, r, hexec, hnews, hidle, hclient⟩ :
      ∃ server, newServer (upperAddress [0, 0x11, 0x22, 0x33, 0x44, 0x55]) 5
          = some server
        ∧ ∃ tr r, Exec relayStep (newRelay server 7) tr r
          ∧ r.feed.news = false ∧ r.accepting = none
          ∧ r.server.client = some 0 :=
    ⟨_, rfl, exec_of_decide _ _ acceptedBetween _ (by decide +kernel)⟩
  exact ⟨server, tr, r, hexec,
    client_up_to_date hserver hexec hnews hidle hclient⟩

end Callbridge.Control
