/-
What a command that fails leaves behind. The handler's two side effects are
compared with the state the same notifications would have led to by
themselves: the claim through two stores that differ in one claim
(`ClaimTwin`), which every notification keeps apart until one drops the
index; the mark through the broker, which notifications never touch.
-/
import Callbridge.Serve.Command
import Callbridge.Gtbs.Proofs.Authorise
import Callbridge.Bluez.Proofs.OneOutcome

namespace Callbridge.Serve

open Lib Protocol Gtbs Bluez

variable {s s' : Process} {m : Message} {i : Interleaving} {parsed : List Call}

-- == notifications by component

/-- What a notification does to the store. -/
def noteStore (store : Store) : Notification → Store
  | .callState value => (store.apply value).2
  | .incomingCall value => (store.applyIncomingCall value).2
  | _ => store

theorem notifyAll_append (s : Process) (ns ns' : List Notification) :
    s.notifyAll (ns ++ ns') = (s.notifyAll ns).notifyAll ns' :=
  List.foldl_append

/-- No notification touches the broker. -/
theorem notifyAll_broker (s : Process) (ns : List Notification) :
    (s.notifyAll ns).broker = s.broker := by
  induction ns generalizing s with
  | nil => rfl
  | cons n ns ih =>
    show ((s.notify n).notifyAll ns).broker = _
    rw [ih]
    cases n <;> rfl

/-- What notifications do to the store is read off the store alone. -/
theorem notifyAll_store (s : Process) (ns : List Notification) :
    (s.notifyAll ns).store = ns.foldl noteStore s.store := by
  induction ns generalizing s with
  | nil => rfl
  | cons n ns ih =>
    show ((s.notify n).notifyAll ns).store = _
    rw [ih, List.foldl_cons]
    cases n <;> rfl

/-- The result of a command reads a token off the store; what becomes of
the client does not depend on it. -/
theorem handleControlResult_client (c : Client) (st st' : Store)
    (value : Bytes) :
    (c.handleControlResult st value).2
      = (c.handleControlResult st' value).2 := by
  unfold Client.handleControlResult
  split
  case h_1 =>
    split
    case isTrue => rfl
    case isFalse =>
      split <;> split <;> rfl
  case h_2 => rfl

/-- A notification does the same to equal clients. -/
theorem notify_client (h : s'.client = s.client) (n : Notification) :
    (s'.notify n).client = (s.notify n).client := by
  cases n with
  | callState value | incomingCall value => exact h
  | controlResult value =>
    show (s'.client.handleControlResult s'.store value).2 = _
    rw [h, handleControlResult_client _ s'.store s.store]
    rfl
  | opened control => show s'.client.opened control = _; rw [h]; rfl
  | ready up => show s'.client.setReady up = _; rw [h]; rfl
  | closed => show s'.client.closed = _; rw [h]; rfl

theorem notifyAll_client (h : s'.client = s.client)
    (ns : List Notification) :
    (s'.notifyAll ns).client = (s.notifyAll ns).client := by
  induction ns generalizing s s' with
  | nil => exact h
  | cons n ns ih => exact ih (notify_client h n)

-- == two stores

/-- Does the notification say that no call is left at this index? -/
def drops (index : UInt8) : Notification → Bool
  | .callState value =>
      match parseCallState value with
      | .ok parsed => !(parsed.any fun call => call.index == index)
      | .error _ => false
  | _ => false

/-- The token the loop of `Apply` gives out does not depend on claims. -/
theorem foldl_assignToken_claimed (c : GoMap UInt8 UInt64)
    (parsed : List Call) :
    ∀ (next : GoMap UInt8 Call) (store : Store),
      parsed.foldl assignToken (next, { store with claimed := c })
        = ((parsed.foldl assignToken (next, store)).1,
          { (parsed.foldl assignToken (next, store)).2 with
            claimed := c }) := by
  induction parsed with
  | nil => intro next store; rfl
  | cons call rest ih =>
    intro next store
    rw [List.foldl_cons, List.foldl_cons]
    cases hl : store.calls.lookup call.index with
    | some prior =>
      rw [assignToken_live hl,
        assignToken_live (s := { store with claimed := c }) hl]
      exact ih _ store
    | none =>
      rw [assignToken_absent hl,
        assignToken_absent (s := { store with claimed := c }) hl]
      exact ih _ { store with tokens := skip store.seed store.tokens }

/-- A replacement reads no claims: it only filters them. -/
theorem replaceCalls_claimed (store : Store) (c : GoMap UInt8 UInt64)
    (parsed : List Call) :
    Store.replaceCalls { store with claimed := c } parsed
      = { store.replaceCalls parsed with
          claimed := c.filter
            (claimStands (store.replaceCalls parsed).calls) } := by
  simp only [Store.replaceCalls, foldl_assignToken_claimed]

theorem setIdentityLocked_claimed (store : Store)
    (c : GoMap UInt8 UInt64) (index : UInt8) (identity : Identity) :
    Store.setIdentityLocked { store with claimed := c } index identity
      = ((store.setIdentityLocked index identity).1,
        { (store.setIdentityLocked index identity).2 with
          claimed := c }) := by
  unfold Store.setIdentityLocked
  split_ifs <;> rfl

/-- An incoming call neither reads nor changes the claims. -/
theorem applyIncomingCall_claimed (store : Store) (c : GoMap UInt8 UInt64)
    (value : Bytes) :
    (Store.applyIncomingCall { store with claimed := c } value).2
      = { (store.applyIncomingCall value).2 with claimed := c } := by
  unfold Store.applyIncomingCall
  cases hp : parseCallIdentifier value with
  | error e => rfl
  | ok r =>
    obtain ⟨index, raw⟩ := r
    simp only [setIdentityLocked_claimed]
    generalize store.setIdentityLocked index _ = r
    obtain ⟨changed, store'⟩ := r
    cases changed <;> rfl

/-- The two stores differ by one claim, of a live call. -/
structure ClaimTwin (index : UInt8) (token : UInt64)
    (store alone : Store) : Prop where
  same : store = { alone with claimed := alone.claimed.insert index token }
  live : ∃ call, alone.calls.lookup index = some call ∧ call.token = token
  unclaimed : alone.claimed.lookup index ≠ some token

section Twins

variable {index : UInt8} {token : UInt64} {store alone : Store}

/-- A value that lists the index keeps the two stores apart. -/
theorem ClaimTwin.replace_keeps (h : ClaimTwin index token store alone)
    (hin : ∃ call ∈ parsed, call.index = index) :
    ClaimTwin index token (store.replaceCalls parsed)
      (alone.replaceCalls parsed) := by
  obtain ⟨hassigned, -, hclaimed⟩ := replaceCalls_spec alone parsed
  obtain ⟨call, hcall⟩ := (hassigned.dom index).mpr hin
  obtain ⟨prior, hprior, htoken⟩ := h.live
  have hkept : call.token = token := by
    rw [hassigned.kept hcall hprior]
    exact htoken
  refine ⟨?_, ⟨call, hcall, hkept⟩, ?_⟩
  · -- at the index the claim stands, since its call kept the token; elsewhere
    -- both maps are filtered alike
    have hfilter : GoMap.filter
          (claimStands (alone.replaceCalls parsed).calls)
          (alone.claimed.insert index token)
        = (alone.replaceCalls parsed).claimed.insert index token := by
      refine Finmap.ext_lookup ?_
      intro k
      rw [hclaimed, GoMap.lookup_filter, GoMap.lookup_insert,
        GoMap.lookup_insert, GoMap.lookup_filter]
      by_cases hk : k = index
      · subst hk
        unfold claimStands
        simp [hcall, hkept]
      · rw [if_neg hk, if_neg hk]
    rw [h.same, replaceCalls_claimed, hfilter]
  · intro hbad
    exact h.unclaimed ((claimed_replaceCalls alone parsed).mp hbad).1

/-- A value that does not list the index takes the claim along. -/
theorem ClaimTwin.replace_drops (h : ClaimTwin index token store alone)
    (hout : ¬ ∃ call ∈ parsed, call.index = index) :
    store.replaceCalls parsed = alone.replaceCalls parsed := by
  obtain ⟨hassigned, -, hclaimed⟩ := replaceCalls_spec alone parsed
  have hgone : (alone.replaceCalls parsed).calls.lookup index = none := by
    cases hl : (alone.replaceCalls parsed).calls.lookup index with
    | none => rfl
    | some call => exact absurd ((hassigned.dom index).mp ⟨call, hl⟩) hout
  -- the filter takes the claim out, whatever its token
  rw [h.same, replaceCalls_claimed]
  have hfilter : GoMap.filter
        (claimStands (alone.replaceCalls parsed).calls)
        (alone.claimed.insert index token)
      = (alone.replaceCalls parsed).claimed := by
    refine Finmap.ext_lookup ?_
    intro k
    rw [hclaimed, GoMap.lookup_filter, GoMap.lookup_insert,
      GoMap.lookup_filter]
    by_cases hk : k = index
    · subst hk
      rw [if_pos rfl]
      have hnone : claimStands (alone.replaceCalls parsed).calls k
          = fun _ => false := by
        funext u
        unfold claimStands
        rw [hgone]
      rw [hnone]
      cases alone.claimed.lookup k <;> rfl
    · rw [if_neg hk]
  rw [hfilter]

/-- A value that is read keeps the indices it lists. -/
theorem drops_callState {value : Bytes}
    (hp : parseCallState value = .ok parsed) :
    drops index (.callState value) = false
      ↔ ∃ call ∈ parsed, call.index = index := by
  simp [drops, hp]

/-- A notification keeps the two stores apart, or makes them equal by
dropping the index. -/
theorem ClaimTwin.note (h : ClaimTwin index token store alone)
    (n : Notification) :
    (drops index n = false
        → ClaimTwin index token (noteStore store n) (noteStore alone n))
      ∧ (drops index n = true → noteStore store n = noteStore alone n) := by
  cases n with
  | callState value =>
    cases hp : parseCallState value with
    | error e =>
      refine ⟨fun _ => ?_, fun hd => ?_⟩
      · simp only [noteStore, apply_error hp]
        exact h
      · simp [drops, hp] at hd
    | ok parsed =>
      simp only [noteStore, apply_ok hp]
      refine ⟨fun hd => ?_, fun hd => ?_⟩
      · exact h.replace_keeps ((drops_callState hp).mp hd)
      · refine h.replace_drops ?_
        intro hin
        rw [(drops_callState hp).mpr hin] at hd
        cases hd
  | incomingCall value =>
    refine ⟨fun _ => ?_, fun hd => by cases hd⟩
    -- identities and the sequence change, calls and claims do not
    obtain ⟨ids, seq, hframe⟩ := applyIncomingCall_frame alone value
    have hsame : noteStore store (.incomingCall value)
        = { noteStore alone (.incomingCall value) with
            claimed := alone.claimed.insert index token } := by
      rw [h.same]
      exact applyIncomingCall_claimed alone _ value
    have hclaimed : (noteStore alone (.incomingCall value)).claimed
        = alone.claimed := by
      show (alone.applyIncomingCall value).2.claimed = _
      rw [hframe]
    refine ⟨?_, ?_, ?_⟩
    · rw [hsame, hclaimed]
    · show ∃ call, (alone.applyIncomingCall value).2.calls.lookup index
        = some call ∧ _
      rw [hframe]
      exact h.live
    · rw [hclaimed]
      exact h.unclaimed
  | controlResult value | opened control | ready up | closed =>
    exact ⟨fun _ => h, fun hd => by cases hd⟩

/-- Two stores a claim apart are told apart by their claims. -/
theorem ClaimTwin.claimed_ne (h : ClaimTwin index token store alone) :
    store.claimed ≠ alone.claimed := by
  intro heq
  refine h.unclaimed ?_
  rw [← heq, h.same]
  exact Finmap.lookup_insert _

/-- After any notifications the claim shows, unless one of them dropped
the index. -/
theorem ClaimTwin.notes (h : ClaimTwin index token store alone)
    (ns : List Notification) :
    (ns.foldl noteStore store).claimed = (ns.foldl noteStore alone).claimed
      ↔ ∃ n ∈ ns, drops index n = true := by
  induction ns generalizing store alone with
  | nil => simp [h.claimed_ne]
  | cons n ns ih =>
    obtain ⟨hkeep, hdrop⟩ := h.note n
    cases hn : drops index n with
    | true => simp [hdrop hn, hn]
    | false => simp [ih (hkeep hn), hn]

/-- Is the claim one that changes the store? -/
def ClaimTakes (store : Store) (index : UInt8) (token : UInt64) : Prop :=
  token ≠ 0 ∧ (∃ call, store.calls.lookup index = some call
      ∧ call.token = token)
    ∧ store.claimed.lookup index ≠ some token

/-- A claim that takes leaves the store one claim ahead. -/
theorem claimTwin_of_takes (h : ClaimTakes store index token) :
    ClaimTwin index token (store.claimCall index token) store := by
  obtain ⟨h0, ⟨call, hcall, htoken⟩, hne⟩ := h
  refine ⟨?_, ⟨call, hcall, htoken⟩, hne⟩
  unfold Store.claimCall
  rw [if_neg h0, hcall]
  simp only
  rw [if_pos htoken]

/-- Any other claim leaves the store as it is. -/
theorem claimCall_of_not_takes (h : ¬ ClaimTakes store index token) :
    store.claimCall index token = store := by
  rcases claimCall_cases store index token with hs
    | ⟨call, hcall, htoken, h0, hs⟩
  · exact hs
  · have hin : store.claimed.lookup index = some token := by
      by_contra hne
      exact h ⟨h0, ⟨call, hcall, htoken⟩, hne⟩
    rw [hs]
    have hsame : store.claimed.insert index token = store.claimed := by
      refine Finmap.ext_lookup ?_
      intro k
      rw [GoMap.lookup_insert]
      split
      case isTrue hk => rw [hk, hin]
      case isFalse => rfl
    rw [hsame]

/-- What a claim followed by notifications leaves of itself. -/
theorem claim_then_notes (store : Store) (index : UInt8) (token : UInt64)
    (ns : List Notification) :
    (ns.foldl noteStore (store.claimCall index token)).claimed
        = (ns.foldl noteStore store).claimed
      ↔ ¬ ClaimTakes store index token
        ∨ ∃ n ∈ ns, drops index n = true := by
  by_cases h : ClaimTakes store index token
  · rw [(claimTwin_of_takes h).notes ns]
    simp [h]
  · rw [claimCall_of_not_takes h]
    simp [h]

end Twins

-- == the mark

/-- The flag of the active media session. -/
def activeEnd (b : Broker) : Option Bool :=
  match b.active with
  | some (_, session) => some session.normalEndSeen
  | none => none

/-- Would `ReleaseCallToken` mark the active session? -/
def EndTakes (b : Broker) (token : UInt64) : Prop :=
  ∃ sid session, b.callTokenSession token = some sid
    ∧ b.sessions[sid]? = some session ∧ b.accepting sid session = true
    ∧ session.normalEndSeen = false

/-- Marking the media session changes the broker only. -/
theorem markSession_store (found : Option SessionId) :
    (s.markSession found).store = s.store := by
  unfold Process.markSession
  split
  case h_1 => rfl
  case h_2 => split <;> rfl

theorem markSession_client (found : Option SessionId) :
    (s.markSession found).client = s.client := by
  unfold Process.markSession
  split
  case h_1 => rfl
  case h_2 => split <;> rfl

/-- The session found for a token is the active one. -/
theorem callTokenSession_active {b : Broker} {token : UInt64}
    {sid : SessionId} (h : b.callTokenSession token = some sid) :
    ∃ session, b.active = some (sid, session) := by
  unfold Broker.callTokenSession at h
  split at h
  case isTrue => cases h
  case isFalse =>
    split at h
    case h_1 => cases h
    case h_2 sid' session ha =>
      split at h
      case isTrue =>
        cases h
        exact ⟨session, ha⟩
      case isFalse => cases h

/-- The mark shows exactly when it is set. -/
theorem activeEnd_markSession (token : UInt64) :
    activeEnd (s.markSession (s.broker.callTokenSession token)).broker
        = activeEnd s.broker ↔ ¬ EndTakes s.broker token := by
  cases hf : s.broker.callTokenSession token with
  | none =>
    refine ⟨fun _ h => ?_, fun _ => rfl⟩
    obtain ⟨sid, session, hsid, -⟩ := h
    rw [hf] at hsid
    cases hsid
  | some sid =>
    obtain ⟨session, hactive⟩ := callTokenSession_active hf
    obtain ⟨-, hs⟩ := active_eq_some.mp hactive
    -- the session found is the active one, so its flag is the one shown
    have htakes : EndTakes s.broker token
        ↔ s.broker.accepting sid session = true
          ∧ session.normalEndSeen = false := by
      constructor
      · intro h
        obtain ⟨sid', session', hsid, hsess, hacc, hend⟩ := h
        rw [hf] at hsid
        cases hsid
        rw [hs] at hsess
        cases hsess
        exact ⟨hacc, hend⟩
      · intro h
        exact ⟨sid, session, hf, hs, h⟩
    rw [htakes]
    simp only [Process.markSession, hs, Broker.markNormalReleasePending]
    split
    case isFalse hacc => simp [hacc]
    case isTrue hacc =>
      split
      case isTrue hend =>
        refine ⟨fun _ => by simp [hend], fun _ => rfl⟩
      case isFalse hend =>
        have hmarked : ((s.broker.countNormalEnd false).updateSession sid
            Session.markNormalEnd).active
            = some (sid, session.markNormalEnd) :=
          active_updateSession hactive _
        unfold activeEnd
        rw [hmarked, hactive]
        simp [hacc, hend, Session.markNormalEnd]

-- == outcomes

/-- The client's part of a command leaves store and broker as the
notifications it saw leave them. -/
def Outcome.Frame (o : Outcome) (s : Process) : Prop :=
  o.state.store = (s.notifyAll o.seen).store ∧ o.state.broker = s.broker

theorem Outcome.Frame.after {o : Outcome} {ns : List Notification}
    (h : o.Frame (s.notifyAll ns)) : (o.after ns).Frame s := by
  obtain ⟨hstore, hbroker⟩ := h
  refine ⟨?_, ?_⟩
  · show o.state.store = (s.notifyAll (ns ++ o.seen)).store
    rw [notifyAll_append]
    exact hstore
  · show o.state.broker = s.broker
    rw [hbroker, notifyAll_broker]

theorem frame_refl (s : Process) (e : Option CommandError)
    (ns : List Notification) :
    (Outcome.mk e (s.notifyAll ns) ns).Frame s :=
  ⟨rfl, notifyAll_broker s ns⟩

section Effects

variable (s m i)

/-- The regions of the client's part, from the last to the first. -/
theorem write_frame : (s.write m i).Frame s := by
  unfold Process.write
  split
  case isTrue => exact frame_refl s none i.write
  case isFalse => exact ⟨rfl, notifyAll_broker s _⟩

theorem register_frame : (s.register m i).Frame s := by
  unfold Process.register
  split
  case h_1 => exact frame_refl s (some .stale) i.register
  case h_2 client _ =>
    refine Outcome.Frame.after ?_
    obtain ⟨hstore, hbroker⟩ :=
      write_frame ((s.notifyAll i.register).withClient client) m i
    refine ⟨?_, hbroker⟩
    rw [hstore, notifyAll_store, notifyAll_store]
    rfl

theorem clientCommand_frame : (s.clientCommand m i).Frame s := by
  unfold Process.clientCommand
  split
  case h_1 e _ => exact frame_refl s (some e) i.validate
  case h_2 =>
    refine Outcome.Frame.after ?_
    unfold Process.lookSession
    split
    case isTrue => exact Outcome.Frame.after (register_frame _ m i)
    case isFalse => exact frame_refl _ (some .unavailable) i.available

/-- The notifications that came after the handler's side effects and
before it returned. -/
def Process.heard (s : Process) (m : Message) (i : Interleaving) :
    List Notification :=
  ((s.prepare m i).clientCommand m i).seen

/-- The claims and the flag of the active session are the same. -/
def SameEffects (s s' : Process) : Prop :=
  s.store.claimed = s'.store.claimed
    ∧ activeEnd s.broker = activeEnd s'.broker

/-- The side effects change nothing, or nothing that lasts: no live call
at the index carries the token, or it is claimed already, or a value
applied before the handler returns drops the index; and no active session
carries the token, or it is marked already, or no longer accepts. -/
def Process.Harmless (s : Process) (m : Message) (i : Interleaving) : Prop :=
  (m.code = opcodeAccept →
      ¬ ClaimTakes (s.notifyAll (i.entry ++ i.mark)).store m.index m.token
        ∨ ∃ n ∈ s.heard m i, drops m.index n = true)
    ∧ (m.code = opcodeTerminate → ¬ EndTakes s.broker m.token)

/-- The command comes through: its type and device are right, it is valid
when it is checked, there is a session, and the write succeeds. -/
def Process.Delivers (s : Process) (m : Message) (i : Interleaving) : Prop :=
  (s.notifyAll (i.entry ++ i.mark ++ i.validate)).client.refused
      (s.notifyAll (i.entry ++ i.mark ++ i.validate)).store m = none
    ∧ (s.notifyAll (i.entry ++ i.mark ++ i.validate
        ++ i.available)).client.available = true
    ∧ ((s.notifyAll (i.entry ++ i.mark ++ i.validate ++ i.available
        ++ i.register)).client.register m).isSome = true
    ∧ i.writeOk = true

/-- Of the side effects the store sees the claim. -/
theorem prepare_store :
    (s.prepare m i).store
      = if m.code = opcodeAccept then
          (s.notifyAll (i.entry ++ i.mark)).store.claimCall m.index m.token
        else (s.notifyAll (i.entry ++ i.mark)).store := by
  unfold Process.prepare Process.claim
  split
  case isTrue => rw [markSession_store]
  case isFalse => exact markSession_store _

/-- The client is left alone until it is asked to check. -/
theorem prepare_client :
    (s.prepare m i).client = (s.notifyAll (i.entry ++ i.mark)).client := by
  unfold Process.prepare Process.claim
  split <;> exact markSession_client _

/-- Of the side effects the active session sees the mark. -/
theorem prepare_end : activeEnd (s.prepare m i).broker = activeEnd s.broker
      ↔ (m.code = opcodeTerminate → ¬ EndTakes s.broker m.token) := by
  have hb : (s.notifyAll (i.entry ++ i.mark)).broker = s.broker :=
    notifyAll_broker s _
  have hclaim : (s.prepare m i).broker
      = ((s.notifyAll (i.entry ++ i.mark)).markSession
          ((s.notifyAll i.entry).findSession m)).broker := by
    unfold Process.prepare Process.claim
    split <;> rfl
  rw [hclaim]
  unfold Process.findSession
  rw [notifyAll_broker]
  by_cases hc : m.code = opcodeTerminate
  · rw [if_pos hc, ← hb, activeEnd_markSession]
    simp [hc]
  · rw [if_neg hc]
    simp only [Process.markSession, hc, false_implies, iff_true]
    rw [hb]

/-- A command leaves the claims and the flag as if it had never come,
exactly when its side effects are harmless. -/
theorem sameEffects_iff :
    SameEffects (s.command m i).state (s.notifyAll (s.command m i).seen)
      ↔ s.Harmless m i := by
  obtain ⟨hstore, hbroker⟩ := clientCommand_frame (s.prepare m i) m i
  -- the claim, after the notifications heard behind it
  have hclaims : (s.command m i).state.store.claimed
        = (s.notifyAll (s.command m i).seen).store.claimed
      ↔ (m.code = opcodeAccept →
          ¬ ClaimTakes (s.notifyAll (i.entry ++ i.mark)).store m.index
              m.token
            ∨ ∃ n ∈ s.heard m i, drops m.index n = true) := by
    show ((s.prepare m i).clientCommand m i).state.store.claimed
        = (s.notifyAll (i.entry ++ i.mark ++ s.heard m i)).store.claimed
      ↔ _
    rw [hstore, notifyAll_append, notifyAll_store, notifyAll_store,
      prepare_store]
    by_cases hc : m.code = opcodeAccept
    · simp only [hc, true_implies]
      exact claim_then_notes _ _ _ _
    · simp only [hc, false_implies, iff_true]
      rfl
  -- the mark, which no notification reaches
  have hflag : activeEnd (s.command m i).state.broker
        = activeEnd (s.notifyAll (s.command m i).seen).broker
      ↔ (m.code = opcodeTerminate → ¬ EndTakes s.broker m.token) := by
    show activeEnd ((s.prepare m i).clientCommand m i).state.broker = _ ↔ _
    rw [hbroker, notifyAll_broker]
    exact prepare_end s m i
  unfold SameEffects Process.Harmless
  rw [hclaims, hflag]

/-- Claims make no difference to what else notifications do. -/
theorem notes_claimed (ns : List Notification) :
    ∀ (store : Store) (c : GoMap UInt8 UInt64),
      ∃ c', ns.foldl noteStore { store with claimed := c }
        = { ns.foldl noteStore store with claimed := c' } := by
  induction ns with
  | nil => intro store c; exact ⟨c, rfl⟩
  | cons n ns ih =>
    intro store c
    have hstep : ∃ c', noteStore { store with claimed := c } n
        = { noteStore store n with claimed := c' } := by
      cases n with
      | callState value =>
        cases hp : parseCallState value with
        | error e =>
          simp only [noteStore, apply_error hp]
          exact ⟨c, rfl⟩
        | ok parsed =>
          simp only [noteStore, apply_ok hp]
          exact ⟨_, replaceCalls_claimed store c parsed⟩
      | incomingCall value =>
        exact ⟨c, applyIncomingCall_claimed store c value⟩
      | controlResult value | opened control | ready up | closed =>
        exact ⟨c, rfl⟩
    obtain ⟨c', hc'⟩ := hstep
    rw [List.foldl_cons, List.foldl_cons, hc']
    exact ih _ c'

/-- The state the command is checked in, as the checks see it. -/
theorem refused_prepare : ((s.prepare m i).notifyAll i.validate).client.refused
        ((s.prepare m i).notifyAll i.validate).store m
      = (s.notifyAll (i.entry ++ i.mark ++ i.validate)).client.refused
          (s.notifyAll (i.entry ++ i.mark ++ i.validate)).store m := by
  rw [notifyAll_append s _ i.validate,
    notifyAll_client (prepare_client s m i), notifyAll_store,
    notifyAll_store (s.notifyAll (i.entry ++ i.mark)), prepare_store]
  split
  case isFalse => rfl
  case isTrue =>
    -- the claim is the only difference, and the checks do not read claims
    rcases claimCall_cases (s.notifyAll (i.entry ++ i.mark)).store m.index
      m.token with hs | ⟨call, -, -, -, hs⟩
    · rw [hs]
    · obtain ⟨c', hc'⟩ := notes_claimed i.validate
        (s.notifyAll (i.entry ++ i.mark)).store
        ((s.notifyAll (i.entry ++ i.mark)).store.claimed.insert m.index
          m.token)
      rw [hs, hc']
      rfl

/-- What each region asks for to return no error, again from the last. -/
theorem write_error : (s.write m i).error = none ↔ i.writeOk = true := by
  unfold Process.write
  split
  case isTrue h => simp [h]
  case isFalse h => simp [h]

theorem register_error : (s.register m i).error = none
      ↔ ((s.notifyAll i.register).client.register m).isSome = true
        ∧ i.writeOk = true := by
  unfold Process.register
  split
  case h_1 h => simp [h]
  case h_2 client h =>
    show (((s.notifyAll i.register).withClient client).write m i).error
      = none ↔ _
    rw [write_error, h]
    simp

/-- A command passes if it is looked up, entered and written. -/
theorem lookSession_error : (s.lookSession m i).error = none
      ↔ (s.notifyAll i.available).client.available = true
        ∧ ((s.notifyAll (i.available ++ i.register)).client.register
            m).isSome = true
        ∧ i.writeOk = true := by
  unfold Process.lookSession
  split
  case isFalse h => simp [h]
  case isTrue h =>
    show ((s.notifyAll i.available).register m i).error = none ↔ _
    rw [register_error, notifyAll_append]
    simp [h]

/-- A command returns no error exactly when it comes through. -/
theorem delivers_iff : (s.command m i).error = none ↔ s.Delivers m i := by
  show ((s.prepare m i).clientCommand m i).error = none ↔ _
  -- the client hears the same with the side effects as without them
  have hclient : ∀ ns, ((s.prepare m i).notifyAll ns).client
      = (s.notifyAll (i.entry ++ i.mark ++ ns)).client := by
    intro ns
    rw [notifyAll_append s]
    exact notifyAll_client (prepare_client s m i) ns
  unfold Process.clientCommand Process.Delivers
  rw [refused_prepare]
  split
  case h_1 e h =>
    constructor
    · intro he
      cases he
    · intro hd
      rw [hd.1] at h
      cases h
  case h_2 h =>
    show (((s.prepare m i).notifyAll i.validate).lookSession m i).error
      = none ↔ _
    rw [lookSession_error, ← notifyAll_append, ← notifyAll_append, hclient,
      hclient, h]
    simp only [true_and, List.append_assoc]

end Effects

-- == runs

/-- A claim that notifications leave was there before. -/
theorem claimed_notes {index : UInt8} {token : UInt64}
    (ns : List Notification) :
    ∀ store : Store,
      (ns.foldl noteStore store).claimed.lookup index = some token →
      store.claimed.lookup index = some token := by
  induction ns with
  | nil => intro store h; exact h
  | cons n ns ih =>
    intro store h
    have hn := ih _ h
    cases n with
    | callState value =>
      have hexec : (store.exec (.apply value)).claimed.lookup index
          = some token := hn
      rcases claimed_exec hexec with hs | hs
      · exact hs
      · cases hs
    | incomingCall value =>
      have hexec : (store.exec (.applyIncomingCall
          value)).claimed.lookup index = some token := hn
      rcases claimed_exec hexec with hs | hs
      · exact hs
      · cases hs
    | controlResult value | opened control | ready up | closed => exact hn

/-- A claim a command leaves was there before, or is the one it made. -/
theorem claimed_command {index : UInt8} {token : UInt64}
    (h : (s.command m i).state.store.claimed.lookup index = some token) :
    s.store.claimed.lookup index = some token
      ∨ m.code = opcodeAccept ∧ m.index = index ∧ m.token = token := by
  obtain ⟨hstore, -⟩ := clientCommand_frame (s.prepare m i) m i
  have h' : ((s.prepare m i).clientCommand m i).state.store.claimed.lookup
      index = some token := h
  rw [hstore, notifyAll_store] at h'
  have hprep := claimed_notes _ _ h'
  rw [prepare_store, notifyAll_store] at hprep
  split at hprep
  case isFalse => exact Or.inl (claimed_notes _ _ hprep)
  case isTrue hc =>
    have hexec : ((List.foldl noteStore s.store (i.entry ++ i.mark)).exec
        (.claimCall m.index m.token)).claimed.lookup index = some token :=
      hprep
    rcases claimed_exec hexec with hs | hs
    · exact Or.inl (claimed_notes _ _ hs)
    · cases hs
      exact Or.inr ⟨hc, rfl, rfl⟩

/-- A command or a notification, as it stands in a run. -/
abbrev ServeTrans :=
  Lib.Trans Process ServeAct (Message × Option CommandError)

/-- Some command in the run accepted this call and returned no error. -/
def AcceptSent (tr : List ServeTrans) (index : UInt8) (token : UInt64) :
    Prop :=
  ∃ x ∈ tr, ∃ m, (m, none) ∈ x.out ∧ m.code = opcodeAccept
    ∧ m.index = index ∧ m.token = token

/-- The commands of a run come through or are harmless. -/
def Clean (tr : List ServeTrans) : Prop :=
  ∀ x ∈ tr, ∀ m i, x.act = .command m i →
    x.pre.Delivers m i ∨ x.pre.Harmless m i

/-- An Accept that was sent stays in the run. -/
theorem AcceptSent.mono {index : UInt8} {token : UInt64}
    {tr t : List ServeTrans} (h : AcceptSent tr index token) :
    AcceptSent (tr ++ t) index token := by
  obtain ⟨x, hx, hm⟩ := h
  exact ⟨x, List.mem_append_left _ hx, hm⟩

/-- In a clean run every claim is one an Accept that was sent has made. -/
theorem claims_sent {s₀ : Process} {tr : List ServeTrans}
    (h₀ : s₀.store.claimed = ∅) (h : Exec serveStep s₀ tr s)
    (hclean : Clean tr) {index : UInt8} {token : UInt64}
    (hc : s.store.claimed.lookup index = some token) :
    AcceptSent tr index token := by
  induction h with
  | nil =>
    rw [h₀] at hc
    cases hc
  | @snoc tr s s' act es hrun hstep ih =>
    -- a claim that was there before is explained by the induction
    have hbefore : s.store.claimed.lookup index = some token →
        AcceptSent (tr ++ [⟨s, act, es, s'⟩]) index token := by
      intro hc
      exact (ih (fun x hx => hclean x (List.mem_append_left _ hx))
        hc).mono
    cases act with
    | notify n =>
      cases hstep
      exact hbefore (claimed_notes [n] s.store
        (by rw [← notifyAll_store]; exact hc))
    | command m i =>
      cases hstep
      rcases claimed_command hc with hs | ⟨hcode, hindex, htoken⟩
      · exact hbefore hs
      · have hlast := hclean _ (List.mem_append_right _
          (List.mem_singleton_self _)) m i rfl
        by_cases he : (s.command m i).error = none
        · refine ⟨_, List.mem_append_right _
            (List.mem_singleton_self _), m, ?_, hcode, hindex, htoken⟩
          rw [he]
          exact List.mem_singleton_self _
        · -- it failed, so it left the claims as notifications do
          have hharm : s.Harmless m i := by
            rcases hlast with hd | hh
            · exact absurd ((delivers_iff s m i).mpr hd) he
            · exact hh
          have hsame := ((sameEffects_iff s m i).mpr hharm).1
          rw [hsame, notifyAll_store] at hc
          exact hbefore (claimed_notes _ _ hc)

/-- A command that returns an error leaves the claims and the mark of the
active session as if it had never come exactly when it comes through or
its side effects are harmless; and in every run all of whose commands do,
a call that has left Incoming and was not originated here is authorised
only if an Accept for it was validated and written. -/
theorem failed_command_leaves_nothing_iff (s₀ : Process) :
    (∀ m i,
        ((s₀.command m i).error ≠ none →
            SameEffects (s₀.command m i).state
              (s₀.notifyAll (s₀.command m i).seen))
          ↔ s₀.Delivers m i ∨ s₀.Harmless m i)
      ∧ ∀ tr (s : Process), s₀.store.claimed = ∅ →
          Exec serveStep s₀ tr s → Clean tr →
          ∀ t, s.store.currentCallToken = (t, true) →
            ∃ j call, s.store.Only j call ∧ call.token = t
              ∧ (call.outgoing = true ∨ call.state = stateIncoming
                ∨ AcceptSent tr call.index t) := by
  refine ⟨?_, ?_⟩
  · intro m i
    rw [← delivers_iff, sameEffects_iff]
    cases (s₀.command m i).error with
    | none | some e => simp
  · intro tr s h₀ h hclean t ht
    obtain ⟨j, call, honly, rfl, h0, hauth⟩ := currentCallToken_only ht
    refine ⟨j, call, honly, rfl, ?_⟩
    rcases authorised_cases h0 hauth with hout | hinc | hclaim
    · exact Or.inl hout
    · exact Or.inr (Or.inl hinc)
    · exact Or.inr (Or.inr (claims_sent h₀ h hclean hclaim))

instance : Decidable (s.Delivers m i) :=
  inferInstanceAs (Decidable (_ ∧ _ ∧ _ ∧ _))

instance : Decidable (SameEffects s s') :=
  inferInstanceAs (Decidable (_ ∧ _))

/-- AA:BB:CC:DD:EE:FF. -/
def sampleAddress : Bytes :=
  [0x41, 0x41, 0x3a, 0x42, 0x42, 0x3a, 0x43, 0x43, 0x3a, 0x44, 0x44, 0x3a,
    0x45, 0x45, 0x3a, 0x46, 0x46]

/-- A process whose GTBS session is up. The first token it gives out is
8. -/
def sampleProcess : Process :=
  ⟨newStore 7, ((newClient sampleAddress).opened true).setReady true,
    newBroker sampleDevice true 1⟩

/-- A command for the call at index 1 with token 8. -/
def sampleCommand (code : UInt8) : Message :=
  ⟨typeCommand, 0, 1, 8, sampleAddress, 1, code, 0, []⟩

/-- Nothing comes in between but, during the write, these. -/
def duringWrite (ns : List Notification) : Interleaving :=
  ⟨[], [], [], [], [], ns, [], true⟩

/-- A call rings and is accepted; the phone reports it active before the
write returns. -/
def acceptedRinging : List ServeAct :=
  [.notify (.callState [1, 0, 0]), .command (sampleCommand opcodeAccept)
    (duringWrite [.callState [1, 3, 0]])]

/-- A ringing call is accepted and becomes active before the write returns:
its token is authorised. -/
theorem failed_command_leaves_nothing_accepted :
    ∃ tr s, Exec serveStep sampleProcess tr s
      ∧ tr.map Trans.act = acceptedRinging
      ∧ s.store.currentCallToken = (8, true) ∧ Clean tr
      ∧ ∃ j call, s.store.Only j call ∧ call.token = 8
        ∧ (call.outgoing = true ∨ call.state = stateIncoming
          ∨ AcceptSent tr call.index 8) := by
  obtain ⟨tr, s, hrun, hact, htoken, hall⟩ := exec_of_decide serveStep
      sampleProcess acceptedRinging
      (fun tr s => tr.map Trans.act = acceptedRinging
        ∧ s.store.currentCallToken = (8, true)
        ∧ ∀ x ∈ tr, x.act = .notify (.callState [1, 0, 0])
          ∨ x.act = .command (sampleCommand opcodeAccept)
              (duringWrite [.callState [1, 3, 0]])
            ∧ x.pre.Delivers (sampleCommand opcodeAccept)
              (duringWrite [.callState [1, 3, 0]])) (by decide +kernel)
  have hclean : Clean tr := by
    intro x hx m i he
    rcases hall x hx with hn | ⟨hc, hd⟩
    · rw [hn] at he
      cases he
    · rw [hc] at he
      cases he
      exact Or.inl hd
  exact ⟨tr, s, hrun, hact, htoken, hclean,
    (failed_command_leaves_nothing_iff sampleProcess).2 tr s rfl hrun hclean
      8 htoken⟩

/-- The media session of the call. -/
def sampleSession : Session :=
  ⟨0, [samplePath 1], samplePath 1, samplePath 2, 1, 2, 1, 8, 9, false, 0,
    false, 0, false, false, ∅, false, false, false⟩

/-- The process while the call is up on the handset: nobody claimed it. -/
def handsetAnsweredProcess : Process :=
  sampleProcess.notifyAll [.callState [1, 0, 0], .callState [1, 3, 0]]

/-- The process with media up and the GTBS session gone. -/
def sessionLostProcess : Process :=
  { sampleProcess.notifyAll [.callState [1, 0, 0], .closed, .ready false]
      with broker := (newBroker sampleDevice true 1).install sampleSession }

/-- An Accept that comes after the handset has answered is refused as
stale, but it has claimed the call, which media is then let through for;
and a Terminate that finds no session is refused as unavailable, but it
has marked the media session. -/
theorem failed_command_leaves_traces :
    (handsetAnsweredProcess.store.currentCallToken = (0, false)
        ∧ (handsetAnsweredProcess.command (sampleCommand opcodeAccept)
            (duringWrite [])).error = some .stale
        ∧ ¬ SameEffects
            (handsetAnsweredProcess.command (sampleCommand opcodeAccept)
              (duringWrite [])).state
            (handsetAnsweredProcess.notifyAll
              (handsetAnsweredProcess.command (sampleCommand opcodeAccept)
                (duringWrite [])).seen)
        ∧ (handsetAnsweredProcess.command (sampleCommand opcodeAccept)
            (duringWrite [])).state.store.currentCallToken = (8, true))
      ∧ (sessionLostProcess.command (sampleCommand opcodeTerminate)
            (duringWrite [])).error = some .unavailable
        ∧ activeEnd sessionLostProcess.broker = some false
        ∧ activeEnd (sessionLostProcess.command
            (sampleCommand opcodeTerminate) (duringWrite [])).state.broker
          = some true
        ∧ ¬ SameEffects
            (sessionLostProcess.command (sampleCommand opcodeTerminate)
              (duringWrite [])).state
            (sessionLostProcess.notifyAll
              (sessionLostProcess.command (sampleCommand opcodeTerminate)
                (duringWrite [])).seen) := by
  decide +kernel

end Callbridge.Serve
