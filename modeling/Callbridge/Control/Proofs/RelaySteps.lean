/-
What one step of the relay can do, said once (`RelayMove`), and what every
state it reaches is like (`RelayInv`). Whatever is sent goes to the client
that is connected and is one of four letters: a snapshot, a readiness,
something that is neither, or the greeting of a new client.
-/
import Callbridge.Control.Proofs.Sending

namespace Callbridge.Control

open Lib Protocol Gtbs

variable {r r' : Relay} {es : List ServerEvent} {ms : List Message}
  {ready : Bool}

-- == the moves

/-- The snapshot the goroutine has in hand. -/
def Feed.held : Feed → Option Snapshot
  | .holding snapshot _ => some snapshot
  | _ => none

/-- It has this snapshot in hand, or none. -/
def Holds (feed : Feed) (snapshot : Snapshot) : Prop :=
  feed.held = none ∨ feed.held = some snapshot

/-- What is sent in one hold of the server's lock, the ready flag being
`ready` after it. -/
inductive Letter (r : Relay) (ready : Bool) : List Message → Prop
  | calls {snapshot : Snapshot} {first : Bool} :
      r.accepting = none → r.feed = .holding snapshot first →
      ready = r.server.ready →
      Letter r ready (snapshotMessages r.server.device snapshot)
  | readiness {sequence : UInt64} :
      r.accepting = none → sequence ≠ 0 →
      Letter r ready [readyMessage r.server.device sequence ready]
  | other {m : Message} :
      r.accepting = none → ready = r.server.ready →
      m.device = r.server.device → m.type ≠ typeState →
      m.type ≠ typeReady → Letter r ready [m]
  | greeting {snapshot : Snapshot} {sequence : UInt64} :
      r.accepting = some snapshot → ready = r.server.ready →
      sequence ≠ 0 →
      Letter r ready (snapshotMessages r.server.device snapshot
        ++ [readyMessage r.server.device sequence ready])

inductive RelayMove (r : Relay) : Relay → List ServerEvent → Prop
  /-- The goroutine has changed the store. -/
  | applied (op : StoreOp) {feed : Feed} :
      Holds feed (r.store.exec op).snapshot →
      RelayMove r { r with store := r.store.exec op, feed := feed } []
  /-- It has moved on. -/
  | turned {feed : Feed} : Holds feed r.store.snapshot →
      RelayMove r { r with feed := feed } []
  | claimed (index : UInt8) (token : UInt64) :
      RelayMove r { r with store := r.store.claimCall index token } []
  | accepted : r.accepting = none → r.server.client = none →
      RelayMove r { r with
        server := { r.server with client := some r.clients }
        accepting := some r.store.snapshot
        clients := r.clients + 1 } []
  | dropped : r.accepting = none →
      RelayMove r { r with server := r.server.closeClientLocked } []
  /-- Something was sent, by a server that differs from the relay's in its
  counter and its ready flag. -/
  | sent (s : Server) {server : Server} {ms : List Message} {feed : Feed}
      {es : List ServerEvent} :
      s.device = r.server.device → s.client = r.server.client →
      Letter r s.ready ms → Delivers s (encodable ms) server es →
      feed.held = none ∨ feed = r.feed →
      RelayMove r { r with
        server := server, feed := feed, accepting := none } es

-- == the inversion

/-- A Call State value is applied. -/
theorem RelayMove.of_calls (value : Bytes) {failed : Feed}
    {applied : Snapshot → Feed}
    (hfailed : failed.held = none)
    (happlied : ∀ snapshot, Holds (applied snapshot) snapshot) :
    RelayMove r (r.applyCalls value failed applied) [] := by
  unfold Relay.applyCalls
  cases hp : parseCallState value with
  | error e =>
    have hexec : r.store.exec (.apply value) = r.store := by
      simp only [Store.exec, apply_error hp]
    simp only [apply_error hp]
    have hmove := RelayMove.applied (r := r) (.apply value)
      (Or.inl hfailed)
    rw [hexec] at hmove
    exact hmove
  | ok parsed =>
    have hexec : r.store.exec (.apply value)
        = r.store.replaceCalls parsed := by
      simp only [Store.exec, apply_ok hp]
    simp only [apply_ok hp]
    have hmove := RelayMove.applied (r := r) (.apply value)
      (happlied (r.store.exec (.apply value)).snapshot)
    rw [hexec] at hmove
    exact hmove

/-- An Incoming Call value is applied. -/
theorem RelayMove.of_identity (value : Bytes) {failed applied : Feed}
    (hfailed : failed.held = none) (happlied : applied.held = none) :
    RelayMove r (r.applyIdentity value failed applied) [] := by
  unfold Relay.applyIdentity
  have hexec : r.store.exec (.applyIncomingCall value)
      = (r.store.applyIncomingCall value).2 := rfl
  split
  case h_1 store h =>
    rw [h] at hexec
    have hmove := RelayMove.applied (r := r) (.applyIncomingCall value)
      (Or.inl happlied)
    rw [hexec] at hmove
    exact hmove
  case h_2 e store h =>
    rw [h] at hexec
    have hmove := RelayMove.applied (r := r) (.applyIncomingCall value)
      (Or.inl hfailed)
    rw [hexec] at hmove
    exact hmove

/-- A send outside `accept`. -/
theorem RelayMove.of_served (s : Server) {feed : Feed}
    {out : Server × List ServerEvent} (hidle : r.accepting = none)
    (hdevice : s.device = r.server.device)
    (hclient : s.client = r.server.client) (hletter : Letter r s.ready ms)
    (hout : Delivers s (encodable ms) out.1 out.2)
    (hfeed : feed.held = none ∨ feed = r.feed) :
    RelayMove r (r.served feed out).1 (r.served feed out).2 := by
  have hmove := RelayMove.sent s hdevice hclient hletter hout hfeed
  rw [← hidle] at hmove
  exact hmove

theorem sendMessageLocked_delivers (s : Server) (m : Message) (ok : Bool) :
    Delivers s (encodable [m]) (s.sendMessageLocked m ok).1
      (s.sendMessageLocked m ok).2 := by
  have hone : s.sendMessagesLocked [m] [ok] = s.sendMessageLocked m ok := by
    rw [Server.sendMessagesLocked]
    split
    case isTrue => rfl
    case isFalse => simp [Server.sendMessagesLocked]
  rw [← hone]
  exact sendMessagesLocked_delivers s [m] [ok]

/-- A readiness goes to the client. -/
theorem RelayMove.of_setReady {feed : Feed} (ready ok : Bool)
    (hidle : r.accepting = none) (hfeed : feed.held = none) :
    RelayMove r (r.served feed (r.server.setReady ready ok)).1
      (r.served feed (r.server.setReady ready ok)).2 := by
  unfold Server.setReady
  split
  case isTrue => exact .turned (Or.inl hfeed)
  case isFalse =>
    exact .of_served
      { r.server.nextSequence.2 with ready := ready } hidle rfl rfl
      (Letter.readiness hidle (nextSequence_ne r.server))
      (sendMessageLocked_delivers _ _ ok) (Or.inl hfeed)

/-- The steps of the GTBS client's goroutine, inverted. -/
theorem RelayMove.of_feedStep {act : RelayAct}
    (h : feedStep r r.feed act = some (r', es)) : RelayMove r r' es := by
  generalize hfeed : r.feed = feed at h
  cases feed with
  | down =>
    cases act with
    | start value =>
      cases h
      exact .of_calls value rfl fun _ => Or.inl rfl
    | _ => cases h
  | started =>
    cases act with
    | identify value =>
      cases h
      exact .of_identity value rfl rfl
    | take =>
      cases h
      exact .turned (Or.inr rfl)
    | _ => cases h
  | identified | refreshing =>
    cases act with
    | take =>
      cases h
      exact .turned (Or.inr rfl)
    | _ => cases h
  | holding snapshot first =>
    cases act with
    | broadcast oks =>
      obtain ⟨hidle, h⟩ := Option.ite_none_right_eq_some.mp h
      cases h
      refine .of_served r.server hidle rfl rfl
        (Letter.calls hidle hfeed rfl)
        (sendMessagesLocked_delivers r.server _ oks) (Or.inl ?_)
      -- only the first broadcast is followed by ready
      cases first <;> rfl
    | _ => cases h
  | announcing =>
    cases act with
    | announce ok =>
      obtain ⟨hidle, h⟩ := Option.ite_none_right_eq_some.mp h
      cases h
      exact .of_setReady true ok hidle rfl
    | _ => cases h
  | up =>
    cases act with
    | callState value =>
      cases h
      exact .of_calls value rfl fun _ => Or.inr rfl
    | incomingCall value =>
      cases h
      exact .of_identity value rfl rfl
    | result opcode index result token ok =>
      obtain ⟨hidle, h⟩ := Option.ite_none_right_eq_some.mp h
      cases h
      -- a result says nothing of the calls or of ready
      have hletter : Letter r r.server.nextSequence.2.ready
          [resultMessage r.server.device r.server.nextSequence.1 opcode
            index result token] :=
        .other hidle rfl rfl (show typeResult ≠ typeState by decide)
          (show typeResult ≠ typeReady by decide)
      exact .of_served r.server.nextSequence.2 hidle rfl rfl hletter
        (sendMessagesLocked_delivers r.server.nextSequence.2 _ [ok])
        (Or.inl rfl)
    | leave =>
      cases h
      exact .turned (Or.inl rfl)
    | _ => cases h
  | leaving =>
    cases act with
    | withdraw ok =>
      obtain ⟨hidle, h⟩ := Option.ite_none_right_eq_some.mp h
      cases h
      exact .of_setReady false ok hidle rfl
    | _ => cases h

/-- Every step of the relay is one of the moves. -/
theorem RelayMove.of_step {act : RelayAct}
    (h : relayStep r act = some (r', es)) : RelayMove r r' es := by
  cases act with
  | claim index token =>
    cases h
    exact .claimed index token
  | accept =>
    obtain ⟨hfree, h⟩ := Option.ite_none_right_eq_some.mp h
    cases h
    exact .accepted hfree.1 hfree.2
  | greet oks =>
    unfold relayStep at h
    cases hacc : r.accepting with
    | none =>
      rw [hacc] at h
      cases h
    | some snapshot =>
      rw [hacc] at h
      cases h
      exact .sent r.server.nextSequence.2 rfl rfl
        (Letter.greeting hacc rfl (nextSequence_ne r.server))
        (sendMessagesLocked_delivers r.server.nextSequence.2 _ oks)
        (Or.inr rfl)
  | acknowledge command value ok =>
    obtain ⟨hidle, h⟩ := Option.ite_none_right_eq_some.mp h
    cases h
    have hletter : Letter r r.server.ready
        [ackMessage r.server.device command value] :=
      .other hidle rfl rfl (show typeAck ≠ typeState by decide)
        (show typeAck ≠ typeReady by decide)
    exact .of_served r.server hidle rfl rfl hletter
      (sendMessagesLocked_delivers r.server _ [ok]) (Or.inr rfl)
  | drop =>
    obtain ⟨hidle, h⟩ := Option.ite_none_right_eq_some.mp h
    cases h
    exact .dropped hidle
  | _ => exact .of_feedStep h

-- == the invariant

/-- What holds of every state of the relay. -/
structure RelayInv (r : Relay) : Prop where
  device : Canonical r.server.device
  sendable : Sendable r.store
  known : ∀ {client}, r.server.client = some client → client < r.clients
  /-- Nothing has changed the calls since the snapshot in hand was taken. -/
  held : Holds r.feed r.store.snapshot
  accepting : ∀ {snapshot}, r.accepting = some snapshot →
    ∃ s, Sendable s ∧ snapshot = s.snapshot

theorem newRelay_inv {address : Bytes} {clock : UInt64} {server : Server}
    (h : newServer address clock = some server) (now : UInt64) :
    RelayInv (newRelay server now) := by
  have hdevice := newServer_canonical h
  unfold newServer at h
  split at h
  case isTrue => cases h
  case isFalse =>
    cases h
    exact ⟨hdevice, newStore_sendable now, nofun, Or.inl rfl, nofun⟩

/-- A snapshot in hand stays the store's. -/
theorem RelayMove.held (h : RelayMove r r' es)
    (hheld : Holds r.feed r.store.snapshot) :
    Holds r'.feed r'.store.snapshot := by
  cases h with
  | applied op hnew | turned hnew => exact hnew
  | claimed index token =>
    rw [snapshot_claimCall]
    exact hheld
  | accepted | dropped => exact hheld
  | sent s hdevice hclient _ hout hfeed =>
    rcases hfeed with hnone | rfl
    · exact Or.inl hnone
    · exact hheld

/-- Every move keeps the invariant. -/
theorem RelayMove.inv (hinv : RelayInv r) (h : RelayMove r r' es) :
    RelayInv r' := by
  have hheld := h.held hinv.held
  cases h with
  | applied op _ =>
    exact ⟨hinv.device, hinv.sendable.exec op, hinv.known, hheld,
      hinv.accepting⟩
  | turned _ =>
    exact ⟨hinv.device, hinv.sendable, hinv.known, hheld, hinv.accepting⟩
  | claimed index token =>
    exact ⟨hinv.device, hinv.sendable.exec (.claimCall index token),
      hinv.known, hheld, hinv.accepting⟩
  | accepted _ _ =>
    refine ⟨hinv.device, hinv.sendable, ?_, hheld, ?_⟩
    · intro client hc
      cases hc
      exact Nat.lt_succ_self _
    · intro snapshot hs
      cases hs
      exact ⟨r.store, hinv.sendable, rfl⟩
  | dropped _ =>
    exact ⟨hinv.device, hinv.sendable, nofun, hheld, hinv.accepting⟩
  | sent s hdevice hclient _ hout _ =>
    obtain ⟨hd, -, hc⟩ := hout.frame
    refine ⟨?_, hinv.sendable, ?_, hheld, nofun⟩
    · rw [hd, hdevice]
      exact hinv.device
    · intro client h
      exact hinv.known (hclient ▸ hc client h)

theorem run_relayInv {r₀ : Relay} {tr : List RelayTrans}
    (hrun : Exec relayStep r₀ tr r) (h₀ : RelayInv r₀) : RelayInv r :=
  hrun.inv h₀ fun hinv hstep => (RelayMove.of_step hstep).inv hinv

/-- The device the server answers for stays the same. -/
theorem RelayMove.device (h : RelayMove r r' es) :
    r'.server.device = r.server.device := by
  cases h with
  | applied | turned | claimed | accepted | dropped => rfl
  | sent s hdevice _ _ hout _ => exact hout.frame.1.trans hdevice

-- == what letters say

/-- The messages of a batch are state messages of the device. -/
theorem snapshotMessages_spec {device : Bytes} {snapshot : Snapshot}
    {m : Message} (hm : m ∈ snapshotMessages device snapshot) :
    m.type = typeState ∧ m.device = device
      ∧ m.sequence = snapshot.sequence := by
  rcases mem_snapshotMessages hm with rfl | ⟨last, c, -, rfl⟩ <;>
    exact ⟨rfl, rfl, rfl⟩

theorem statesIn_snapshotMessages (device : Bytes) (snapshot : Snapshot) :
    statesIn (snapshotMessages device snapshot)
      = snapshotMessages device snapshot :=
  List.filter_eq_self.mpr fun m hm => by
    rw [(snapshotMessages_spec hm).1]
    decide

theorem readinessIn_snapshotMessages (device : Bytes)
    (snapshot : Snapshot) :
    readinessIn (snapshotMessages device snapshot) = [] :=
  List.filter_eq_nil_iff.mpr fun m hm => by
    rw [(snapshotMessages_spec hm).1]
    decide

/-- What is sent is the server's own. -/
theorem Letter.own (h : Letter r ready ms) :
    ∀ m ∈ encodable ms, Own r.server.device m := by
  have hdevice : ∀ m ∈ ms, m.device = r.server.device := by
    cases h with
    | calls =>
      exact fun m hm => (snapshotMessages_spec hm).2.1
    | readiness =>
      intro m hm
      rw [List.mem_singleton.mp hm]
      rfl
    | other _ _ hd =>
      intro m hm
      rw [List.mem_singleton.mp hm]
      exact hd
    | greeting =>
      intro m hm
      rcases List.mem_append.mp hm with hm | hm
      · exact (snapshotMessages_spec hm).2.1
      · rw [List.mem_singleton.mp hm]
        rfl
  intro m hm
  obtain ⟨hmem, hv⟩ := List.mem_filter.mp hm
  exact ⟨Option.isNone_iff_eq_none.mp hv, hdevice m hmem⟩

theorem RelayInv.holding (hinv : RelayInv r) {snapshot : Snapshot}
    {first : Bool} (h : r.feed = .holding snapshot first) :
    snapshot = r.store.snapshot := by
  rcases hinv.held with hheld | hheld <;> rw [h] at hheld <;> cases hheld
  rfl

/-- A batch of a store, and a readiness behind it, encode as they are. -/
theorem RelayInv.encodable_batch (hinv : RelayInv r) {s : Store}
    (hs : Sendable s) :
    encodable (snapshotMessages r.server.device s.snapshot)
      = snapshotMessages r.server.device s.snapshot :=
  encodable_eq fun _ hm => batch_valid hinv.device hs hm

theorem RelayInv.encodable_ready (hinv : RelayInv r) {sequence : UInt64}
    (hs : sequence ≠ 0) (ready : Bool) :
    encodable [readyMessage r.server.device sequence ready]
      = [readyMessage r.server.device sequence ready] :=
  encodable_eq fun m hm => by
    rw [List.mem_singleton.mp hm]
    exact readyMessage_valid hinv.device hs ready

/-- The state messages of a letter: none, or the batch of the store as it
is, or of the snapshot the greeted client was accepted with. -/
theorem Letter.states (hinv : RelayInv r) (h : Letter r ready ms) :
    statesIn (encodable ms) = []
      ∨ ∃ snapshot, statesIn (encodable ms)
          = snapshotMessages r.server.device snapshot
        ∧ (r.accepting = some snapshot
          ∨ r.accepting = none ∧ snapshot = r.store.snapshot) := by
  cases h with
  | calls hidle hfeed _ =>
    obtain rfl := hinv.holding hfeed
    rw [hinv.encodable_batch hinv.sendable, statesIn_snapshotMessages]
    exact Or.inr ⟨_, rfl, Or.inr ⟨hidle, rfl⟩⟩
  | @readiness sequence _ hs =>
    rw [hinv.encodable_ready hs]
    exact Or.inl rfl
  | other _ _ _ hstate _ =>
    left
    refine List.filter_eq_nil_iff.mpr fun m hm => ?_
    rw [List.mem_singleton.mp (List.mem_filter.mp hm).1]
    simpa using hstate
  | greeting hacc _ hs =>
    obtain ⟨s, hsend, rfl⟩ := hinv.accepting hacc
    right
    refine ⟨_, ?_, Or.inl hacc⟩
    rw [encodable, List.filter_append]
    show statesIn (encodable _ ++ encodable _) = _
    rw [hinv.encodable_batch hsend, hinv.encodable_ready hs, statesIn,
      List.filter_append]
    show statesIn _ ++ [] = _
    rw [statesIn_snapshotMessages, List.append_nil]

/-- The readiness of a letter: the new one comes last, or there is none
and it has not changed. -/
theorem Letter.readies (hinv : RelayInv r) (h : Letter r ready ms) :
    (∃ sequence, readinessIn (encodable ms)
        = [readyMessage r.server.device sequence ready])
      ∨ readinessIn (encodable ms) = [] ∧ ready = r.server.ready
        ∧ r.accepting = none := by
  cases h with
  | calls hidle hfeed hready =>
    obtain rfl := hinv.holding hfeed
    rw [hinv.encodable_batch hinv.sendable, readinessIn_snapshotMessages]
    exact Or.inr ⟨rfl, hready, hidle⟩
  | @readiness sequence _ hs =>
    rw [hinv.encodable_ready hs]
    exact Or.inl ⟨sequence, rfl⟩
  | other hidle hready _ _ hother =>
    refine Or.inr ⟨?_, hready, hidle⟩
    refine List.filter_eq_nil_iff.mpr fun m hm => ?_
    rw [List.mem_singleton.mp (List.mem_filter.mp hm).1]
    simpa using hother
  | @greeting _ sequence hacc _ hs =>
    obtain ⟨s, hsend, rfl⟩ := hinv.accepting hacc
    refine Or.inl ⟨sequence, ?_⟩
    rw [encodable, List.filter_append]
    show readinessIn (encodable _ ++ encodable _) = _
    rw [hinv.encodable_batch hsend, hinv.encodable_ready hs, readinessIn,
      List.filter_append]
    show readinessIn _ ++ [_] = _
    rw [readinessIn_snapshotMessages, List.nil_append]

-- == what a client gets

/-- What a client gets from a step: nothing, and then it has not just been
greeted; or, being connected, a letter, or a part of one with which it is
lost. -/
theorem RelayMove.gets (hinv : RelayInv r) (h : RelayMove r r' es)
    (client : ClientId) :
    (received client es = []
        ∧ (r'.accepting = none → r'.server.client = some client →
          r.accepting = none ∧ r.server.client = some client
            ∧ r'.server.ready = r.server.ready))
      ∨ r.server.client = some client ∧ r'.accepting = none
        ∧ ∃ ms, Letter r r'.server.ready ms
          ∧ received client es <+: encodable ms
          ∧ (r'.server.client = some client →
            received client es = encodable ms) := by
  cases h with
  | applied | turned | claimed =>
    exact Or.inl ⟨rfl, fun ha hc => ⟨ha, hc, rfl⟩⟩
  | accepted => exact Or.inl ⟨rfl, nofun⟩
  | dropped => exact Or.inl ⟨rfl, fun _ => nofun⟩
  | @sent s server ms feed es hdevice hclient hletter hout _ =>
    obtain ⟨-, hready, hback⟩ := hout.frame
    by_cases hc : s.client = some client
    · refine Or.inr ⟨hclient ▸ hc, rfl, ms, ?_, ?_⟩
      · rw [hready]
        exact hletter
      · rcases hout.connected hinv.device hletter.own hc with
          ⟨-, he⟩ | ⟨hlost, he⟩
        · exact ⟨he ▸ List.prefix_refl _, fun _ => he⟩
        · refine ⟨he, fun hstay => ?_⟩
          have hthere : server.client = some client := hstay
          rw [hlost] at hthere
          cases hthere
    · exact Or.inl ⟨hout.others hc, fun _ hstay =>
        absurd (hback client hstay) hc⟩

end Callbridge.Control
