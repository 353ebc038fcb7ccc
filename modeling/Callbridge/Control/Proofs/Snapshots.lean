/-
Snapshots survive the wire. Every message the server builds from a store
passes `validate`, so none is lost in `sendMessageLocked`, and a receiver
that decodes the packets of a batch has the snapshot's calls back
(`snapshots_survive`).
-/
import Callbridge.Control.Server
import Callbridge.Gtbs.Proofs.Wire
import Callbridge.Protocol.Proofs.RoundTrip

namespace Callbridge.Control

open Lib Protocol Gtbs

variable {device : Bytes} {sequence : UInt64} {s : Store} {m : Message}

-- == valid messages

/-- A device address as the server keeps it. -/
structure Canonical (device : Bytes) : Prop where
  fixed : normalizedDevice device = device
  nonempty : device ≠ []

theorem Canonical.accepted (h : Canonical device) :
    normalizedDevice device ≠ [] := by
  rw [h.fixed]
  exact h.nonempty

theorem newServer_canonical {address : Bytes} {now : UInt64} {s : Server}
    (h : newServer address now = some s) : Canonical s.device := by
  unfold newServer at h
  split at h
  case isTrue => cases h
  case isFalse hne =>
    cases h
    exact ⟨normalizedDevice_idem address, hne⟩

theorem nextSequence_ne (s : Server) : s.nextSequence.1 ≠ 0 := fun h =>
  skip_not_excluded 0 s.sequence (Or.inl h)

/-- The checks `validate` makes on every message, once they have passed. -/
theorem validate_body (htype : typeState ≤ m.type ∧ m.type ≤ typeReady)
    (hflags : m.flags &&& ~~~(flagSnapshot ||| flagLast) = 0)
    (hseq : m.sequence ≠ 0) (hpayload : m.payload.length ≤ payloadSize)
    (hdevice : normalizedDevice m.device ≠ []) :
    validate m
      = if m.type = typeState then validateState m
        else if m.type = typeCommand then validateCommand m
        else if m.type = typeAck then validateAck m
        else if m.type = typeResult then validateResult m
        else if m.type = typeReady then validateReady m
        else none := by
  unfold validate
  rw [if_neg, if_neg hdevice]
  rintro (h | h | h | h | h)
  · exact UInt8.not_lt.mpr htype.1 h
  · exact UInt8.not_lt.mpr htype.2 h
  · exact h hflags
  · exact hseq h
  · omega

/-- The flags of a message in a batch: the last one says so. -/
def batchFlags (last : Bool) : UInt8 :=
  if last then flagSnapshot ||| flagLast else flagSnapshot

theorem batchFlags_known (last : Bool) :
    batchFlags last &&& ~~~(flagSnapshot ||| flagLast) = 0
      ∧ batchFlags last &&& flagSnapshot ≠ 0 := by
  cases last <;> decide

/-- What the store lists can be put on the wire. -/
theorem stateMessage_valid (hd : Canonical device) (hs : sequence ≠ 0)
    (last : Bool) {c : Call} (hc : Listed c) :
    validate (stateMessage device sequence (batchFlags last) c) = none
      ∧ decodeIdentity
          (stateMessage device sequence (batchFlags last) c).payload
        = .ok c.identity := by
  obtain ⟨payload, hencode, hdecode, hfits⟩ :=
    decodeIdentity_encodeIdentity hc.identity.short
      (by rw [hc.identity.nameless]; exact Nat.zero_le _)
  have hpayload :
      (stateMessage device sequence (batchFlags last) c).payload
        = payload := by
    simp only [stateMessage, hencode]
  obtain ⟨hknown, hsnap⟩ := batchFlags_known last
  have hstate : c.state ≤ 6 := hc.wellFormed.state_le
  have hcall : c.state ≠ noCallState := by
    intro h
    rw [h] at hstate
    exact absurd hstate (by decide)
  rw [hpayload]
  refine ⟨?_, hdecode⟩
  rw [validate_body (m := stateMessage device sequence (batchFlags last) c)
    (show typeState ≤ typeState ∧ typeState ≤ typeReady by decide) hknown hs
    (by rw [hpayload]; exact hfits) hd.accepted]
  unfold validateState
  rw [hpayload, hdecode]
  refine (if_neg hsnap).trans ((if_neg hcall).trans (if_neg ?_))
  rintro (h | h | h | h)
  · exact hc.wellFormed.index_ne h
  · exact hc.token_ne h
  · exact UInt8.not_lt.mpr hstate h
  · exact h hc.wellFormed.flags_known

theorem noCallMessage_valid (hd : Canonical device) (hs : sequence ≠ 0) :
    validate (noCallMessage device sequence) = none := by
  rw [validate_body (m := noCallMessage device sequence)
    (show typeState ≤ typeState ∧ typeState ≤ typeReady by decide)
    (batchFlags_known true).1 hs (Nat.zero_le _) hd.accepted]
  refine (if_neg (batchFlags_known true).2).trans ((if_pos rfl).trans
    (if_neg ?_))
  simp [noCallMessage]

theorem readyMessage_valid (hd : Canonical device) (hs : sequence ≠ 0)
    (ready : Bool) : validate (readyMessage device sequence ready) = none := by
  rw [validate_body (m := readyMessage device sequence ready)
    (show typeState ≤ typeReady ∧ typeReady ≤ typeReady by decide)
    (show 0 &&& ~~~(flagSnapshot ||| flagLast) = 0 by decide) hs
    (Nat.zero_le _) hd.accepted]
  show validateReady _ = none
  refine if_neg ?_
  cases ready <;> simp [readyMessage, readyCode]

-- == the batch

/-- The messages of a snapshot with calls: the last call's is the last. -/
theorem snapshotMessages_append (front : List Call) (c : Call) :
    snapshotMessages device ⟨sequence, front ++ [c]⟩
      = front.map (stateMessage device sequence (batchFlags false))
        ++ [stateMessage device sequence (batchFlags true) c] := by
  have hlen : (front ++ [c]).length - 1 = front.length := by simp
  unfold snapshotMessages
  rw [if_neg (by simp)]
  simp only [hlen, List.mapIdx_append, List.mapIdx_cons, List.mapIdx_nil]
  congr 1
  · apply List.ext_getElem
    · simp
    · intro i h₁ h₂
      have hi : i ≠ front.length := by
        simp only [List.length_mapIdx] at h₁
        omega
      simp [hi, batchFlags]
  · simp [batchFlags]

theorem snapshotMessages_nil :
    snapshotMessages device ⟨sequence, []⟩
      = [noCallMessage device sequence] := rfl

/-- A batch is the message of no call, or one message for each call. -/
theorem snapshotMessages_cases (device : Bytes) (snapshot : Snapshot) :
    (snapshot.calls = [] ∧ snapshotMessages device snapshot
        = [noCallMessage device snapshot.sequence])
      ∨ ∃ front c, snapshot.calls = front ++ [c]
        ∧ snapshotMessages device snapshot
          = front.map (stateMessage device snapshot.sequence
              (batchFlags false))
            ++ [stateMessage device snapshot.sequence (batchFlags true)
              c] := by
  obtain ⟨sequence, calls⟩ := snapshot
  rcases List.eq_nil_or_concat calls with rfl | ⟨front, c, rfl⟩
  · exact Or.inl ⟨rfl, snapshotMessages_nil⟩
  · rw [List.concat_eq_append]
    exact Or.inr ⟨front, c, rfl, snapshotMessages_append front c⟩

/-- The last message of a batch, and no other, is marked as the last. -/
theorem snapshotMessages_last (device : Bytes) (snapshot : Snapshot) :
    ∃ front last, snapshotMessages device snapshot = front ++ [last]
      ∧ last.flags &&& flagLast ≠ 0
      ∧ ∀ m ∈ front, m.flags &&& flagLast = 0 := by
  rcases snapshotMessages_cases device snapshot with
    ⟨-, he⟩ | ⟨front, c, -, he⟩
  · refine ⟨[], _, he, ?_, nofun⟩
    show (flagSnapshot ||| flagLast) &&& flagLast ≠ 0
    decide
  · refine ⟨_, _, he, ?_, ?_⟩
    · show batchFlags true &&& flagLast ≠ 0
      decide
    · intro m hm
      obtain ⟨d, -, rfl⟩ := List.mem_map.mp hm
      show batchFlags false &&& flagLast = 0
      decide

/-- A message of a batch is the message of no call or a call's. -/
theorem mem_snapshotMessages {snapshot : Snapshot}
    (hm : m ∈ snapshotMessages device snapshot) :
    m = noCallMessage device snapshot.sequence
      ∨ ∃ last, ∃ c ∈ snapshot.calls,
        m = stateMessage device snapshot.sequence (batchFlags last) c := by
  rcases snapshotMessages_cases device snapshot with
    ⟨-, he⟩ | ⟨front, c, hcalls, he⟩
  · rw [he] at hm
    exact Or.inl (List.mem_singleton.mp hm)
  · rw [he] at hm
    right
    rcases List.mem_append.mp hm with hm | hm
    · obtain ⟨d, hd, rfl⟩ := List.mem_map.mp hm
      exact ⟨false, d, by rw [hcalls]; exact List.mem_append_left _ hd, rfl⟩
    · rw [List.mem_singleton] at hm
      exact ⟨true, c, by rw [hcalls]; simp, hm⟩

/-- Every message of a batch is valid. -/
theorem batch_valid (hd : Canonical device) (hs : Sendable s)
    (hm : m ∈ snapshotMessages device s.snapshot) :
    validate m = none := by
  rcases mem_snapshotMessages hm with rfl | ⟨last, c, hc, rfl⟩
  · exact noCallMessage_valid hd hs.sequence_ne
  · exact (stateMessage_valid hd hs.sequence_ne last (hs.listed hc)).1

-- == the receiver

/-- A receiver reads a call off a state message. -/
def readCall (m : Message) : Except MessageError Call :=
  match decodeIdentity m.payload with
  | .error e => .error e
  | .ok identity => .ok ⟨m.index, m.code, m.value, m.token, identity⟩

/-- A receiver reads the calls of a batch off its packets. -/
def readCalls (packets : List Bytes) : Except MessageError (List Call) :=
  match packets.mapM decode with
  | .error e => .error e
  | .ok messages =>
      (messages.filter fun m => m.code != noCallState).mapM readCall

/-- What every element of a list is read back from, the list is. -/
theorem mapM_map_ok {α β ε : Type} {f : β → Except ε α} {p : α → β}
    {l : List α} (h : ∀ a ∈ l, f (p a) = .ok a) :
    (l.map p).mapM f = .ok l := by
  induction l with
  | nil => rfl
  | cons a rest ih =>
    rw [List.map_cons, List.mapM_cons, h a List.mem_cons_self,
      ih fun b hb => h b (List.mem_cons_of_mem _ hb)]
    rfl

theorem readCall_stateMessage (hd : Canonical device) (hs : sequence ≠ 0)
    (last : Bool) {c : Call} (hc : Listed c) :
    readCall (stateMessage device sequence (batchFlags last) c) = .ok c := by
  rw [readCall, (stateMessage_valid hd hs last hc).2]
  rfl

/-- The calls of a batch are read back from its messages. -/
theorem readCalls_messages (hd : Canonical device) (hs : Sendable s) :
    ((snapshotMessages device s.snapshot).filter
        fun m => m.code != noCallState).mapM readCall
      = .ok s.snapshot.calls := by
  rcases snapshotMessages_cases device s.snapshot with
    ⟨hcalls, he⟩ | ⟨front, c, hcalls, he⟩
  · rw [he, hcalls]
    rfl
  · have hlisted : ∀ d ∈ front ++ [c], Listed d := fun d hdm =>
      hs.listed (hcalls ▸ hdm)
    have hall : ∀ m ∈ front.map (stateMessage device s.snapshot.sequence
          (batchFlags false))
        ++ [stateMessage device s.snapshot.sequence (batchFlags true) c],
        (m.code != noCallState) = true := by
      -- no call has the state that stands for none
      have hcode : ∀ d ∈ front ++ [c], (d.state != noCallState) = true := by
        intro d hdm
        have hstate : d.state ≤ 6 := (hlisted d hdm).wellFormed.state_le
        rw [bne_iff_ne]
        intro h
        rw [h] at hstate
        exact absurd hstate (by decide)
      intro m hm
      rcases List.mem_append.mp hm with hm | hm
      · obtain ⟨d, hdm, rfl⟩ := List.mem_map.mp hm
        exact hcode d (List.mem_append_left _ hdm)
      · rw [List.mem_singleton.mp hm]
        exact hcode c (List.mem_append_right _ (List.mem_singleton_self _))
    have hfront := mapM_map_ok (f := readCall) (l := front)
      fun d hdm => readCall_stateMessage hd hs.sequence_ne false
        (hlisted d (List.mem_append_left _ hdm))
    have hlast := readCall_stateMessage hd hs.sequence_ne true
      (hlisted c (List.mem_append_right _ (List.mem_singleton_self _)))
    rw [he, hcalls, List.filter_eq_self.mpr hall, List.mapM_append]
    have hseq : s.snapshot.sequence = s.sequence := rfl
    rw [hseq, hfront, List.mapM_cons, hlast]
    rfl

/-- A receiver has the snapshot's calls back. -/
theorem readCalls_batch (hd : Canonical device) (hs : Sendable s) :
    readCalls ((snapshotMessages device s.snapshot).map Message.packet)
      = .ok s.snapshot.calls := by
  have hdecode :
      ((snapshotMessages device s.snapshot).map Message.packet).mapM decode
        = .ok (snapshotMessages device s.snapshot) := by
    refine mapM_map_ok fun m hm => ?_
    refine decode_packet ?_ (batch_valid hd hs hm)
    rcases mem_snapshotMessages hm with rfl | ⟨_, _, _, rfl⟩ <;>
      exact hd.fixed
  unfold readCalls
  rw [hdecode]
  exact readCalls_messages hd hs

/-- In every state of the store, whatever the phone has sent: each message
of the snapshot encodes; all of them carry the snapshot's sequence and the
snapshot flag, and the last one alone the flag that says so; the packets
read back as the snapshot's calls, in ascending index order, and as no
call from the one message of an empty snapshot; and a URI on the wire is
empty or a short dialable string. -/
theorem snapshots_survive {now : UInt64} {tr : List StoreTrans} {s : Store}
    (hrun : Exec storeStep (newStore now) tr s)
    (hfixed : normalizedDevice device = device) (hne : device ≠ []) :
    (∀ m ∈ snapshotMessages device s.snapshot, m.encode = .ok m.packet
      ∧ m.sequence = s.snapshot.sequence ∧ m.flags &&& flagSnapshot ≠ 0)
    ∧ (∃ front last, snapshotMessages device s.snapshot = front ++ [last]
      ∧ last.flags &&& flagLast ≠ 0
      ∧ ∀ m ∈ front, m.flags &&& flagLast = 0)
    ∧ readCalls ((snapshotMessages device s.snapshot).map Message.packet)
      = .ok s.snapshot.calls
    ∧ s.snapshot.calls.Pairwise (fun c d => c.index < d.index)
    ∧ (s.snapshot.calls = [] → ∃ m, m.code = noCallState
      ∧ snapshotMessages device s.snapshot = [m])
    ∧ ∀ m ∈ snapshotMessages device s.snapshot, ∃ identity,
      decodeIdentity m.payload = .ok identity
      ∧ identity.uri.length ≤ 32 ∧ ∀ c ∈ identity.uri, dialable c = true := by
  have hs := run_sendable hrun
  have hd : Canonical device := ⟨hfixed, hne⟩
  refine ⟨?_, snapshotMessages_last device s.snapshot,
    readCalls_batch hd hs, hs.ascending, ?_, ?_⟩
  · intro m hm
    refine ⟨encode_ok_iff.mpr ⟨batch_valid hd hs hm, rfl⟩, ?_⟩
    rcases mem_snapshotMessages hm with rfl | ⟨last, _, _, rfl⟩
    · exact ⟨rfl, (batchFlags_known true).2⟩
    · exact ⟨rfl, (batchFlags_known last).2⟩
  · intro hnone
    refine ⟨noCallMessage device s.snapshot.sequence, rfl, ?_⟩
    rw [snapshotMessages, if_pos (by rw [hnone]; rfl)]
  · intro m hm
    rcases mem_snapshotMessages hm with rfl | ⟨last, c, hc, rfl⟩
    · exact ⟨Identity.zero, rfl, Nat.zero_le _, nofun⟩
    · have hlisted := hs.listed hc
      exact ⟨c.identity, (stateMessage_valid hd hs.sequence_ne last
        hlisted).2, hlisted.identity.short, hlisted.identity.characters⟩

/-- A call rings while another one is up, and the phone names the caller
of the first with a scheme and a parameter. -/
def ringingSecond : List StoreOp :=
  [.apply [2, 0, 0, 1, 3, 1],
    .applyIncomingCall [2, 0x74, 0x65, 0x6c, 0x3a, 0x2b, 0x31, 0x32, 0x3b,
      0x78]]

/-- Both calls are read back, the caller's number with them. -/
theorem snapshots_survive_ringingSecond :
    ∃ tr s, Exec storeStep (newStore 7) tr s
      ∧ (s.snapshot.calls.map fun c => (c.index, c.identity.uri))
        = [(1, []), (2, [0x2b, 0x31, 0x32])]
      ∧ readCalls ((snapshotMessages
          (upperAddress [0, 0x11, 0x22, 0x33, 0x44, 0x55])
          s.snapshot).map Message.packet) = .ok s.snapshot.calls := by
  obtain ⟨tr, s, hrun, htest⟩ := exec_of_decide storeStep
    (newStore 7) ringingSecond (fun _ s =>
      (s.snapshot.calls.map fun c => (c.index, c.identity.uri))
        = [(1, []), (2, [0x2b, 0x31, 0x32])]) (by decide +kernel)
  exact ⟨tr, s, hrun, htest,
    (snapshots_survive hrun (normalizedDevice_upperAddress rfl)
      (by decide)).2.2.1⟩

end Callbridge.Control
