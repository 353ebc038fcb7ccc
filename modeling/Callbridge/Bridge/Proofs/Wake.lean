/-
No wake-up is lost.

An item is in the queue before its call sends, and the loop takes the
token before it drains. So whenever the queue holds something the loop has
not seen, the call that added it has yet to send, or its token is in the
channel (`Wakeful`). A send that finds the slot taken loses nothing: the
token there was not received yet. A drain that ends early ends the
session, and the next one begins with a drain.
-/
import Callbridge.Bridge.Wake
import Callbridge.Bridge.Proofs.OutboundQueue

namespace Callbridge.Bridge

open Lib State Message

variable {b b' : Outgoing} {a : OutgoingAct} {es : List OutgoingEvent}

/-- The loop has found the queue empty and is in its select or in a case
of it. -/
def Loop.waits : Loop → Bool
  | .selecting | .serving _ => true
  | .away | .draining | .handing _ => false

/-- While the loop waits, an item in the queue is announced, or about to
be. -/
def Wakeful (b : Outgoing) : Prop :=
  b.loop.waits = true → b.store.data.outbound = [] ∨ b.wake = true
    ∨ 0 < b.signalling

-- == steps

/-- An `enqueue` call that changes the queue goes on to its send. -/
theorem Wakeful.enqueue (hb : Wakeful b) (item : Outbound)
    (fault : Option SaveFault) : Wakeful (b.enqueue item fault) := by
  intro hwaits
  unfold Outgoing.enqueue at hwaits ⊢
  cases hresult : (b.store.addOutbound item fault).result with
  | ok r =>
    simp only [hresult]
    exact Or.inr (Or.inr (Nat.succ_pos _))
  | error e =>
    -- a call that fails has put the queue back
    simp only [hresult] at hwaits ⊢
    have hsame : (b.store.addOutbound item fault).store = b.store := by
      have hmove := StoreMove.of_exec b.store (.addOutbound item) fault
      simp only [Store.exec] at hmove
      generalize b.store.addOutbound item fault = o at hmove hresult ⊢
      cases hmove with
      | refused _ _ | idle _ => rfl
      | saved _ _ => cases hresult
      | stuck hop _ _ => cases hop
    rw [hsame]
    exact hb hwaits

/-- The drain ends with an empty queue, or it does not end in the
select. -/
theorem Wakeful.takeOutbound (b : Outgoing) (fault : Option SaveFault) :
    Wakeful { b with
      store := (b.store.takeOutbound fault).store
      loop := .afterTake (b.store.takeOutbound fault).result } := by
  intro hwaits
  obtain ⟨hempty, ho⟩ | ⟨item, rest, -, ⟨f, -, ho⟩ | ⟨e, ho⟩⟩ :=
    takeOutbound_cases b.store fault
  · rw [ho]
    exact Or.inl hempty
  · rw [ho] at hwaits
    cases hwaits
  · rw [ho] at hwaits
    cases hwaits

/-- An operation on the store that leaves the queue. -/
theorem Wakeful.exec (hb : Wakeful b) (op : StoreOp)
    (fault : Option SaveFault) (hadd : ∀ item, op ≠ .addOutbound item)
    (htake : op ≠ .takeOutbound) :
    Wakeful { b with store := (b.store.exec op fault).store } := by
  intro hwaits
  rw [exec_outbound b.store op fault hadd htake]
  exact hb hwaits

/-- Every step keeps it. -/
theorem Wakeful.step (hb : Wakeful b)
    (hstep : outgoingStep b a = some (b', es)) : Wakeful b' := by
  cases a with
  | enqueue destination text identifier queuedAt fault =>
    rw [outgoingStep] at hstep
    split at hstep
    · cases hstep
      exact hb
    · cases hstep
      exact hb.enqueue _ fault
  | signal =>
    rw [outgoingStep] at hstep
    split at hstep
    · cases hstep
    · cases hstep
      -- the token is in the channel now
      exact fun _ => Or.inr (Or.inl rfl)
  | runConnected =>
    rw [outgoingStep] at hstep
    split at hstep
    · cases hstep
      -- it drains first and does not wait
      intro hwaits
      cases hwaits
    · cases hstep
  | takeOutbound fault =>
    rw [outgoingStep] at hstep
    split at hstep
    · cases hstep
      exact Wakeful.takeOutbound b fault
    · cases hstep
  | sendSMS ok =>
    rw [outgoingStep] at hstep
    split at hstep
    · cases hstep
      intro hwaits
      cases ok <;> cases hwaits
    all_goals cases hstep
  | wakeReceived =>
    rw [outgoingStep] at hstep
    split at hstep
    · cases hstep
      intro hwaits
      cases hwaits
    · cases hstep
  | selected c =>
    rw [outgoingStep] at hstep
    split at hstep
    case isTrue hselect =>
      cases hstep
      -- it waited in the select before, too
      intro _
      refine hb ?_
      rw [hselect]
      rfl
    case isFalse => cases hstep
  | markSeen handle fault =>
    rw [outgoingStep] at hstep
    split at hstep
    · cases hstep
      exact hb.exec (.markSeen handle) fault (by simp) (by simp)
    all_goals cases hstep
  | finished keep =>
    rw [outgoingStep] at hstep
    split at hstep
    case h_1 c hserving =>
      cases hstep
      intro _
      refine hb ?_
      rw [hserving]
      rfl
    all_goals cases hstep
  | cancelled =>
    rw [outgoingStep] at hstep
    split at hstep
    · cases hstep
      intro hwaits
      cases hwaits
    · cases hstep
  | markBaseline handles fault =>
    rw [outgoingStep] at hstep
    split at hstep
    · cases hstep
      exact hb.exec (.markSeenMany handles) fault (by simp) (by simp)
    · cases hstep
  | setInitialized fault =>
    rw [outgoingStep] at hstep
    split at hstep
    · cases hstep
      exact hb.exec .setInitialized fault (by simp) (by simp)
    · cases hstep

-- == runs

/-- In every run, from any store: where the loop waits in its select and
no `enqueue` call is between its `AddOutbound` and its send, a queue that
is not empty has a token pending. -/
theorem no_lost_wake (s : Store)
    {tr : List (Trans Outgoing OutgoingAct OutgoingEvent)} {b : Outgoing}
    (hrun : Exec outgoingStep (.start s) tr b)
    (hselect : b.loop = .selecting) (hquiet : b.signalling = 0)
    (hqueue : b.store.data.outbound ≠ []) : b.wake = true := by
  have hstart : Wakeful (.start s) := by
    intro hwaits
    cases hwaits
  have hb : Wakeful b := hrun.inv hstart fun hb hstep => hb.step hstep
  have hwaits : b.loop.waits = true := by
    rw [hselect]
    rfl
  rcases hb hwaits with hempty | hwake | hsignal
  · exact absurd hempty hqueue
  · exact hwake
  · omega

/-- Two calls whose steps interleave with the drain: the first is sent
already, the second is in the queue behind it. -/
theorem no_lost_wake_two_calls :
    ∃ tr b, Exec outgoingStep (.start freshStore) tr b
      ∧ b.loop = .selecting ∧ b.store.data.outbound.length = 1
      ∧ b.wake = true := by
  obtain ⟨tr, b, hrun, hselect, hquiet, hlen⟩ :=
    exec_of_decide outgoingStep (.start freshStore)
      [.enqueue (ascii "01012345678") (ascii "one") (some [1]) ⟨0, 0⟩ none,
        .runConnected, .takeOutbound none, .signal, .sendSMS true,
        .takeOutbound none,
        .enqueue (ascii "01012345678") (ascii "two") (some [2]) ⟨0, 0⟩ none,
        .selected .poll, .signal, .finished true]
      (fun _ b => b.loop = .selecting ∧ b.signalling = 0
        ∧ b.store.data.outbound.length = 1) (by decide +kernel)
  have hqueue : b.store.data.outbound ≠ [] := by
    intro hempty
    rw [hempty] at hlen
    cases hlen
  exact ⟨tr, b, hrun, hselect, hlen,
    no_lost_wake freshStore hrun hselect hquiet hqueue⟩

end Callbridge.Bridge
