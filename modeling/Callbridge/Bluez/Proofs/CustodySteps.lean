/-
What each step does to the transports held in `pending`, with their
descriptors and their expiry timers. A region outside the `acquire` calls
puts nothing into the map, and closes what it takes out (`Closes`); a
timer that fires does the same and is used up; the rest is the regions of
`acquire`.
-/
import Callbridge.Lib.Custody
import Callbridge.Bluez.Proofs.ConfigSteps

namespace Callbridge.Bluez

open Lib

variable {b b' : Broker} {w w' : World} {es : List Event}

-- == the account

def Event.openedFD : Event → Option FD
  | .opened fd => some fd
  | _ => none

def Event.closedFD : Event → Option FD
  | .closed fd => some fd
  | _ => none

/-- What `pending` holds. -/
def Broker.pendingFDs (b : Broker) : Multiset FD :=
  b.pending.gather PendingTransport.fd

-- == the events

theorem closed_closeAll (l : List PendingTransport) :
    tally Event.closedFD (closeAll l)
      = (l.map PendingTransport.fd : List FD) := by
  unfold tally closeAll
  rw [List.filterMap_map]
  exact congrArg _ (congrFun (List.filterMap_eq_map
    (f := PendingTransport.fd)) l)

theorem opened_closeAll (l : List PendingTransport) :
    tally Event.openedFD (closeAll l) = 0 := by
  unfold tally closeAll
  rw [List.filterMap_map]
  exact congrArg _ (List.filterMap_eq_nil_iff.mpr fun _ _ => rfl)

/-- Events about sessions are about no descriptor. -/
theorem tally_session (h : ∀ e ∈ es, e.isSession = true) :
    tally Event.closedFD es = 0 ∧ tally Event.openedFD es = 0 := by
  have hnone : ∀ e ∈ es, e.closedFD = none ∧ e.openedFD = none := by
    intro e he
    have hs := h e he
    cases e <;> first | exact ⟨rfl, rfl⟩ | cases hs
  exact ⟨congrArg _ (List.filterMap_eq_nil_iff.mpr
      fun e he => (hnone e he).1),
    congrArg _ (List.filterMap_eq_nil_iff.mpr fun e he => (hnone e he).2)⟩

-- == closing regions

/-- A region that closes what it takes out of `pending`, and touches no
other descriptor. -/
structure Closes (b b' : Broker) (es : List Event) : Prop where
  sub : HeldBefore b b'
  closed : tally Event.closedFD es + b'.pendingFDs = b.pendingFDs
  opened : tally Event.openedFD es = 0

theorem Closes.of_pending {b₁ : Broker} (h : Closes b b₁ es)
    (hp : b'.pending = b₁.pending) : Closes b b' es := by
  have hfds : b'.pendingFDs = b₁.pendingFDs := by
    unfold Broker.pendingFDs
    rw [hp]
  refine ⟨?_, ?_, h.opened⟩
  · unfold HeldBefore
    rw [hp]
    exact h.sub
  · rw [hfds]
    exact h.closed

/-- An event about no descriptor changes nothing. -/
theorem Closes.cons {e : Event} (h : Closes b b' es)
    (hc : e.closedFD = none) (ho : e.openedFD = none) :
    Closes b b' (e :: es) := by
  refine ⟨h.sub, ?_, ?_⟩
  · unfold tally
    rw [List.filterMap_cons_none hc]
    exact h.closed
  · unfold tally
    rw [List.filterMap_cons_none ho]
    exact h.opened

theorem Closes.session (h : ∀ e ∈ es, e.isSession = true) :
    Closes b b es := by
  obtain ⟨hc, ho⟩ := tally_session h
  refine ⟨fun _ _ ht => ht, ?_, ho⟩
  rw [hc, zero_add]

theorem Closes.nothing : Closes b b [] := by
  refine .session ?_
  intro e he
  cases he

/-- What is dropped from the map is closed. -/
theorem Closes.drop (b : Broker) (path : ObjectPath) :
    Closes b (b.dropPending path) (b.closeHeld path) := by
  refine ⟨fun _ _ ht => (lookup_dropPending ht).2, ?_, ?_⟩
  · unfold Broker.closeHeld
    cases hl : b.pending.lookup path with
    | none =>
      show 0 + GoMap.gather _ (b.pending.erase path) = _
      rw [GoMap.erase_of_none hl, zero_add]
      rfl
    | some held => exact (GoMap.gather_erase PendingTransport.fd hl).symm
  · unfold Broker.closeHeld
    cases b.pending.lookup path with
    | none | some held => rfl

theorem Closes.all (hp : b'.pending = ∅) : Closes b b' b.closePending := by
  refine ⟨?_, ?_, opened_closeAll _⟩
  · intro p t ht
    rw [hp] at ht
    cases ht
  · have hempty : b'.pendingFDs = 0 := by
      unfold Broker.pendingFDs
      rw [hp]
      exact GoMap.gather_empty _
    unfold Broker.closePending
    rw [closed_closeAll, List.map_map, hempty, add_zero]
    exact (b.pending.sorted_order.gather_eq PendingTransport.fd).symm

theorem Closes.expire (b : Broker) (path : ObjectPath)
    (generation : UInt64) :
    Closes b (b.expirePending path generation).1
      (b.expirePending path generation).2 := by
  unfold Broker.expirePending
  split
  case h_1 => exact .nothing
  case h_2 held hl =>
    split
    case isTrue =>
      exact ⟨fun _ _ ht => (lookup_dropPending ht).2,
        (GoMap.gather_erase PendingTransport.fd hl).symm, rfl⟩
    case isFalse => exact .nothing

theorem Closes.configure (b : Broker) (valid : Bool) (path : ObjectPath)
    (direction : Direction) (codec : CodecConfig) (qos : TransportQoS) :
    Closes b (b.configure valid path direction codec qos).1
      (b.configure valid path direction codec qos).2 := by
  unfold Broker.configure
  split
  case h_1 => exact .nothing
  case h_2 =>
    refine .cons ?_ rfl rfl
    exact (Closes.drop b path).of_pending rfl

theorem Closes.clear (b : Broker) (path : ObjectPath) :
    Closes b (b.clear path).1 (b.clear path).2 := by
  rw [clear_events]
  obtain ⟨-, -, -, hp, -⟩ := transportView_inj (transportView_clear b path)
  refine .cons ?_ rfl rfl
  exact (Closes.drop b path).of_pending hp

theorem Closes.idle (b : Broker) (path : ObjectPath) :
    Closes b (b.idleSignal path).1 (b.idleSignal path).2 := by
  obtain ⟨es, he, hs⟩ := idleSignal_events b path
  obtain ⟨-, -, -, hp, -⟩ := transportView_inj
    (transportView_idleSignal b path)
  rw [he]
  refine .cons ?_ rfl rfl
  exact (Closes.session hs).of_pending hp

-- == the steps

/-- What a step does to the transports held. -/
inductive CustodyMove (w : World) : Action → World → List Event → Prop
  | region {act : Action} {w' : World} {es : List Event} :
      (∀ id a, act ≠ .acquire id a) → Closes w.broker w'.broker es →
      w'.timers = w.timers → w'.fds = w.fds →
      w'.acquires = w.acquires
        ∨ (∃ path, w'.acquires = w.acquires ++ [.entered path]) →
      CustodyMove w act w' es
  | expire {path : ObjectPath} {generation : UInt64} :
      (path, generation) ∈ w.timers →
      CustodyMove w (.expire path generation)
        { w with
          broker := (w.broker.expirePending path generation).1
          timers := w.timers.erase (path, generation) }
        (w.broker.expirePending path generation).2
  | acquire {id : AcquireId} {a : AcquireAct} {call : Acquire}
      {w' : World} {es : List Event} :
      w.acquires[id]? = some call → AcquireMove w id call a w' es →
      CustodyMove w (.acquire id a) w' es

/-- Every step is one of the moves. -/
theorem CustodyMove.of_step {act : Action}
    (h : step w act = some (w', es)) : CustodyMove w act w' es := by
  cases act with
  | connect devicePath | unregister =>
    cases h
    exact .region (fun _ _ ha => by cases ha)
      ((Closes.all rfl).cons rfl rfl) rfl rfl (Or.inl rfl)
  | disconnect =>
    cases h
    refine .region (fun _ _ ha => by cases ha) (Closes.cons ?_ rfl rfl)
      rfl rfl (Or.inl rfl)
    exact Closes.nothing.of_pending rfl
  | configure valid path direction codec qos =>
    cases h
    exact .region (fun _ _ ha => by cases ha) (Closes.configure ..) rfl rfl
      (Or.inl rfl)
  | clear path =>
    cases h
    exact .region (fun _ _ ha => by cases ha) (Closes.clear ..) rfl rfl
      (Or.inl rfl)
  | signal path state =>
    cases state with
    | pending =>
      cases h
      exact .region (fun _ _ ha => by cases ha) .nothing rfl rfl
        (Or.inr ⟨path, rfl⟩)
    | active =>
      cases h
      exact .region (fun _ _ ha => by cases ha) .nothing rfl rfl
        (Or.inl rfl)
    | idle =>
      cases h
      exact .region (fun _ _ ha => by cases ha) (Closes.idle ..) rfl rfl
        (Or.inl rfl)
  | acquire id act =>
    obtain ⟨call, hid, h⟩ := step_acquire h
    exact .acquire hid (AcquireMove.of_step h)
  | expire path generation =>
    simp only [step] at h
    split at h
    case isTrue hin =>
      cases h
      exact .expire hin
    case isFalse => cases h
  | session sid act =>
    obtain ⟨s, hget, h⟩ := step_session h
    obtain ⟨hv, ha, -, htimers, hfds, hs⟩ := sessionStep_transports hget h
    obtain ⟨-, -, -, hp, -⟩ := transportView_inj hv
    exact .region (fun _ _ ha => by cases ha)
      ((Closes.session hs).of_pending hp) htimers hfds (Or.inl ha)
  | statistic k =>
    cases h
    exact .region (fun _ _ ha => by cases ha)
      (Closes.nothing.of_pending rfl) rfl rfl (Or.inl rfl)

end Callbridge.Bluez
