/-
What each locked region of an `acquire` call and of an expiry timer does
to the broker: the fields it writes, as one equation, with what is known
of the values written. The rest of the proofs reads a region off its
equation here and does not unfold it. The regions that move a session are
in `SessionRegions`.
-/
import Callbridge.Bluez.World

namespace Callbridge.Bluez

open Lib

variable {b b' : Broker} {es : List Event} {held t : PendingTransport}
  {a : Acquisition} {linkedPeer : Option PendingTransport}
  {order : List (ObjectPath × PendingTransport)} {o : HoldOutcome}

-- == upkeep

/-- The events that keep the books on descriptors and timers. -/
def Event.isUpkeep : Event → Bool
  | .opened _ | .closed _ | .expiryArmed _ _ => true
  | _ => false

/-- What reads no upkeep reads nothing off a list of it. -/
theorem filterMap_upkeep {β : Type} {f : Event → Option β}
    (hf : ∀ e, e.isUpkeep = true → f e = none)
    (h : ∀ e ∈ es, e.isUpkeep = true) : es.filterMap f = [] :=
  List.filterMap_eq_nil_iff.mpr fun e he => hf e (h e he)

theorem upkeep_closeAll (l : List PendingTransport) :
    ∀ e ∈ closeAll l, e.isUpkeep = true := by
  intro e he
  obtain ⟨held, -, rfl⟩ := List.mem_map.mp he
  rfl

theorem upkeep_closeHeld (b : Broker) (path : ObjectPath) :
    ∀ e ∈ b.closeHeld path, e.isUpkeep = true := by
  intro e he
  unfold Broker.closeHeld at he
  split at he
  case h_1 =>
    obtain rfl := List.mem_singleton.mp he
    rfl
  case h_2 => cases he

theorem upkeep_expirePending (b : Broker) (path : ObjectPath)
    (generation : UInt64) :
    ∀ e ∈ (b.expirePending path generation).2, e.isUpkeep = true := by
  intro e he
  unfold Broker.expirePending at he
  split at he
  case h_1 => cases he
  case h_2 =>
    split at he
    case isTrue =>
      obtain rfl := List.mem_singleton.mp he
      rfl
    case isFalse => cases he

/-- `clear` reports itself and closes what is held at the path. -/
theorem clear_events (b : Broker) (path : ObjectPath) :
    (b.clear path).2 = .cleared path :: b.closeHeld path := by
  unfold Broker.clear
  split <;> rfl

-- == generations

/-- Drawing a generation moves nothing but the counter. -/
theorem nextGeneration_eq {clock : Option (Int × Int)} {g : UInt64}
    (h : b.nextGeneration clock = some (g, b')) :
    b' = { b with lastGen := g } := by
  unfold Broker.nextGeneration at h
  split at h
  case h_1 => cases h
  case h_2 =>
    split at h
    case isTrue => cases h
    case isFalse =>
      split at h
      case isTrue =>
        split at h
        case isTrue => cases h
        case isFalse => cases h; rfl
      case isFalse => cases h; rfl

/-- The configuration a transport was held under is the one in force. -/
theorem stillConfigured_iff :
    b.stillConfigured held = true
      ↔ ∃ c, b.configured.lookup held.path = some c
        ∧ c.generation = held.config.generation := by
  unfold Broker.stillConfigured
  cases b.configured.lookup held.path with
  | none | some c => simp

-- == reservations

theorem clearPairingOf_eq (b : Broker) (held : PendingTransport) :
    b.clearPairingOf held = { b with
      pairing := if b.stillConfigured held then b.pairing.erase held.path
        else b.pairing } := by
  unfold Broker.clearPairingOf
  split <;> rfl

/-- The reservations `clearPairingLocked` leaves. -/
def Cleared (b : Broker) (sink source : PendingTransport)
    (pairing : Finset ObjectPath) : Prop :=
  ∀ p, p ∈ pairing ↔ p ∈ b.pairing
    ∧ ¬ (p = sink.path ∧ b.stillConfigured sink = true)
    ∧ ¬ (p = source.path ∧ b.stillConfigured source = true)

/-- `clearPairingLocked` moves nothing but the reservations. -/
theorem clearPairingLocked_frame (b : Broker)
    (sink source : PendingTransport) :
    ∃ pairing, b.clearPairingLocked sink source
        = { b with pairing := pairing }
      ∧ Cleared b sink source pairing := by
  unfold Broker.clearPairingLocked
  rw [clearPairingOf_eq, clearPairingOf_eq b sink]
  refine ⟨_, rfl, ?_⟩
  intro p
  have hsame : ∀ pairing, ({ b with pairing := pairing } :
      Broker).stillConfigured source = b.stillConfigured source :=
    fun _ => rfl
  simp only [hsame]
  cases b.stillConfigured sink with
  | true =>
    cases b.stillConfigured source with
    | true | false => simp [Finset.mem_erase]; tauto
  | false =>
    cases b.stillConfigured source with
    | true => simp [Finset.mem_erase]; tauto
    | false => simp

-- == marks

/-- The guard that `markAcquiring` passes, and what it writes. -/
theorem markAcquiring_frame {path : ObjectPath} {peer : Option ObjectPath}
    (h : b.markAcquiring path peer = some (a, b')) :
    a.path = path ∧ b.connection = some a.conn
      ∧ b.configured.lookup path = some a.config
      ∧ (∀ q c, a.peer = some (q, c) → b.configured.lookup q = some c)
      ∧ ∃ acquiring, b' = { b with acquiring := acquiring } := by
  unfold Broker.markAcquiring at h
  split at h
  case h_2 => cases h
  case h_1 config conn hc hconn =>
    split at h
    case isFalse => cases h
    case isTrue =>
      cases peer with
      | none =>
        cases h
        refine ⟨rfl, hconn, hc, ?_, _, rfl⟩
        intro q c hq
        cases hq
      | some peerPath =>
        simp only at h
        split at h
        case h_1 => cases h
        case h_2 peerConfig hp =>
          split at h
          case isFalse => cases h
          case isTrue =>
            cases h
            refine ⟨rfl, hconn, hc, ?_, _, rfl⟩
            intro q c hq
            cases hq
            exact hp

/-- The deferred function writes `acquiring` alone. -/
theorem unmarkAcquiring_frame (b : Broker) (a : Acquisition) :
    ∃ acquiring, b.unmarkAcquiring a = { b with acquiring := acquiring } := by
  unfold Broker.unmarkAcquiring
  cases a.peer with
  | none | some p => exact ⟨_, rfl⟩

-- == holding

/-- What `acquire` holds after its validation was taken at the
configurations it marked, under the descriptor it was given and, for a
linked peer, the next. -/
theorem hold_eq_some {fd : FD} {r : TransportReply}
    (h : a.hold fd r = some (held, linkedPeer)) :
    held.path = a.path ∧ held.config = a.config ∧ held.fd = fd
      ∧ ∀ peer, linkedPeer = some peer →
          a.peer = some (peer.path, peer.config) ∧ peer.fd = fd + 1 := by
  unfold Acquisition.hold at h
  split at h
  case h_1 => cases h
  case h_2 =>
    split at h
    case h_1 =>
      cases h
      exact ⟨rfl, rfl, rfl, nofun⟩
    case h_2 hpeer =>
      split at h
      case isFalse => cases h
      case isTrue =>
        split at h
        case h_1 => cases h
        case h_2 =>
          split at h
          case isFalse => cases h
          case isTrue =>
            cases h
            refine ⟨rfl, rfl, rfl, ?_⟩
            rintro peer ⟨⟩
            exact ⟨hpeer, rfl⟩

theorem lookup_dropPending {b : Broker} {path p : ObjectPath}
    (h : (b.dropPending path).pending.lookup p = some t) :
    p ≠ path ∧ b.pending.lookup p = some t := by
  have hl : (b.dropPending path).pending.lookup p
      = if p = path then none else b.pending.lookup p :=
    GoMap.lookup_erase _ _ _
  rw [hl] at h
  split at h
  case isTrue => cases h
  case isFalse hne => exact ⟨hne, h⟩

theorem lookup_holdPending (b : Broker) (held : PendingTransport)
    (p : ObjectPath) :
    (b.holdPending held).pending.lookup p
      = if p = held.path then some held else b.pending.lookup p :=
  GoMap.lookup_insert _ _ _ _

/-- The transports are put into the map. -/
def Broker.place (b : Broker) (held : PendingTransport) :
    Option PendingTransport → Broker
  | none => b.holdPending held
  | some peer => (b.holdPending held).holdPending peer

/-- Placing transports writes `pending` alone. -/
theorem place_eq (b : Broker) (held : PendingTransport)
    (linkedPeer : Option PendingTransport) :
    b.place held linkedPeer
      = { b with pending := (b.place held linkedPeer).pending } := by
  cases linkedPeer with
  | none | some peer => rfl

/-- Both transports are configured as they were when they were acquired,
and their places are free. -/
structure Placeable (b : Broker) (held : PendingTransport)
    (linkedPeer : Option PendingTransport) : Prop where
  configured : b.stillConfigured held = true
  free : b.pending.lookup held.path = none
  peer : ∀ {peer}, linkedPeer = some peer → b.stillConfigured peer = true
    ∧ (b.holdPending held).pending.lookup peer.path = none

/-- An entry of the map with the transports in it. -/
theorem lookup_place {p : ObjectPath}
    (h : (b.place held linkedPeer).pending.lookup p = some t) :
    b.pending.lookup p = some t
      ∨ (t = held ∨ linkedPeer = some t) ∧ p = t.path := by
  have hheld : (b.holdPending held).pending.lookup p = some t →
      b.pending.lookup p = some t ∨ t = held ∧ p = t.path := by
    intro h
    rw [lookup_holdPending] at h
    split at h
    case isTrue hp =>
      cases h
      exact Or.inr ⟨rfl, hp⟩
    case isFalse => exact Or.inl h
  cases linkedPeer with
  | none => exact (hheld h).imp id (And.imp Or.inl id)
  | some peer =>
    have hl : ((b.holdPending held).holdPending peer).pending.lookup p
        = some t := h
    rw [lookup_holdPending] at hl
    split at hl
    case isTrue hp =>
      cases hl
      exact Or.inr ⟨Or.inr rfl, hp⟩
    case isFalse => exact (hheld hl).imp id (And.imp Or.inl id)

theorem Placeable.stillConfigured (h : Placeable b held linkedPeer)
    (ht : t = held ∨ linkedPeer = some t) :
    b.stillConfigured t = true := by
  rcases ht with rfl | ht
  · exact h.configured
  · exact (h.peer ht).1

theorem Placeable.path_ne {peer : PendingTransport}
    (h : Placeable b held (some peer)) : peer.path ≠ held.path := by
  intro he
  have hfree := (h.peer rfl).2
  rw [lookup_holdPending, if_pos he] at hfree
  cases hfree

/-- A transport held beside this one that it could be paired with. -/
def Candidate (b : Broker) (held peer : PendingTransport) : Prop :=
  (∃ p, b.pending.lookup p = some peer) ∧ peer.path ≠ held.path
    ∧ peer.config.direction ≠ held.config.direction

/-- The five ways through the third region of `acquire`. -/
inductive Held (b : Broker) (held : PendingTransport)
    (linkedPeer : Option PendingTransport) :
    HoldOutcome → Broker → List Event → Prop
  | refused : Held b held linkedPeer .returned b
      (closeAll (linkedPeer.toList ++ [held]))
  /-- The linked peer's place is taken. -/
  | taken {peer : PendingTransport} : linkedPeer = some peer →
      b.pending.lookup held.path = none →
      Held b held linkedPeer .returned
        ((b.holdPending held).dropPending held.path)
        (closeAll [peer, held])
  | parked : Placeable b held linkedPeer →
      (∀ peer, ¬ Candidate (b.place held linkedPeer) held peer) →
      Held b held linkedPeer .parked (b.place held linkedPeer)
        [.expiryArmed held.path held.config.generation]
  | mismatched {peer : PendingTransport} : Placeable b held linkedPeer →
      Candidate (b.place held linkedPeer) held peer →
      Held b held linkedPeer .returned
        (((b.place held linkedPeer).dropPending held.path).dropPending
          peer.path) (closeAll [held, peer])
  | paired {peer : PendingTransport} : Placeable b held linkedPeer →
      Candidate (b.place held linkedPeer) held peer →
      Held b held linkedPeer
        (.paired (orient held peer).1 (orient held peer).2)
        { ((b.place held linkedPeer).dropPending held.path).dropPending
            peer.path with
          pairing := insert (orient held peer).2.path
            (insert (orient held peer).1.path b.pairing) } []

/-- What the search finds can be paired with the transport. -/
theorem findPendingPeer_candidate {peer : PendingTransport}
    {e : Option PairError} (horder : b.pending.Order order)
    (h : findPendingPeerLocked held order = some (peer, e)) :
    Candidate b held peer := by
  unfold findPendingPeerLocked at h
  split at h
  case h_1 => cases h
  case h_2 c hc =>
    cases h
    have hfound := List.find?_some hc
    simp only [Bool.not_or, Bool.and_eq_true, Bool.not_eq_true',
      beq_eq_false_iff_ne] at hfound
    exact ⟨⟨c.1, horder.mem_iff.mp (List.mem_of_find?_eq_some hc)⟩, hfound⟩

/-- A search that finds nothing has met no candidate. -/
theorem findPendingPeer_none (horder : b.pending.Order order)
    (h : findPendingPeerLocked held order = none) (peer : PendingTransport) :
    ¬ Candidate b held peer := by
  rintro ⟨⟨p, hp⟩, hpath, hdir⟩
  unfold findPendingPeerLocked at h
  split at h
  case h_2 => cases h
  case h_1 hnone =>
    have hskip := List.find?_eq_none.mp hnone _ (horder.mem_iff.mpr hp)
    simp [hpath, hdir] at hskip

/-- The ways once both transports are in the map. -/
theorem Held.of_pairHeld (hp : Placeable b held linkedPeer)
    (h : (b.place held linkedPeer).pairHeld held order = some (o, b', es)) :
    Held b held linkedPeer o b' es := by
  unfold Broker.pairHeld at h
  split at h
  case isFalse => cases h
  case isTrue horder =>
    split at h
    case h_1 hfind =>
      cases h
      exact .parked hp (findPendingPeer_none horder hfind)
    case h_2 peer _ hfind =>
      cases h
      exact .mismatched hp (findPendingPeer_candidate horder hfind)
    case h_3 peer hfind =>
      have hpairing : (b.place held linkedPeer).pairing = b.pairing := by
        rw [place_eq]
      rw [hpairing] at h
      cases h
      exact .paired hp (findPendingPeer_candidate horder hfind)

/-- Every run of the third region is one of the five. -/
theorem Held.of_holdTransport
    (h : b.holdTransport held linkedPeer order = some (o, b', es)) :
    Held b held linkedPeer o b' es := by
  unfold Broker.holdTransport at h
  split at h
  case isTrue =>
    cases h
    exact .refused
  case isFalse hguard =>
    simp only [Bool.or_eq_true, not_or, Bool.not_eq_true',
      Bool.not_eq_false, Option.isSome_iff_ne_none, not_not] at hguard
    obtain ⟨⟨hheld, hpeer⟩, hfree⟩ := hguard
    cases linkedPeer with
    | none => exact .of_pairHeld ⟨hheld, hfree, nofun⟩ h
    | some peer =>
      simp only at h
      split at h
      case isTrue =>
        cases h
        exact .taken rfl hfree
      case isFalse hplace =>
        refine .of_pairHeld ⟨hheld, hfree, fun he => ?_⟩ h
        cases he
        exact ⟨by simpa using hpeer, by simpa using hplace⟩

/-- The third region lets out upkeep alone. -/
theorem upkeep_holdTransport
    (h : b.holdTransport held linkedPeer order = some (o, b', es)) :
    ∀ e ∈ es, e.isUpkeep = true := by
  cases Held.of_holdTransport h with
  | refused | taken => exact upkeep_closeAll _
  | parked =>
    intro e he
    obtain rfl := List.mem_singleton.mp he
    rfl
  | mismatched => exact upkeep_closeAll _
  | paired =>
    intro e he
    cases he

/-- What a pairing outcome says: the pair is the held transport and another
entry of the map, oriented, and both paths are reserved. Every other
outcome leaves the reservations alone. -/
def HoldOutcome.Spec (b : Broker) (held : PendingTransport)
    (entry : PendingTransport → Prop) (pairing : Finset ObjectPath) :
    HoldOutcome → Prop
  | .paired sink source =>
      pairing = insert source.path (insert sink.path b.pairing)
        ∧ ∃ peer, entry peer ∧ peer.path ≠ held.path
          ∧ (sink, source) = orient held peer
  | _ => pairing = b.pairing

/-- What the third region of `acquire` writes: entries for the transports
it came with, if they are still configured, and at most one pair of
reservations. -/
theorem holdTransport_frame
    (h : b.holdTransport held linkedPeer order = some (o, b', es)) :
    ∃ pending pairing,
      b' = { b with pending := pending, pairing := pairing }
        ∧ (∀ p t, pending.lookup p = some t → b.pending.lookup p = some t
          ∨ (t = held ∨ linkedPeer = some t) ∧ p = t.path
            ∧ b.stillConfigured t = true)
        ∧ o.Spec b held (fun t => (∃ p, b.pending.lookup p = some t)
            ∨ (t = held ∨ linkedPeer = some t)
              ∧ b.stillConfigured t = true) pairing
        ∧ (∀ sink source, o = .paired sink source →
          b.stillConfigured held = true) := by
  -- what is in the map after placing was there, or is one of the two
  have hentry : Placeable b held linkedPeer → ∀ p t,
      (b.place held linkedPeer).pending.lookup p = some t →
      b.pending.lookup p = some t ∨ (t = held ∨ linkedPeer = some t)
        ∧ p = t.path ∧ b.stillConfigured t = true := by
    intro hp p t ht
    refine (lookup_place ht).imp id ?_
    rintro ⟨hown, hpath⟩
    exact ⟨hown, hpath, hp.stillConfigured hown⟩
  have hreturned : ∀ sink source, HoldOutcome.returned ≠ .paired sink source
      := fun _ _ ho => by cases ho
  cases Held.of_holdTransport h with
  | refused =>
    exact ⟨b.pending, b.pairing, rfl, fun _ _ ht => Or.inl ht, rfl,
      fun _ _ ho => absurd ho (hreturned _ _)⟩
  | taken =>
    refine ⟨_, b.pairing, rfl, ?_, rfl,
      fun _ _ ho => absurd ho (hreturned _ _)⟩
    intro p t ht
    obtain ⟨hne, hl⟩ := lookup_dropPending (b := b.holdPending held) ht
    rw [lookup_holdPending, if_neg hne] at hl
    exact Or.inl hl
  | parked hp _ =>
    exact ⟨_, b.pairing, place_eq b held linkedPeer, hentry hp, rfl,
      fun _ _ _ => hp.configured⟩
  | mismatched hp hc =>
    rw [place_eq]
    refine ⟨_, b.pairing, rfl, ?_, rfl, fun _ _ _ => hp.configured⟩
    intro p t ht
    exact hentry hp p t (lookup_dropPending (lookup_dropPending ht).2).2
  | @paired peer hp hc =>
    obtain ⟨⟨p, hl⟩, hne, -⟩ := hc
    rw [place_eq]
    refine ⟨_, _, rfl, ?_, ⟨rfl, peer, ?_, hne, rfl⟩,
      fun _ _ _ => hp.configured⟩
    · intro p t ht
      exact hentry hp p t (lookup_dropPending (lookup_dropPending ht).2).2
    · refine (hentry hp p peer hl).imp (fun hb => ⟨p, hb⟩) ?_
      rintro ⟨hown, -, hconf⟩
      exact ⟨hown, hconf⟩

/-- A timer takes out of `pending` and writes nothing else. -/
theorem expirePending_frame (b : Broker) (path : ObjectPath)
    (generation : UInt64) :
    ∃ pending, (b.expirePending path generation).1
        = { b with pending := pending }
      ∧ ∀ p t, pending.lookup p = some t → b.pending.lookup p = some t := by
  unfold Broker.expirePending
  split
  case h_1 => exact ⟨b.pending, rfl, fun _ _ ht => ht⟩
  case h_2 =>
    split
    case isTrue => exact ⟨_, rfl, fun _ _ ht => (lookup_dropPending ht).2⟩
    case isFalse => exact ⟨b.pending, rfl, fun _ _ ht => ht⟩

-- == publication

/-- The three ways through the last region of `acquire`: the pair goes
back unpublished, `PublishPair` refuses it, or a session is installed. -/
inductive Published (b : Broker) (id : AcquireId) (p : Publication)
    (pairing : Finset ObjectPath) : Broker → List Event → Prop
  | returned (lastGen : UInt64) :
      Published b id p pairing
        { b with lastGen := lastGen, pairing := pairing }
        (.unreserved id p.sink p.source :: closeAll [p.sink, p.source])
  | refused (g g' : UInt64) :
      b.pairCurrentLocked p.conn p.sink p.source = true →
      p.lifecycleFD = none →
      Published b id p pairing
        { b with lastGen := g', pairing := pairing }
        (.publishPair id p.sink p.source (p.sinkDescriptor g)
            (p.sourceDescriptor g g') false
          :: .unreserved id p.sink p.source
          :: closeAll [p.sink, p.source])
  | handedOff (g g' : UInt64) (fd : Int) :
      b.pairCurrentLocked p.conn p.sink p.source = true →
      p.lifecycleFD = some fd →
      Published b id p pairing
        { b.install (p.session g g' fd) with
          lastGen := g', pairing := pairing }
        (.publishPair id p.sink p.source (p.sinkDescriptor g)
            (p.sourceDescriptor g g') true
          :: .unreserved id p.sink p.source
          :: closeAll [p.sink, p.source])

/-- Every run of the last region is one of the three. -/
theorem publish_cases (b : Broker) (id : AcquireId) (p : Publication) :
    ∃ pairing, Cleared b p.sink p.source pairing
      ∧ Published b id p pairing (b.publish id p).1
          (b.publish id p).2 := by
  -- the pair goes back with the counter where the clocks have left it
  have hreturn : ∀ g, ∃ pairing, Cleared b p.sink p.source pairing
      ∧ Published b id p pairing
        (({ b with lastGen := g } : Broker).returnPair id p.sink p.source).1
        (({ b with lastGen := g } : Broker).returnPair id p.sink
          p.source).2 := by
    intro g
    obtain ⟨pairing, he, hmem⟩ := clearPairingLocked_frame
      { b with lastGen := g } p.sink p.source
    refine ⟨pairing, hmem, ?_⟩
    unfold Broker.returnPair
    rw [he]
    exact .returned g
  unfold Broker.publish
  split
  case isFalse => exact hreturn b.lastGen
  case isTrue hcur =>
    split
    case h_1 => exact hreturn b.lastGen
    case h_2 g b₁ h₁ =>
      obtain rfl := nextGeneration_eq h₁
      split
      case h_1 => exact hreturn g
      case h_2 g' b₂ h₂ =>
        obtain rfl := nextGeneration_eq h₂
        unfold Broker.handOff
        split
        case h_1 hfd =>
          obtain ⟨pairing, he, hmem⟩ := clearPairingLocked_frame
            { b with lastGen := g' } p.sink p.source
          refine ⟨pairing, hmem, ?_⟩
          rw [he]
          exact .refused g g' hcur hfd
        case h_2 fd hfd =>
          obtain ⟨pairing, he, hmem⟩ := clearPairingLocked_frame
            (({ b with lastGen := g' } : Broker).install
              (p.session g g' fd)) p.sink p.source
          refine ⟨pairing, hmem, ?_⟩
          rw [he]
          exact .handedOff g g' fd hcur hfd

-- == regions of acquire calls

/-- The call has moved on. -/
def World.moved (w : World) (id : AcquireId) (next : Acquire) : World :=
  { w with acquires := w.acquires.set id next }

/-- What a region of an `acquire` call does to the world. -/
inductive AcquireMove (w : World) (id : AcquireId) :
    Acquire → AcquireAct → World → List Event → Prop
  | enter (path : ObjectPath) {next : Acquire} :
      next = .linking path ∨ next = .done →
      AcquireMove w id (.entered path) .enter (w.moved id next) []
  | readLinks (path : ObjectPath) (links : Option (List ObjectPath)) :
      AcquireMove w id (.linking path) (.readLinks links)
        (w.moved id (afterLinks path links)) []
  | refuse (path : ObjectPath) (peer : Option ObjectPath) :
      AcquireMove w id (.planned path peer) .mark (w.moved id .done) []
  | mark {path : ObjectPath} {peer : Option ObjectPath} {a : Acquisition}
      (acquiring : Finset ObjectPath) :
      a.path = path → w.broker.connection = some a.conn →
      w.broker.configured.lookup path = some a.config →
      (∀ q c, a.peer = some (q, c) →
        w.broker.configured.lookup q = some c) →
      AcquireMove w id (.planned path peer) .mark
        { w.moved id (.marked a) with
          broker := { w.broker with acquiring := acquiring } } []
  /-- `TryAcquire` has failed. -/
  | fail (a : Acquisition) :
      AcquireMove w id (.marked a) (.tryAcquire none)
        (w.moved id (.returning a)) []
  /-- What it returned was not accepted. -/
  | reject {a : Acquisition} {r : TransportReply} :
      a.hold w.fds r = none →
      AcquireMove w id (.marked a) (.tryAcquire (some r))
        { w.moved id (.returning a) with fds := w.fds + 1 }
        [.opened w.fds, .closed w.fds]
  | acquire {a : Acquisition} {r : TransportReply}
      {held : PendingTransport} {linkedPeer : Option PendingTransport} :
      a.hold w.fds r = some (held, linkedPeer) →
      AcquireMove w id (.marked a) (.tryAcquire (some r))
        { w.moved id (.held a held linkedPeer) with
          fds := w.fds + 1 + linkedPeer.toList.length }
        (.opened w.fds :: linkedPeer.toList.map fun peer => .opened peer.fd)
  | undecoded (a : Acquisition) :
      AcquireMove w id (.marked a) .undecoded
        { w.moved id (.returning a) with fds := w.fds + 1 }
        [.opened w.fds]
  | giveBack {a : Acquisition} {held : PendingTransport}
      {linkedPeer : Option PendingTransport}
      {order : List (ObjectPath × PendingTransport)} {b : Broker}
      {es : List Event} :
      w.broker.holdTransport held linkedPeer order
        = some (.returned, b, es) →
      AcquireMove w id (.held a held linkedPeer) (.hold order)
        { w.moved id (.returning a) with broker := b } es
  | park {a : Acquisition} {held : PendingTransport}
      {linkedPeer : Option PendingTransport}
      {order : List (ObjectPath × PendingTransport)} {b : Broker}
      {es : List Event} :
      w.broker.holdTransport held linkedPeer order = some (.parked, b, es) →
      AcquireMove w id (.held a held linkedPeer) (.hold order)
        { w.moved id (.returning a) with
          broker := b
          timers := (held.path, held.config.generation) :: w.timers } es
  | pair {a : Acquisition} {held sink source : PendingTransport}
      {linkedPeer : Option PendingTransport}
      {order : List (ObjectPath × PendingTransport)} {b : Broker}
      {es : List Event} :
      w.broker.holdTransport held linkedPeer order
        = some (.paired sink source, b, es) →
      AcquireMove w id (.held a held linkedPeer) (.hold order)
        { w.moved id (.reserved a sink source) with broker := b }
        (.reserved id sink source :: es)
  | wait (a : Acquisition) (sink source : PendingTransport)
      (answer : Option (UInt64 × Bool)) (expired : Bool) :
      AcquireMove w id (.reserved a sink source) (.poll answer expired) w []
  | correlate (a : Acquisition) (sink source : PendingTransport)
      {answer : Option (UInt64 × Bool)} (expired : Bool) {token : UInt64}
      {correlated : Bool} :
      (correlated = true → correlatedToken answer = some token) →
      AcquireMove w id (.reserved a sink source) (.poll answer expired)
        (w.moved id (.correlated a sink source token correlated)) []
  | publish {a : Acquisition} {p : Publication}
      {pairing : Finset ObjectPath} {b : Broker} {es : List Event} :
      p.conn = a.conn → Cleared w.broker p.sink p.source pairing →
      Published w.broker id p pairing b es →
      (∃ g, b = { w.broker with lastGen := g, pairing := pairing }
          ∧ es = .unreserved id p.sink p.source
            :: closeAll [p.sink, p.source])
        ∨ (w.broker.requireToken = true → p.callCorrelated = true) →
      AcquireMove w id
        (.correlated a p.sink p.source p.callToken p.callCorrelated)
        (.publish p.sinkClock p.sourceClock p.lifecycleFD p.now)
        { w.moved id (.returning a) with broker := b } es
  | unmark (a : Acquisition) (acquiring : Finset ObjectPath) :
      AcquireMove w id (.returning a) .unmark
        { w.moved id .done with
          broker := { w.broker with acquiring := acquiring } } []

/-- The third region, by its outcome. -/
theorem AcquireMove.of_hold {w : World} {id : AcquireId}
    {r : HoldOutcome × Broker × List Event}
    (h : w.broker.holdTransport held linkedPeer order = some r) :
    AcquireMove w id (.held a held linkedPeer) (.hold order)
      (w.hold id a held r).1 (w.hold id a held r).2 := by
  obtain ⟨o, b, es⟩ := r
  cases o with
  | returned => exact .giveBack h
  | parked => exact .park h
  | paired sink source => exact .pair h

/-- The last region, by its outcome. -/
theorem AcquireMove.of_publish (w : World) (id : AcquireId)
    (a : Acquisition) (p : Publication) (hp : p.conn = a.conn) :
    AcquireMove w id
      (.correlated a p.sink p.source p.callToken p.callCorrelated)
      (.publish p.sinkClock p.sourceClock p.lifecycleFD p.now)
      (w.publish id a p).1 (w.publish id a p).2 := by
  unfold World.publish
  split
  case isTrue =>
    obtain ⟨pairing, he, hmem⟩ := clearPairingLocked_frame w.broker p.sink
      p.source
    unfold Broker.returnPair
    rw [he]
    exact .publish hp hmem (Published.returned w.broker.lastGen)
      (Or.inl ⟨_, rfl, rfl⟩)
  case isFalse hreq =>
    obtain ⟨pairing, hmem, hpub⟩ := publish_cases w.broker id p
    refine .publish hp hmem hpub (Or.inr fun ht => ?_)
    cases hc : p.callCorrelated with
    | true => rfl
    | false =>
      rw [ht, hc] at hreq
      exact absurd rfl hreq

/-- Every region of an `acquire` call is one of the moves. -/
theorem AcquireMove.of_step {w w' : World} {id : AcquireId}
    {call : Acquire} {act : AcquireAct}
    (h : acquireStep w id call act = some (w', es)) :
    AcquireMove w id call act w' es := by
  -- one region for each place the call can stand at
  unfold acquireStep at h
  split at h
  case h_1 path =>
    cases h
    refine .enter path ?_
    split
    case isTrue => exact Or.inl rfl
    case isFalse => exact Or.inr rfl
  case h_2 path links =>
    cases h
    exact .readLinks path links
  case h_3 path peer =>
    split at h
    case h_1 a b hm =>
      cases h
      obtain ⟨hpath, hconn, hconfig, hpeer, acquiring, rfl⟩ :=
        markAcquiring_frame hm
      exact .mark acquiring hpath hconn hconfig hpeer
    case h_2 =>
      cases h
      exact .refuse path peer
  -- `TryAcquire` has answered
  case h_4 a reply =>
    injection h with h
    unfold World.tryAcquire at h
    split at h
    case h_1 =>
      cases h
      exact .fail a
    case h_2 =>
      split at h
      case h_1 hnone =>
        cases h
        exact .reject hnone
      case h_2 held linkedPeer hsome =>
        cases h
        exact .acquire hsome
  case h_5 a =>
    cases h
    exact .undecoded a
  case h_6 a held linkedPeer order =>
    cases ho : w.broker.holdTransport held linkedPeer order with
    | none =>
      rw [ho] at h
      cases h
    | some r =>
      rw [ho] at h
      injection h with h
      have hmove : AcquireMove w id (.held a held linkedPeer) (.hold order)
          _ _ := .of_hold ho
      rw [h] at hmove
      exact hmove
  -- a pass of `waitForCallToken`
  case h_7 a sink source answer expired =>
    injection h with h
    unfold World.poll at h
    split at h
    case h_1 token ht =>
      cases h
      exact .correlate a sink source expired fun _ => ht
    case h_2 =>
      split at h
      case isTrue =>
        cases h
        exact .wait a sink source answer expired
      case isFalse =>
        cases h
        exact .correlate a sink source expired nofun
  case h_8 a sink source token correlated sinkClock sourceClock fd now =>
    injection h with h
    have hmove := AcquireMove.of_publish w id a ⟨a.conn, sink, source, token,
      correlated, sinkClock, sourceClock, fd, now⟩ rfl
    rw [h] at hmove
    exact hmove
  case h_9 a =>
    cases h
    obtain ⟨acquiring, he⟩ := unmarkAcquiring_frame w.broker a
    rw [he]
    exact .unmark a acquiring
  case h_10 => cases h

-- == the step

section Step

variable {w w' : World}

/-- A step of an `acquire` call that exists. -/
theorem step_acquire {id : AcquireId} {act : AcquireAct}
    (h : step w (.acquire id act) = some (w', es)) :
    ∃ call, w.acquires[id]? = some call
      ∧ acquireStep w id call act = some (w', es) := by
  simp only [step] at h
  split at h
  case h_1 call hid => exact ⟨call, hid, h⟩
  case h_2 => cases h

/-- A step of a session that was installed. -/
theorem step_session {sid : SessionId} {act : SessionAct}
    (h : step w (.session sid act) = some (w', es)) :
    ∃ s, w.broker.sessions[sid]? = some s
      ∧ sessionStep w sid s act = some (w', es) := by
  simp only [step] at h
  split at h
  case h_1 s hs => exact ⟨s, hs, h⟩
  case h_2 => cases h

/-- A timer that fires was armed, and is spent. -/
theorem step_expire {path : ObjectPath} {generation : UInt64}
    (h : step w (.expire path generation) = some (w', es)) :
    (path, generation) ∈ w.timers
      ∧ w'.timers = w.timers.erase (path, generation)
      ∧ (w'.broker, es) = w.broker.expirePending path generation := by
  simp only [step, Option.ite_none_right_eq_some] at h
  obtain ⟨hin, h⟩ := h
  cases h
  exact ⟨hin, rfl, rfl⟩

/-- An expiry drops pending transports and nothing else. -/
theorem step_expire_frame {path : ObjectPath} {generation : UInt64}
    (h : step w (.expire path generation) = some (w', es)) :
    ∃ pending timers, w' = { w with
          broker := { w.broker with pending := pending }, timers := timers }
      ∧ (∀ p t, pending.lookup p = some t →
        w.broker.pending.lookup p = some t)
      ∧ ∀ e ∈ es, e.isUpkeep = true := by
  simp only [step, Option.ite_none_right_eq_some] at h
  obtain ⟨-, h⟩ := h
  cases h
  obtain ⟨pending, he, hsub⟩ := expirePending_frame w.broker path generation
  exact ⟨pending, _, by rw [he], hsub, upkeep_expirePending _ _ _⟩

end Step

end Callbridge.Bluez
