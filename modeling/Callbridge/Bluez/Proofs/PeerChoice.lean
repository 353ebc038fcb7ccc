/-
The choice of a peer and the order of the pending map.

The search ends at the first transport of the other direction, whether or
not the two make a pair. Any of them may come first, so what it finds is
the same for every order only where they are all refused or where there is
no choice.
-/
import Callbridge.Bluez.Proofs.OneOutcome

namespace Callbridge.Bluez

open Lib

variable {b : Broker} {held peer : PendingTransport}
  {order : List (ObjectPath × PendingTransport)}

-- == outcomes

/-- What the search comes to. -/
inductive PeerOutcome where
  | noPeer
  | peer (transport : PendingTransport)
  | rejected
  deriving DecidableEq

def peerOutcome (held : PendingTransport)
    (order : List (ObjectPath × PendingTransport)) : PeerOutcome :=
  match findPendingPeerLocked held order with
  | none => .noPeer
  | some (peer, none) => .peer peer
  | some (_, some _) => .rejected

/-- A candidate that makes a pair with the transport. -/
def ValidPeer (b : Broker) (held peer : PendingTransport) : Prop :=
  Candidate b held peer ∧ validateTransportPair held peer = none

/-- The outcome is the same for every order, and where there is a valid
peer one is found. -/
structure OrderFree (b : Broker) (held : PendingTransport) : Prop where
  same : ∀ order order', b.pending.Order order → b.pending.Order order' →
    peerOutcome held order = peerOutcome held order'
  found : (∃ peer, ValidPeer b held peer) →
    ∀ order, b.pending.Order order → ∃ peer, ValidPeer b held peer
      ∧ findPendingPeerLocked held order = some (peer, none)

/-- The search ends with one of the candidates, if there is any. -/
theorem search_cases (held : PendingTransport)
    (horder : b.pending.Order order) :
    (∀ peer, ¬ Candidate b held peer)
        ∧ findPendingPeerLocked held order = none
      ∨ ∃ peer, Candidate b held peer
        ∧ findPendingPeerLocked held order
          = some (peer, validateTransportPair held peer) := by
  cases h : findPendingPeerLocked held order with
  | none => exact Or.inl ⟨findPendingPeer_none horder h, rfl⟩
  | some found =>
    obtain ⟨peer, e⟩ := found
    have hcand := findPendingPeer_candidate horder h
    refine Or.inr ⟨peer, hcand, ?_⟩
    unfold findPendingPeerLocked at h
    split at h
    case h_1 => cases h
    case h_2 =>
      cases h
      rfl

/-- Every candidate is the one the search ends with, in some order. -/
theorem search_any (h : Candidate b held peer) :
    ∃ order, b.pending.Order order
      ∧ findPendingPeerLocked held order
        = some (peer, validateTransportPair held peer) := by
  obtain ⟨⟨path, hpath⟩, hne, hdir⟩ := h
  obtain ⟨rest, horder⟩ := GoMap.exists_order_cons hpath
  refine ⟨(path, peer) :: rest, horder, ?_⟩
  unfold findPendingPeerLocked
  simp [hne, hdir]

theorem peerOutcome_of_search
    (h : findPendingPeerLocked held order
      = some (peer, validateTransportPair held peer)) :
    peerOutcome held order
      = if validateTransportPair held peer = none then .peer peer
        else .rejected := by
  unfold peerOutcome
  rw [h]
  cases validateTransportPair held peer with
  | none | some e => rfl

-- == the bound

/-- The choice of a peer does not depend on the order of the map exactly
when no candidate makes a pair with the transport, or when there are not
two candidates. -/
theorem peer_choice_order_free (b : Broker) (held : PendingTransport) :
    OrderFree b held
      ↔ (∀ peer, Candidate b held peer →
          validateTransportPair held peer ≠ none)
        ∨ ∀ peer peer', Candidate b held peer → Candidate b held peer' →
          peer = peer' := by
  constructor
  · intro h
    by_cases hvalid : ∃ peer, ValidPeer b held peer
    · right
      obtain ⟨peer, hpeer⟩ := hvalid
      -- whatever comes first, the outcome is that of the valid one
      have hall : ∀ other, Candidate b held other → other = peer := by
        intro other hother
        obtain ⟨order, horder, hfind⟩ := search_any hpeer.1
        obtain ⟨order', horder', hfind'⟩ := search_any hother
        have hsame := h.same order order' horder horder'
        rw [peerOutcome_of_search hfind, peerOutcome_of_search hfind',
          if_pos hpeer.2] at hsame
        split at hsame
        case isTrue =>
          cases hsame
          rfl
        case isFalse => cases hsame
      intro p p' hp hp'
      rw [hall p hp, hall p' hp']
    · left
      intro peer hcand hpair
      exact hvalid ⟨peer, hcand, hpair⟩
  · intro h
    refine ⟨?_, ?_⟩
    · intro order order' horder horder'
      rcases search_cases held horder with
        ⟨hno, hfind⟩ | ⟨peer, hcand, hfind⟩
      · rcases search_cases held horder' with
          ⟨-, hfind'⟩ | ⟨peer', hcand', -⟩
        · unfold peerOutcome
          rw [hfind, hfind']
        · exact absurd hcand' (hno peer')
      · rcases search_cases held horder' with
          ⟨hno, -⟩ | ⟨peer', hcand', hfind'⟩
        · exact absurd hcand (hno peer)
        · rw [peerOutcome_of_search hfind, peerOutcome_of_search hfind']
          rcases h with hnone | hone
          · rw [if_neg (hnone peer hcand), if_neg (hnone peer' hcand')]
          · rw [hone peer peer' hcand hcand']
    · intro hvalid order horder
      obtain ⟨peer, hcand, hpair⟩ := hvalid
      rcases search_cases held horder with
        ⟨hno, -⟩ | ⟨found, hfound, hfind⟩
      · exact absurd hcand (hno peer)
      · rcases h with hnone | hone
        · exact absurd hpair (hnone peer hcand)
        · obtain rfl := hone found peer hfound hcand
          rw [hpair] at hfind
          exact ⟨found, ⟨hfound, hpair⟩, hfind⟩

/-- A sink with a link to its peer. -/
def linkedSink : PendingTransport :=
  sampleHeld (samplePath 1) (samplePath 1) .sink 2 [samplePath 2] 1

def linkedSource : PendingTransport :=
  sampleHeld (samplePath 2) (samplePath 1) .source 3 [samplePath 1] 2

/-- A source that is held alone. -/
def aloneSource : PendingTransport :=
  sampleHeld (samplePath 3) (samplePath 3) .source 1 [] 0

/-- All three are pending. -/
def crowdedBroker : Broker :=
  { newBroker sampleDevice true 1 with
    pending := ((∅ : GoMap ObjectPath PendingTransport).insert
      (samplePath 3) aloneSource).insert (samplePath 1) linkedSink
      |>.insert (samplePath 2) linkedSource }

/-- The linked pair is found or refused as the map is ranged over. -/
theorem peer_choice_depends_on_order :
    crowdedBroker.pending.lookup linkedSink.path = some linkedSink
      ∧ ValidPeer crowdedBroker linkedSink linkedSource
      ∧ ∃ order order', crowdedBroker.pending.Order order
        ∧ crowdedBroker.pending.Order order'
        ∧ peerOutcome linkedSink order = .peer linkedSource
        ∧ peerOutcome linkedSink order' = .rejected := by
  refine ⟨by decide, ⟨⟨⟨samplePath 2, by decide⟩, by decide, by decide⟩,
    by decide⟩,
    [(samplePath 2, linkedSource), (samplePath 1, linkedSink),
      (samplePath 3, aloneSource)],
    [(samplePath 3, aloneSource), (samplePath 1, linkedSink),
      (samplePath 2, linkedSource)], by decide, by decide, by decide,
    by decide⟩

end Callbridge.Bluez
