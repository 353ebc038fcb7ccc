/-
The composition of broker and handoff server, taken apart: what one step
does on either side, and every run read as a run of the broker and as a
run of the server.
-/
import Callbridge.Bluez.Peering
import Callbridge.Bluez.Proofs.HandoffSteps
import Callbridge.Bluez.Proofs.SessionLife

namespace Callbridge.Bluez

open Lib

variable {m m' : Peering} {act : PeeringAct} {es : List PeeringEvent}

-- == one step

def PeeringEvent.ofBroker : PeeringEvent → Option Event
  | .broker e => some e
  | .server _ => none

def PeeringEvent.ofServer : PeeringEvent → Option ServerEvent
  | .broker _ => none
  | .server e => some e

theorem ofBroker_events (bs : List Event) (ss : List ServerEvent) :
    (bs.map PeeringEvent.broker ++ ss.map PeeringEvent.server).filterMap
      PeeringEvent.ofBroker = bs := by
  simp [List.filterMap_append, List.filterMap_map, Function.comp_def,
    PeeringEvent.ofBroker]

theorem ofServer_events (bs : List Event) (ss : List ServerEvent) :
    (bs.map PeeringEvent.broker ++ ss.map PeeringEvent.server).filterMap
      PeeringEvent.ofServer = ss := by
  simp [List.filterMap_append, List.filterMap_map, Function.comp_def,
    PeeringEvent.ofServer]

/-- What a step runs on either side. -/
structure PeeringMove (m : Peering) (act : PeeringAct) (m' : Peering)
    (es : List PeeringEvent) : Prop where
  enabled : m.enabled act = true
  broker : optStep step m.world (m.brokerAct act)
    = some (m'.world, es.filterMap PeeringEvent.ofBroker)
  server : optStep handoffStep m.handoff (m.serverAct act)
    = some (m'.handoff, es.filterMap PeeringEvent.ofServer)
  reading : m'.reading = m.nextReading act

theorem PeeringMove.of_step (h : peeringStep m act = some (m', es)) :
    PeeringMove m act m' es := by
  unfold peeringStep at h
  split at h
  case isFalse => cases h
  case isTrue hen =>
    split at h
    case h_2 => cases h
    case h_1 world bs handoff ss hbroker hserver =>
      cases h
      refine ⟨hen, ?_, ?_, rfl⟩
      · rw [ofBroker_events]
        exact hbroker
      · rw [ofServer_events]
        exact hserver

-- == the two runs

section Runs

variable {m₀ : Peering} {tr : List PeeringTrans}

theorem broker_run (h : Exec peeringStep m₀ tr m) :
    ∃ t, Exec step m₀.world t m.world
      ∧ events t = (events tr).filterMap PeeringEvent.ofBroker :=
  h.part (g := Peering.brokerAct) fun hstep =>
    (PeeringMove.of_step hstep).broker

theorem server_run (h : Exec peeringStep m₀ tr m) :
    ∃ t, Exec handoffStep m₀.handoff t m.handoff
      ∧ events t = (events tr).filterMap PeeringEvent.ofServer :=
  h.part (g := Peering.serverAct) fun hstep =>
    (PeeringMove.of_step hstep).server

end Runs

end Callbridge.Bluez
