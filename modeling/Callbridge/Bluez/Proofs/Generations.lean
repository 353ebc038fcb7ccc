/-
Configuration generations over whole runs. Generations are drawn from a
counter that only grows, so a path that is not configured at a generation
the counter has passed never is again (`Lost`, `run_lost`), and the same
holds of connections; and what is held at a path is held under the
configuration in force there (`ConfigInv.pending`).
-/
import Callbridge.Bluez.Proofs.ConfigSteps

namespace Callbridge.Bluez

open Lib

variable {b b' : Broker} {w w' : World} {es : List Event} {g : UInt64}
  {t : PendingTransport} {l : List Event} {p : ObjectPath} {conn : ConnId}

-- == invariant

/-- A generation counter that is not at its last value grows. -/
theorem lt_succ_generation (h : g ≠ maxGeneration) :
    g < g + 1 := by
  have hne : g.toNat ≠ 18446744073709551615 := by
    intro he
    apply h
    exact UInt64.toNat_inj.mp he
  have hlt := g.toNat_lt
  show g.toNat < (g.toNat + 1) % 2 ^ 64
  omega

/-- Generations in force are drawn already, a connection in use was
opened, and what is held is held under the configuration in force. -/
structure ConfigInv (w : World) : Prop where
  generation : ∀ p c, w.broker.configured.lookup p = some c →
    c.generation ≤ w.broker.nextConfig
  connection : ∀ c, w.broker.connection = some c → c < w.conns
  pending : ∀ p t, w.broker.pending.lookup p = some t →
    p = t.path ∧ w.broker.stillConfigured t = true

theorem newWorld_configInv (device : Bytes) (required : Bool)
    (wait : Nat) :
    ConfigInv (newWorld (newBroker device required wait)) := by
  refine ⟨?_, ?_, ?_⟩
  · intro p c h
    cases h
  · intro c h
    cases h
  · intro p t h
    cases h

theorem stillConfigured_congr
    (h : b'.configured.lookup t.path = b.configured.lookup t.path) :
    b'.stillConfigured t = b.stillConfigured t := by
  unfold Broker.stillConfigured
  rw [h]

/-- What is held away from the one path whose configuration changes. -/
theorem ConfigInv.pending_erase (h : ConfigInv w) {path : ObjectPath}
    (hp : w'.broker.pending = w.broker.pending.erase path)
    (hc : ∀ q, q ≠ path → w'.broker.configured.lookup q
      = w.broker.configured.lookup q) :
    ∀ p t, w'.broker.pending.lookup p = some t →
      p = t.path ∧ w'.broker.stillConfigured t = true := by
  intro p t ht
  rw [hp, GoMap.lookup_erase] at ht
  split at ht
  case isTrue => cases ht
  case isFalse hne =>
    obtain ⟨he, hs⟩ := h.pending p t ht
    refine ⟨he, ?_⟩
    rw [stillConfigured_congr (hc t.path (he ▸ hne))]
    exact hs

/-- Every move keeps the invariant. -/
theorem ConfigMove.inv (hm : ConfigMove w w' l) (h : ConfigInv w) :
    ConfigInv w' := by
  cases hm with
  | keep hs hp =>
    obtain ⟨hconn, hconns, hconf, hnext⟩ := hs
    refine ⟨?_, ?_, ?_⟩
    · rw [hconf, hnext]
      exact h.generation
    · rw [hconn, hconns]
      exact h.connection
    · intro p t ht
      have hsame : w'.broker.stillConfigured t
          = w.broker.stillConfigured t :=
        stillConfigured_congr (by rw [hconf])
      rw [hsame]
      -- a timer that was there, or one armed for a live configuration
      rcases hp p t ht with hold | hnew
      · exact h.pending p t hold
      · exact hnew
  | configure path c hmax hc hnext hconf hp hconn hconns _ =>
    -- the new generation lies above every one in the table
    have hlt := lt_succ_generation hmax
    refine ⟨?_, ?_, ?_⟩
    · intro p c' hl
      rw [hconf, GoMap.lookup_insert] at hl
      rw [hnext]
      split at hl
      case isTrue =>
        cases hl
        rw [hc]
        exact UInt64.le_refl _
      case isFalse =>
        exact Std.le_trans (h.generation p c' hl) (Std.le_of_lt hlt)
    · rw [hconn, hconns]
      exact h.connection
    · -- the timers of other paths see their own entry unchanged
      refine h.pending_erase hp ?_
      intro q hq
      rw [hconf, GoMap.lookup_insert, if_neg hq]
  | clear path hnext hconf hp hconn hconns _ =>
    refine ⟨?_, ?_, ?_⟩
    · intro p c' hl
      rw [hconf, GoMap.lookup_erase] at hl
      rw [hnext]
      split at hl
      case isTrue => cases hl
      case isFalse => exact h.generation p c' hl
    · rw [hconn, hconns]
      exact h.connection
    · refine h.pending_erase hp ?_
      intro q hq
      rw [hconf, GoMap.lookup_erase, if_neg hq]
  | connect _ hconf hp hconn hconns _ =>
    refine ⟨?_, ?_, ?_⟩
    · intro p c hl
      rw [hconf] at hl
      cases hl
    · intro c hc
      rw [hconn] at hc
      cases hc
      rw [hconns]
      exact Nat.lt_succ_self _
    · intro p t ht
      rw [hp] at ht
      cases ht
  | unregister _ hconf hp hconn hconns _ =>
    refine ⟨?_, ?_, ?_⟩
    · intro p c hl
      rw [hconf] at hl
      cases hl
    · rw [hconn, hconns]
      exact h.connection
    · intro p t ht
      rw [hp] at ht
      cases ht
  | disconnect hnext hconf hp hconn hconns =>
    refine ⟨?_, ?_, ?_⟩
    · rw [hconf, hnext]
      exact h.generation
    · intro c hc
      rw [hconn] at hc
      cases hc
    · intro p t ht
      rw [hp] at ht
      -- the table and its timers outlive the connection
      have hsame : w'.broker.stillConfigured t
          = w.broker.stillConfigured t :=
        stillConfigured_congr (by rw [hconf])
      rw [hsame]
      exact h.pending p t ht

theorem step_configInv {act : Action} (h : ConfigInv w)
    (hstep : step w act = some (w', es)) : ConfigInv w' :=
  (ConfigMove.of_step hstep).inv h

-- == losses

/-- The path is not configured at this generation, which was drawn. -/
def Lost (b : Broker) (p : ObjectPath) (g : UInt64) : Prop :=
  g ≤ b.nextConfig
    ∧ ∀ c, b.configured.lookup p = some c → c.generation ≠ g

/-- The connection was opened and is not in use. -/
def ConnLost (w : World) (conn : ConnId) : Prop :=
  conn < w.conns ∧ w.broker.connection ≠ some conn

/-- A generation that is lost at a path stays lost. -/
theorem ConfigMove.lost (hm : ConfigMove w w' l) (h : Lost w.broker p g) :
    Lost w'.broker p g := by
  obtain ⟨hle, hne⟩ := h
  cases hm with
  | keep hs _ =>
    obtain ⟨-, -, hconf, hnext⟩ := hs
    unfold Lost
    rw [hconf, hnext]
    exact ⟨hle, hne⟩
  | configure path c hmax hc hnext hconf _ _ _ _ =>
    have hlt := lt_succ_generation hmax
    refine ⟨by rw [hnext]; exact Std.le_trans hle (Std.le_of_lt hlt), ?_⟩
    intro c' hl
    rw [hconf, GoMap.lookup_insert] at hl
    split at hl
    case isTrue =>
      -- the new generation is above every one drawn before
      cases hl
      rw [hc]
      intro he
      rw [← he] at hle
      exact absurd (Std.lt_of_lt_of_le hlt hle) (UInt64.lt_irrefl _)
    case isFalse => exact hne c' hl
  | clear path hnext hconf _ _ _ _ =>
    refine ⟨by rw [hnext]; exact hle, ?_⟩
    intro c' hl
    rw [hconf, GoMap.lookup_erase] at hl
    split at hl
    case isTrue => cases hl
    case isFalse => exact hne c' hl
  | connect hnext hconf _ _ _ _ | unregister hnext hconf _ _ _ _ =>
    refine ⟨by rw [hnext]; exact hle, ?_⟩
    intro c' hl
    rw [hconf] at hl
    cases hl
  | disconnect hnext hconf _ _ _ =>
    unfold Lost
    rw [hconf, hnext]
    exact ⟨hle, hne⟩

/-- A connection that is lost stays lost. -/
theorem ConfigMove.connLost (hm : ConfigMove w w' l) (h : ConnLost w conn) :
    ConnLost w' conn := by
  obtain ⟨hlt, hne⟩ := h
  unfold ConnLost
  cases hm with
  | keep hs _ => rw [hs.1, hs.2.1]; exact ⟨hlt, hne⟩
  | configure _ _ _ _ _ _ _ hconn hconns _ =>
    rw [hconn, hconns]
    exact ⟨hlt, hne⟩
  | clear _ _ _ _ hconn hconns _ => rw [hconn, hconns]; exact ⟨hlt, hne⟩
  | connect _ _ _ hconn hconns _ =>
    rw [hconn, hconns]
    refine ⟨Nat.lt_succ_of_lt hlt, ?_⟩
    intro he
    injection he with he
    rw [he] at hlt
    exact Nat.lt_irrefl _ hlt
  | unregister _ _ _ hconn hconns _ => rw [hconn, hconns]; exact ⟨hlt, hne⟩
  | disconnect _ _ _ hconn hconns =>
    rw [hconn, hconns]
    exact ⟨hlt, by simp⟩

/-- The event reconfigures or clears the path, or moves the connection. -/
def Event.disturbs (p : ObjectPath) : Event → Bool
  | .configured q _ => q == p
  | .cleared q => q == p
  | .connected _ | .unregistered | .disconnected => true
  | _ => false

theorem isConfig_of_disturbs {e : Event} (h : e.disturbs p = true) :
    e.isConfig = true := by
  cases e <;> first | rfl | cases h

/-- After a disturbance, the generation the path had or the connection in
use is lost. -/
theorem ConfigMove.disturbed {e : Event} (hm : ConfigMove w w' l)
    (hg : g ≤ w.broker.nextConfig) (hc : conn < w.conns) (he : e ∈ l)
    (hd : e.disturbs p = true) :
    Lost w'.broker p g ∨ ConnLost w' conn := by
  cases hm with
  | keep _ _ => cases he
  | configure path c hmax hgen hnext hconf _ _ _ _ =>
    obtain rfl := List.mem_singleton.mp he
    obtain rfl : path = p := by simpa [Event.disturbs] using hd
    have hlt := lt_succ_generation hmax
    refine Or.inl
      ⟨by rw [hnext]; exact Std.le_trans hg (Std.le_of_lt hlt), ?_⟩
    intro c' hl
    rw [hconf, GoMap.lookup_insert, if_pos rfl] at hl
    cases hl
    rw [hgen]
    intro he
    rw [← he] at hg
    exact absurd (Std.lt_of_lt_of_le hlt hg) (UInt64.lt_irrefl _)
  | clear path hnext hconf _ _ _ _ =>
    obtain rfl := List.mem_singleton.mp he
    obtain rfl : path = p := by simpa [Event.disturbs] using hd
    refine Or.inl ⟨by rw [hnext]; exact hg, ?_⟩
    intro c' hl
    rw [hconf, GoMap.lookup_erase, if_pos rfl] at hl
    cases hl
  | connect hnext hconf _ _ _ _ | unregister hnext hconf _ _ _ _ =>
    refine Or.inl ⟨by rw [hnext]; exact hg, ?_⟩
    intro c' hl
    rw [hconf] at hl
    cases hl
  | disconnect _ _ _ hconn hconns =>
    refine Or.inr ⟨by rw [hconns]; exact hc, ?_⟩
    rw [hconn]
    simp

/-- What is lost is lost for the rest of the run. -/
theorem run_lost {tr : List WorldTrans} (h : Exec step w tr w')
    (hl : Lost w.broker p g) :
    Lost w'.broker p g :=
  h.inv (P := fun w => Lost w.broker p g) hl fun hl hstep =>
    (ConfigMove.of_step hstep).lost hl

theorem run_connLost {tr : List WorldTrans} (h : Exec step w tr w')
    (hl : ConnLost w conn) :
    ConnLost w' conn :=
  h.inv (P := fun w => ConnLost w conn) hl fun hl hstep =>
    (ConfigMove.of_step hstep).connLost hl

theorem not_stillConfigured_of_lost (h : Lost b t.path t.config.generation) :
    b.stillConfigured t = false := by
  cases hs : b.stillConfigured t with
  | false => rfl
  | true =>
    obtain ⟨c, hc, hg⟩ := stillConfigured_iff.mp hs
    exact absurd hg (h.2 c hc)

/-- A generation in force was drawn. -/
theorem ConfigInv.drawn (h : ConfigInv w)
    (hs : w.broker.stillConfigured t = true) :
    t.config.generation ≤ w.broker.nextConfig := by
  obtain ⟨c, hc, hg⟩ := stillConfigured_iff.mp hs
  rw [← hg]
  exact h.generation _ c hc

/-- The counter of generations never goes back. -/
theorem ConfigMove.nextConfig_le (hm : ConfigMove w w' l) :
    w.broker.nextConfig ≤ w'.broker.nextConfig := by
  cases hm with
  | keep hs _ => rw [hs.2.2.2]; exact UInt64.le_refl _
  | configure _ _ hmax _ hnext _ _ _ _ _ =>
    rw [hnext]
    exact Std.le_of_lt (lt_succ_generation hmax)
  | clear _ hnext _ _ _ _ _ | connect hnext _ _ _ _ _
  | unregister hnext _ _ _ _ _ | disconnect hnext _ _ _ _ =>
    rw [hnext]; exact UInt64.le_refl _

end Callbridge.Bluez
