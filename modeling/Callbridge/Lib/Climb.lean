/-
Values issued in ascending order. A counter that only goes up issues
values above its old reading and not above its new one; runs of such
steps issue a strictly ascending list, whatever each step issues.
-/
import Callbridge.Lib.Trace
import Mathlib.Order.Basic

namespace Callbridge.Lib

variable {α : Type} [Preorder α]

/-- A strictly ascending list above `lo` that does not pass `hi`. -/
structure Climbs (lo : α) (l : List α) (hi : α) : Prop where
  le : lo ≤ hi
  above : ∀ a ∈ l, lo < a
  below : ∀ a ∈ l, a ≤ hi
  ascending : l.Pairwise (· < ·)

variable {lo mid hi a : α} {l l' : List α}

theorem Climbs.nil (h : lo ≤ hi) : Climbs lo [] hi :=
  ⟨h, by simp, by simp, List.Pairwise.nil⟩

theorem Climbs.single (h : lo < a) : Climbs lo [a] a :=
  ⟨h.le, by simpa using h, by simp, List.pairwise_singleton _ _⟩

/-- Climbs compose. -/
theorem Climbs.append (h₁ : Climbs lo l mid) (h₂ : Climbs mid l' hi) :
    Climbs lo (l ++ l') hi where
  le := h₁.le.trans h₂.le
  above a ha := by
    rcases List.mem_append.mp ha with hl | hl'
    · exact h₁.above a hl
    · exact h₁.le.trans_lt (h₂.above a hl')
  below a ha := by
    rcases List.mem_append.mp ha with hl | hl'
    · exact (h₁.below a hl).trans h₂.le
    · exact h₂.below a hl'
  ascending := by
    refine List.pairwise_append.mpr ⟨h₁.ascending, h₂.ascending, ?_⟩
    intro a ha b hb
    exact (h₁.below a ha).trans_lt (h₂.above b hb)

/-- The rule for runs: where each step climbs with the values it issues,
the run climbs with all of them. -/
theorem Exec.climbs {σ β ε : Type} {step : σ → β → Option (σ × List ε)}
    {s₀ s : σ} {tr : List (Trans σ β ε)} {v : σ → α}
    {f : Trans σ β ε → List α} (h : Exec step s₀ tr s)
    (hstep : ∀ {x : Trans σ β ε}, step x.pre x.act = some (x.post, x.out) →
      Climbs (v x.pre) (f x) (v x.post)) :
    Climbs (v s₀) (tr.flatMap f) (v s) := by
  induction h with
  | nil => exact .nil le_rfl
  | @snoc tr s s' a es _ hs ih =>
    rw [List.flatMap_append, List.flatMap_singleton]
    exact ih.append (hstep (x := ⟨s, a, es, s'⟩) hs)

end Callbridge.Lib
