/-
Index expressions and loops as Go runs them.

An index or a slice expression that reaches outside its operand panics,
so a checked read is an `Option`, and so is a turn of a loop whose body
reads: it panics, goes on in the next state, or ends with a result.
`LoopReturns` is inductive, so it holds of a loop that ends, after
finitely many turns none of which panics, and of no other.
-/
import Callbridge.Lib.Buffer

namespace Callbridge.Lib

-- == reads

/-- `p[i:j]`; `none` is a panic. -/
def slice? (p : Bytes) (i j : Nat) : Option Bytes :=
  if i ≤ j ∧ j ≤ p.length then some (slice p i j) else none

theorem slice?_eq {p : Bytes} {i j : Nat} (hij : i ≤ j)
    (hj : j ≤ p.length) : slice? p i j = some (slice p i j) :=
  if_pos ⟨hij, hj⟩

/-- `p[i]` within bounds. -/
theorem getElem?_eq_byteAt {p : Bytes} {i : Nat} (h : i < p.length) :
    p[i]? = some (byteAt p i) := by
  rw [byteAt, List.getD_eq_getElem?_getD, List.getElem?_eq_getElem h]
  rfl

-- == loops

section Loop

variable {σ ρ : Type} {body : σ → Option (σ ⊕ ρ)} {s s' : σ} {r r' : ρ}

/-- The loop that starts in `s` ends, and returns `r`. -/
inductive LoopReturns (body : σ → Option (σ ⊕ ρ)) : σ → ρ → Prop
  | ends {s : σ} {r : ρ} : body s = some (.inr r) → LoopReturns body s r
  | turns {s s' : σ} {r : ρ} : body s = some (.inl s') →
      LoopReturns body s' r → LoopReturns body s r

/-- A loop returns one result. -/
theorem LoopReturns.unique (h : LoopReturns body s r)
    (h' : LoopReturns body s r') : r = r' := by
  induction h with
  | ends hbody =>
    cases h' with
    | ends hbody' =>
      rw [hbody] at hbody'
      cases hbody'
      rfl
    | turns hbody' _ =>
      rw [hbody] at hbody'
      cases hbody'
  | turns hbody _ ih =>
    cases h' with
    | ends hbody' =>
      rw [hbody] at hbody'
      cases hbody'
    | turns hbody' hrest =>
      rw [hbody] at hbody'
      cases hbody'
      exact ih hrest

/-- A loop ends in a state of its invariant if no turn from there panics
and every turn lowers a measure; and it returns what its turns do not
change. -/
theorem LoopReturns.of_measure (inv : σ → Prop) (measure : σ → Nat)
    (value : σ → ρ)
    (hturn : ∀ s, inv s → body s = some (.inr (value s))
      ∨ ∃ s', body s = some (.inl s') ∧ inv s'
        ∧ measure s' < measure s ∧ value s' = value s) :
    ∀ {s : σ}, inv s → LoopReturns body s (value s) := by
  intro s hs
  induction hn : measure s using Nat.strongRecOn generalizing s with
  | _ n ih =>
    rcases hturn s hs with hends | ⟨s', hbody, hs', hless, hvalue⟩
    · exact .ends hends
    · rw [← hvalue]
      exact .turns hbody (ih (measure s') (hn ▸ hless) hs' rfl)

end Loop

end Callbridge.Lib
