/-
Chains of guards. A Go function that checks its arguments one after the
other returns the first error it meets: an `if c then some e else ..`, an
`if c then .error e else ..` around the result, or a `do` block of the
small checks below. Passing the chain is the conjunction of what each
guard asks for.
-/
import Mathlib.Logic.Basic

namespace Callbridge.Lib

variable {ε ε' α β : Type} {e : ε} {a : α} {x : Except ε α}

-- == guards

section Ite

variable {c : Prop} [Decidable c]

theorem ite_some_eq_none {r : Option ε} :
    (if c then some e else r) = none ↔ ¬ c ∧ r = none := by
  by_cases h : c <;> simp [h]

theorem ite_error_eq_ok {r : Except ε α} :
    (if c then .error e else r) = .ok a ↔ ¬ c ∧ r = .ok a := by
  by_cases h : c <;> simp [h]

end Ite

-- == checks

/-- A value that must be there and pass the test. -/
def require (value : Option α) (test : α → Bool) (e : ε) : Except ε α :=
  match value with
  | none => .error e
  | some a => if test a then .ok a else .error e

/-- A condition that must hold. -/
def check (c : Bool) (e : ε) : Except ε Unit :=
  if c then .ok () else .error e

/-- The only element of a list; the error is told how many there are. -/
def exactlyOne (e : Nat → ε) : List α → Except ε α
  | [a] => .ok a
  | l => .error (e l.length)

@[simp] theorem exactlyOne_eq_ok {e : Nat → ε} {l : List α} {a : α} :
    exactlyOne e l = .ok a ↔ l = [a] := by
  rcases l with _ | ⟨b, _ | ⟨c, l⟩⟩ <;> simp [exactlyOne]

/-- A required value is there and passes its test. -/
@[simp] theorem require_eq_ok {value : Option α} {test : α → Bool} :
    require value test e = .ok a
      ↔ value = some a ∧ test a = true := by
  cases value with
  | none => simp [require]
  | some b =>
    by_cases hb : test b = true
    · simp only [require, hb, if_true, Except.ok.injEq, Option.some.injEq]
      constructor
      · rintro rfl
        exact ⟨rfl, hb⟩
      · exact And.left
    · simp only [require, hb, Bool.false_eq_true, if_false, reduceCtorEq,
        Option.some.injEq, false_iff]
      rintro ⟨rfl, ha⟩
      exact hb ha

@[simp] theorem check_eq_ok {c : Bool} {u : Unit} :
    check c e = .ok u ↔ c = true := by
  cases c <;> simp [check]

@[simp] theorem ok_bind (a : α) (f : α → Except ε β) :
    (Except.ok a >>= f) = f a := rfl

@[simp] theorem bind_eq_ok {f : α → Except ε β} {b : β} :
    (x >>= f) = .ok b ↔ ∃ a, x = .ok a ∧ f a = .ok b := by
  cases x with
  | error e | ok a => simp [bind, Except.bind]

theorem check_eq_error {c : Bool} {e' : ε} :
    check c e = .error e' ↔ c = false ∧ e = e' := by
  cases c <;> simp [check]

theorem require_eq_error {value : Option α} {test : α → Bool} {e' : ε}
    (h : require value test e = .error e') : e = e' := by
  unfold require at h
  split at h
  · exact Except.error.inj h
  · split at h
    · cases h
    · exact Except.error.inj h

theorem bind_eq_error {f : α → Except ε β} :
    (x >>= f) = .error e ↔ x = .error e ∨ ∃ a, x = .ok a ∧ f a = .error e := by
  cases x with
  | error e' | ok a => simp [bind, Except.bind]

@[simp] theorem mapError_eq_ok {f : ε → ε'} :
    x.mapError f = .ok a ↔ x = .ok a := by
  cases x with
  | ok v =>
    constructor <;>
    · intro h
      cases h
      rfl
  | error e =>
    constructor <;>
    · intro h
      cases h

end Callbridge.Lib
