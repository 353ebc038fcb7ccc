/-
Labelled machines and the traces they leave.

A machine is a partial step function `σ → α → Option (σ × List ε)`: the
label carries every choice the environment makes, so a run is a list of
labels that can be evaluated. The events `ε` are what one step lets the
outside see. A run is kept as the list of its transitions, states
included, because the properties proved over it speak about moments.
-/
import Mathlib.Data.List.Induction

namespace Callbridge.Lib

variable {σ α ε : Type}

-- == executions

/-- One executed step: the state it left from, its label, the events it
let out and the state it reached. -/
structure Trans (σ α ε : Type) where
  pre : σ
  act : α
  out : List ε
  post : σ

/-- Runs of a step function from a state, with the transitions taken. -/
inductive Exec (step : σ → α → Option (σ × List ε)) (s₀ : σ) :
    List (Trans σ α ε) → σ → Prop
  | nil : Exec step s₀ [] s₀
  | snoc {tr : List (Trans σ α ε)} {s s' : σ} {a : α} {es : List ε} :
      Exec step s₀ tr s → step s a = some (s', es) →
      Exec step s₀ (tr ++ [⟨s, a, es, s'⟩]) s'

variable {step : σ → α → Option (σ × List ε)} {s₀ s s' : σ}
  {tr t₁ t₂ : List (Trans σ α ε)}

/-- A step as a run of its own. -/
theorem Exec.single {a : α} {es : List ε} (h : step s a = some (s', es)) :
    Exec step s [⟨s, a, es, s'⟩] s' :=
  Exec.snoc Exec.nil h

/-- Runs compose. -/
theorem Exec.trans (h₁ : Exec step s₀ t₁ s) (h₂ : Exec step s t₂ s') :
    Exec step s₀ (t₁ ++ t₂) s' := by
  induction h₂ with
  | nil => simpa using h₁
  | snoc _ hstep ih =>
    rw [← List.append_assoc]
    exact Exec.snoc ih hstep

/-- The last transition of a run, peeled off. -/
theorem Exec.of_snoc {x : Trans σ α ε} (h : Exec step s₀ (tr ++ [x]) s) :
    Exec step s₀ tr x.pre ∧ step x.pre x.act = some (x.post, x.out)
      ∧ s = x.post := by
  generalize ht : tr ++ [x] = t at h
  cases h with
  | nil => exact absurd ht (by simp)
  | snoc hrun hstep =>
    obtain ⟨rfl, hx⟩ := List.append_inj' ht rfl
    obtain rfl := List.singleton_inj.mp hx
    exact ⟨hrun, hstep, rfl⟩

/-- A run cut at one of its transitions. -/
theorem Exec.split {x : Trans σ α ε}
    (h : Exec step s₀ (t₁ ++ x :: t₂) s) :
    Exec step s₀ t₁ x.pre ∧ step x.pre x.act = some (x.post, x.out)
      ∧ Exec step x.post t₂ s := by
  induction t₂ using List.reverseRecOn generalizing s with
  | nil =>
    obtain ⟨hrun, hstep, rfl⟩ := h.of_snoc
    exact ⟨hrun, hstep, Exec.nil⟩
  | append_singleton t y ih =>
    have h' : Exec step s₀ ((t₁ ++ x :: t) ++ [y]) s := by simpa using h
    obtain ⟨hrun, hstep, rfl⟩ := h'.of_snoc
    obtain ⟨hpre, hx, hmid⟩ := ih hrun
    exact ⟨hpre, hx, Exec.snoc hmid hstep⟩

/-- Every transition of a run is a step, taken from a state the run
reaches. -/
theorem Exec.of_mem {x : Trans σ α ε} (h : Exec step s₀ tr s) (hx : x ∈ tr) :
    ∃ t₁ t₂, tr = t₁ ++ x :: t₂ ∧ Exec step s₀ t₁ x.pre
      ∧ step x.pre x.act = some (x.post, x.out)
      ∧ Exec step x.post t₂ s := by
  obtain ⟨t₁, t₂, rfl⟩ := List.append_of_mem hx
  exact ⟨t₁, t₂, rfl, h.split⟩

/-- A run ends where it started or where one of its transitions led. -/
theorem Exec.last (h : Exec step s₀ tr s) :
    tr = [] ∧ s = s₀ ∨ ∃ x ∈ tr, x.post = s := by
  cases h with
  | nil => exact Or.inl ⟨rfl, rfl⟩
  | snoc _ _ =>
    exact Or.inr ⟨_, List.mem_append_right _ (List.mem_singleton_self _),
      rfl⟩

-- == invariant rules

/-- The guarded invariant rule: what holds at the start and is kept by
every transition that meets the condition `G` holds after every run whose
transitions all meet it. -/
theorem Exec.inv_of {P : σ → Prop} {G : Trans σ α ε → Prop}
    (h : Exec step s₀ tr s) (h₀ : P s₀)
    (hstep : ∀ {x : Trans σ α ε}, P x.pre → G x →
      step x.pre x.act = some (x.post, x.out) → P x.post)
    (hG : ∀ x ∈ tr, G x) : P s := by
  induction h with
  | nil => exact h₀
  | @snoc tr s s' a es _ hs ih =>
    have hP := ih fun x hx => hG x (List.mem_append_left _ hx)
    have hlast := hG _ (List.mem_append_right _ (List.mem_singleton_self _))
    exact hstep (x := ⟨s, a, es, s'⟩) hP hlast hs

/-- The invariant rule. -/
theorem Exec.inv {P : σ → Prop} (h : Exec step s₀ tr s) (h₀ : P s₀)
    (hstep : ∀ {s a s' es}, P s → step s a = some (s', es) → P s') :
    P s := by
  refine h.inv_of (G := fun _ => True) h₀ ?_ (fun _ _ => trivial)
  intro x hP _ hs
  exact hstep hP hs

-- == events, simulation

/-- Everything a run let out. -/
def events (tr : List (Trans σ α ε)) : List ε := tr.flatMap Trans.out

theorem events_snoc (x : Trans σ α ε) :
    events (tr ++ [x]) = events tr ++ x.out := by
  simp [events]

/-- Paths of an abstract relation whose steps report a list each. -/
inductive Path {τ β : Type} (R : τ → List β → τ → Prop) (a₀ : τ) :
    List β → τ → Prop
  | nil : Path R a₀ [] a₀
  | snoc {l l' : List β} {a a' : τ} :
      Path R a₀ l a → R a l' a' → Path R a₀ (l ++ l') a'

/-- The simulation rule: where every step from a state of the invariant is
a step of the abstract relation, seen through `v` and `report`, every
run is a path of it. -/
theorem Exec.simulates {τ β : Type} {R : τ → List β → τ → Prop}
    {v : σ → τ} {report : ε → Option β} {I : σ → Prop}
    (h : Exec step s₀ tr s) (h₀ : I s₀)
    (hinv : ∀ {s a s' es}, I s → step s a = some (s', es) → I s')
    (hsim : ∀ {s a s' es}, I s → step s a = some (s', es) →
      R (v s) (es.filterMap report) (v s')) :
    Path R (v s₀) ((events tr).filterMap report) (v s) := by
  induction h with
  | nil => exact Path.nil
  | snoc hrun hstep ih =>
    rw [events_snoc, List.filterMap_append]
    exact Path.snoc ih (hsim (hrun.inv h₀ hinv) hstep)

/-- The projection rule: where every step leaves the view alone or is, as
`f` reads it, a step of the component machine, every run of the composition
is seen as a run of the component. -/
theorem Exec.project {τ β δ : Type} {part : τ → β → Option (τ × List δ)}
    {v : σ → τ} {f : Trans σ α ε → Option (Trans τ β δ)}
    (h : Exec step s₀ tr s)
    (hnone : ∀ {x : Trans σ α ε}, step x.pre x.act = some (x.post, x.out) →
      f x = none → v x.post = v x.pre)
    (hsome : ∀ {x : Trans σ α ε} {y : Trans τ β δ},
      step x.pre x.act = some (x.post, x.out) → f x = some y →
      y.pre = v x.pre ∧ y.post = v x.post
        ∧ part y.pre y.act = some (y.post, y.out)) :
    Exec part (v s₀) (tr.filterMap f) (v s) := by
  induction h with
  | nil => exact Exec.nil
  | @snoc tr s s' a es _ hstep ih =>
    rw [List.filterMap_append]
    cases hf : f ⟨s, a, es, s'⟩ with
    | none =>
      have hv := hnone (x := ⟨s, a, es, s'⟩) hstep hf
      simp only [List.filterMap_cons, hf, List.filterMap_nil,
        List.append_nil]
      rw [hv]
      exact ih
    | some y =>
      obtain ⟨pre, act, out, post⟩ := y
      obtain ⟨rfl, rfl, hpart⟩ := hsome (x := ⟨s, a, es, s'⟩) hstep hf
      simp only [List.filterMap_cons, hf, List.filterMap_nil]
      exact Exec.snoc ih hpart

/-- A step of a component that a step of a composition may run or not. -/
def optStep (step : σ → α → Option (σ × List ε)) (s : σ) :
    Option α → Option (σ × List ε)
  | none => some (s, [])
  | some a => step s a

theorem optStep_none {es : List ε}
    (h : optStep step s none = some (s', es)) : s' = s ∧ es = [] := by
  obtain ⟨rfl, rfl⟩ := Prod.mk.inj (Option.some.inj h)
  exact ⟨rfl, rfl⟩

/-- The rule of parts: where every step of a composition runs, as `g`
says, at most one step of a component and `report` picks that step's
events, every run is a run of the component with these events. -/
theorem Exec.part {τ β δ : Type} {part : τ → β → Option (τ × List δ)}
    {v : σ → τ} {g : σ → α → Option β} {report : ε → Option δ}
    (h : Exec step s₀ tr s)
    (hpart : ∀ {s a s' es}, step s a = some (s', es) →
      optStep part (v s) (g s a) = some (v s', es.filterMap report)) :
    ∃ t, Exec part (v s₀) t (v s)
      ∧ events t = (events tr).filterMap report := by
  induction h with
  | nil => exact ⟨[], Exec.nil, rfl⟩
  | @snoc tr s s' a es _ hstep ih =>
    obtain ⟨t, hrun, hev⟩ := ih
    have hopt := hpart hstep
    rw [events_snoc, List.filterMap_append, ← hev]
    cases hg : g s a with
    | none =>
      rw [hg] at hopt
      obtain ⟨hv, hnil⟩ := optStep_none hopt
      refine ⟨t, hv ▸ hrun, ?_⟩
      rw [hnil, List.append_nil]
    | some b =>
      rw [hg] at hopt
      exact ⟨_, hrun.snoc hopt, events_snoc _⟩

-- == concrete schedules

/-- Evaluate a list of labels; `none` when some step is not enabled. -/
def runActs (step : σ → α → Option (σ × List ε)) :
    σ → List α → Option (List (Trans σ α ε) × σ)
  | s, [] => some ([], s)
  | s, a :: as =>
      match step s a with
      | none => none
      | some (s', es) =>
          match runActs step s' as with
          | none => none
          | some (tr, s'') => some (⟨s, a, es, s'⟩ :: tr, s'')

/-- What `runActs` evaluates is a run. -/
theorem runActs_exec {as : List α} (h : runActs step s as = some (tr, s')) :
    Exec step s tr s' := by
  induction as generalizing s tr with
  | nil =>
    injection h with h
    injection h with htr hs
    subst htr hs
    exact Exec.nil
  | cons a as ih =>
    rw [runActs] at h
    split at h
    case h_1 => cases h
    case h_2 s₁ es hs =>
        split at h
        case h_1 => cases h
        case h_2 tr' s₂ hrun =>
            injection h with h
            injection h with htr hs₂
            subst htr hs₂
            exact (Exec.single hs).trans (ih hrun)

/-- Do these labels run, to an end the test accepts? -/
def runsTo (step : σ → α → Option (σ × List ε)) (s : σ) (as : List α)
    (test : List (Trans σ α ε) → σ → Bool) : Bool :=
  match runActs step s as with
  | some (tr, s') => test tr s'
  | none => false

/-- A schedule that was evaluated is a run. -/
theorem exec_of_decide (step : σ → α → Option (σ × List ε)) (s : σ)
    (as : List α) (p : List (Trans σ α ε) → σ → Prop)
    [∀ tr s', Decidable (p tr s')]
    (h : runsTo step s as (fun tr s' => decide (p tr s')) = true) :
    ∃ tr s', Exec step s tr s' ∧ p tr s' := by
  unfold runsTo at h
  split at h
  case h_1 tr s' hrun =>
    exact ⟨tr, s', runActs_exec hrun, of_decide_eq_true h⟩
  case h_2 => cases h

/-- A moment of a trace, found by its position. -/
theorem exists_moment {τ : Type} {tr : List τ} {p : τ → Prop} (i : Nat)
    (hi : ∃ x ∈ tr[i]?, p x) :
    ∃ x, tr = tr.take i ++ x :: tr.drop (i + 1) ∧ p x := by
  obtain ⟨x, hx, hpx⟩ := hi
  refine ⟨x, ?_, hpx⟩
  obtain ⟨hlt, hget⟩ := List.getElem?_eq_some_iff.mp hx
  rw [← hget, ← List.drop_eq_getElem_cons, List.take_append_drop]

/-- Two moments of a trace, found by their positions, with what lies
between them. -/
theorem exists_moments {τ : Type} {tr : List τ} {p q : τ → Prop}
    {r : List τ → Prop} (i j : Nat) (hi : ∃ x ∈ tr[i]?, p x)
    (hr : r ((tr.drop (i + 1)).take j))
    (hj : ∃ y ∈ (tr.drop (i + 1))[j]?, q y) :
    ∃ t₁ x t₂ y t₃, tr = t₁ ++ x :: (t₂ ++ y :: t₃) ∧ p x ∧ r t₂ ∧ q y := by
  obtain ⟨x, hx, hpx⟩ := exists_moment i hi
  obtain ⟨y, hy, hqy⟩ := exists_moment j hj
  refine ⟨tr.take i, x, _, y, (tr.drop (i + 1)).drop (j + 1), ?_, hpx, hr,
    hqy⟩
  rw [← hy]
  exact hx

/-- Some run leads from one state to the other. -/
def Reaches (step : σ → α → Option (σ × List ε)) (s s' : σ) : Prop :=
  ∃ tr, Exec step s tr s'

theorem Reaches.refl : Reaches step s s := ⟨[], Exec.nil⟩

theorem Reaches.trans {s'' : σ} (h₁ : Reaches step s s')
    (h₂ : Reaches step s' s'') : Reaches step s s'' := by
  obtain ⟨t₁, ht₁⟩ := h₁
  obtain ⟨t₂, ht₂⟩ := h₂
  exact ⟨t₁ ++ t₂, ht₁.trans ht₂⟩

/-- The lifting rule: where every step of a component, embedded by `f` and
`g`, is a step of the composition, what the component reaches the
composition reaches. -/
theorem Reaches.lift {τ β δ : Type} {part : τ → β → Option (τ × List δ)}
    {f : τ → σ} {g : β → α} {t t' : τ}
    (hstep : ∀ {t b t' es}, part t b = some (t', es) →
      ∃ es', step (f t) (g b) = some (f t', es'))
    (h : Reaches part t t') : Reaches step (f t) (f t') := by
  obtain ⟨tr, hrun⟩ := h
  induction hrun with
  | nil => exact ⟨[], Exec.nil⟩
  | snoc _ hs ih =>
    obtain ⟨tr', hrun'⟩ := ih
    obtain ⟨es', hs'⟩ := hstep hs
    exact ⟨_, hrun'.snoc hs'⟩

theorem Reaches.single {a : α} {es : List ε} (h : step s a = some (s', es)) :
    Reaches step s s' := ⟨_, Exec.single h⟩

end Callbridge.Lib
