/-
Who holds what. A thing that is obtained, held for a while and spent is
accounted for by multisets: where every step balances, every run does
(`Exec.balance`), so what is obtained once is spent at most once, and not
while somebody holds it. `flatMap_set_perm` says what one of many holders
moving on does to the whole.
-/
import Callbridge.Lib.Trace
import Mathlib.Data.List.Perm.Basic
import Mathlib.Algebra.Order.Group.Multiset
import Mathlib.Algebra.BigOperators.Group.List.Basic

namespace Callbridge.Lib

-- == holders

/-- One holder moves on, and the others keep what they have. -/
theorem flatMap_set_perm {α β : Type} (f : α → List β) {l : List α}
    {i : Nat} {a : α} (h : l[i]? = some a) (b : α) :
    (f a ++ (l.set i b).flatMap f).Perm (f b ++ l.flatMap f) := by
  obtain ⟨hlt, rfl⟩ := List.getElem?_eq_some_iff.mp h
  have hset := (List.set_perm_cons_eraseIdx hlt b).flatMap_right f
  have hget := (List.getElem_cons_eraseIdx_perm hlt).flatMap_right f
  rw [List.flatMap_cons] at hset hget
  refine (hset.append_left _).trans ?_
  refine List.Perm.trans ?_ (hget.append_left _)
  rw [← List.append_assoc, ← List.append_assoc]
  exact List.perm_append_comm.append_right _

-- == ledgers

variable {σ α ε τ : Type}

/-- What the events say about the things `f` reads off them. -/
def tally (f : ε → Option τ) (es : List ε) : Multiset τ :=
  (es.filterMap f : List τ)

theorem tally_append (f : ε → Option τ) (es es' : List ε) :
    tally f (es ++ es') = tally f es + tally f es' := by
  unfold tally
  rw [List.filterMap_append, Multiset.coe_add]

/-- Where one event stands for one thing, it is enough to count events. -/
theorem count_tally [DecidableEq ε] [DecidableEq τ] {f : ε → Option τ}
    {e : ε} {t : τ} (h : ∀ e', f e' = some t ↔ e' = e) (es : List ε) :
    (tally f es).count t = es.count e := by
  unfold tally
  rw [Multiset.coe_count]
  induction es with
  | nil => rfl
  | cons e' es ih =>
    by_cases he : e' = e
    · rw [List.filterMap_cons_some ((h e').mpr he), he,
        List.count_cons_self, List.count_cons_self, ih]
    · rw [List.count_cons_of_ne he]
      cases hf : f e' with
      | none =>
        rw [List.filterMap_cons_none hf]
        exact ih
      | some t' =>
        have ht : t' ≠ t := by
          rintro rfl
          exact he ((h e').mp hf)
        rw [List.filterMap_cons_some hf, List.count_cons_of_ne ht]
        exact ih

section Ledger

variable {step : σ → α → Option (σ × List ε)} {s₀ s : σ}
  {tr : List (Trans σ α ε)}

/-- What the steps of a run come to together. -/
def total (f : Trans σ α ε → Multiset τ) (tr : List (Trans σ α ε)) :
    Multiset τ :=
  (tr.map f).sum

theorem total_snoc (f : Trans σ α ε → Multiset τ) (x : Trans σ α ε) :
    total f (tr ++ [x]) = total f tr + f x := by
  unfold total
  rw [List.map_append, List.sum_append, List.map_singleton,
    List.sum_singleton]

theorem total_add (f g : Trans σ α ε → Multiset τ) :
    total (fun x => f x + g x) tr = total f tr + total g tr := by
  induction tr using List.reverseRecOn with
  | nil => rfl
  | append_singleton tr x ih =>
    rw [total_snoc, total_snoc, total_snoc, ih, add_add_add_comm]

theorem total_tally (f : ε → Option τ) :
    total (fun x => tally f x.out) tr = tally f (events tr) := by
  induction tr using List.reverseRecOn with
  | nil => rfl
  | append_singleton tr x ih =>
    rw [total_snoc, ih, events_snoc, tally_append]

theorem total_eq_zero {f : Trans σ α ε → Multiset τ}
    (h : ∀ x ∈ tr, f x = 0) : total f tr = 0 := by
  refine List.sum_eq_zero fun m hm => ?_
  obtain ⟨x, hx, rfl⟩ := List.mem_map.mp hm
  exact h x hx

/-- The rule: where every step balances, every run does. -/
theorem Exec.balance {I : σ → Prop} (held : σ → Multiset τ)
    (got spent : Trans σ α ε → Multiset τ) (h : Exec step s₀ tr s)
    (h₀ : I s₀)
    (hinv : ∀ {s a s' es}, I s → step s a = some (s', es) → I s')
    (hstep : ∀ {x : Trans σ α ε}, I x.pre →
      step x.pre x.act = some (x.post, x.out) →
      spent x + held x.post = got x + held x.pre) :
    total spent tr + held s = total got tr + held s₀ := by
  induction h with
  | nil => rfl
  | @snoc tr s s' a es hrun hs ih =>
    have hlast := hstep (x := ⟨s, a, es, s'⟩) (hrun.inv h₀ hinv) hs
    rw [total_snoc, total_snoc, add_assoc, hlast]
    calc total spent tr + (got ⟨s, a, es, s'⟩ + held s)
        = total spent tr + held s + got ⟨s, a, es, s'⟩ := by
          rw [add_comm (got _), add_assoc]
      _ = total got tr + got ⟨s, a, es, s'⟩ + held s₀ := by
          rw [ih, add_right_comm]

end Ledger

end Callbridge.Lib
