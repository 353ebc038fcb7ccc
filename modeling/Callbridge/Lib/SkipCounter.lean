/-
A wrapping 64-bit counter that skips zero and the value it started from.

Zero is kept free to mean "none", and the start value is skipped so that
coming all the way round can be told from standing still. The `rank` of a
counter value is how many identifiers have been handed out when the
counter stands there. `skip` moves it up by one (`rank_skip`), wrap-around
included, until all `2^64 - 2` identifiers are used.
-/
import Mathlib.Data.UInt

namespace Callbridge.Lib

variable {start c : UInt64}

/-- The values the counter does not hand out. -/
def excluded (start v : UInt64) : Prop := v = 0 ∨ v = start

instance (start v : UInt64) : Decidable (excluded start v) :=
  inferInstanceAs (Decidable (_ ∨ _))

/-- Advance by one until the value may be handed out; `none` only when
the fuel runs out first. -/
def skipWithin (start : UInt64) : Nat → UInt64 → Option UInt64
  | 0, _ => none
  | fuel + 1, c =>
      if excluded start (c + 1) then skipWithin start fuel (c + 1)
      else some (c + 1)

theorem toNat_succ (c : UInt64) : (c + 1).toNat = (c.toNat + 1) % 2 ^ 64 := by
  rfl

/-- Of three values in a row, one may be handed out. -/
theorem excluded_third (h₁ : excluded start (c + 1))
    (h₂ : excluded start (c + 1 + 1)) : ¬ excluded start (c + 1 + 1 + 1) := by
  have hz : (0 : UInt64).toNat = 0 := rfl
  simp only [excluded, ← UInt64.toNat_inj, toNat_succ, hz] at h₁ h₂ ⊢
  omega

/-- What the first attempts of the loop find. -/
theorem skipWithin_three_cases (start c : UInt64) :
    ∃ v, skipWithin start 3 c = some v ∧ ¬ excluded start v := by
  by_cases h₁ : excluded start (c + 1)
  · by_cases h₂ : excluded start (c + 1 + 1)
    · have h₃ := excluded_third h₁ h₂
      exact ⟨c + 1 + 1 + 1, by simp [skipWithin, h₁, h₂, h₃], h₃⟩
    · exact ⟨c + 1 + 1, by simp [skipWithin, h₁, h₂], h₂⟩
  · exact ⟨c + 1, by simp [skipWithin, h₁], h₁⟩

/-- Two values are excluded, so three attempts always find one that is
not. -/
theorem skipWithin_three (start c : UInt64) :
    (skipWithin start 3 c).isSome = true := by
  obtain ⟨v, hv, -⟩ := skipWithin_three_cases start c
  rw [hv]
  rfl

/-- The next value handed out after `c`. -/
def skip (start c : UInt64) : UInt64 :=
  (skipWithin start 3 c).get (skipWithin_three start c)

/-- How far a value lies past the start, counting upwards and round. -/
def lap (start v : UInt64) : Nat := (v - start).toNat

/-- How many identifiers have been handed out when the counter stands at
`v`: the distance from the start, less the zero that was stepped over. -/
def rank (start v : UInt64) : Nat :=
  if lap start 0 ≤ lap start v then lap start v - 1 else lap start v

theorem lap_eq (start v : UInt64) :
    lap start v = (2 ^ 64 - start.toNat + v.toNat) % 2 ^ 64 := by
  unfold lap
  rw [UInt64.toNat_sub]

theorem lap_self (start : UInt64) : lap start start = 0 := by
  simp [lap]

theorem lap_inj {u v : UInt64} (h : lap start u = lap start v) :
    u = v := by
  have h' : u - start = v - start := UInt64.toNat_inj.mp h
  simpa using congrArg (· + start) h'

theorem lap_zero_pos (hs : start ≠ 0) : 0 < lap start 0 := by
  have h : lap start 0 ≠ lap start start := fun h => hs (lap_inj h).symm
  rw [lap_self] at h
  omega

/-- One increment moves one further round, unless it arrives back at the
start. -/
theorem lap_succ (h : c + 1 ≠ start) :
    lap start (c + 1) = lap start c + 1 := by
  have hne : lap start (c + 1) ≠ 0 := by
    rw [← lap_self start]
    exact fun he => h (lap_inj he)
  have hone := toNat_succ c
  rw [lap_eq] at hne
  rw [lap_eq, lap_eq]
  omega

/-- The counter before its first use has handed out nothing. -/
theorem rank_start : rank start start = 0 := by
  unfold rank
  rw [lap_self]
  split <;> omega

theorem skip_of_ok (h : ¬ excluded start (c + 1)) :
    skip start c = c + 1 := by
  simp [skip, skipWithin, h]

theorem skip_of_excluded (h : excluded start (c + 1))
    (h' : ¬ excluded start (c + 1 + 1)) : skip start c = c + 1 + 1 := by
  simp [skip, skipWithin, h, h']

/-- What is handed out is never an excluded value. -/
theorem skip_not_excluded (start c : UInt64) :
    ¬ excluded start (skip start c) := by
  obtain ⟨v, hv, hex⟩ := skipWithin_three_cases start c
  have hskip : skip start c = v := by
    simp [skip, hv]
  rw [hskip]
  exact hex

/-- One identifier handed out moves the rank up by one. -/
theorem rank_skip (hs : start ≠ 0) (hc : rank start c < 2 ^ 64 - 2) :
    rank start (skip start c) = rank start c + 1 := by
  have hz := lap_zero_pos hs
  -- the counter has not come round: the next value is not the start
  have hround : ∀ v, v + 1 = start → lap start v = 2 ^ 64 - 1 := by
    intro v hv
    have hone := toNat_succ v
    rw [hv] at hone
    rw [lap_eq]
    omega
  have hc₁ : c + 1 ≠ start := by
    intro h
    have := hround c h
    unfold rank at hc
    split at hc <;> omega
  have hl₁ := lap_succ hc₁
  by_cases hzero : c + 1 = 0
  · -- the step over zero
    have hl₀ : lap start 0 = lap start c + 1 := by rw [← hl₁, hzero]
    have hc₂ : c + 1 + 1 ≠ start := by
      intro h
      have := hround (c + 1) h
      unfold rank at hc
      split at hc <;> omega
    have hl₂ := lap_succ hc₂
    have hex : ¬ excluded start (c + 1 + 1) := by
      rintro (h | h)
      · rw [hzero] at h
        exact absurd h (by decide)
      · exact hc₂ h
    rw [skip_of_excluded (Or.inl hzero) hex]
    unfold rank
    split <;> split <;> omega
  · have hex : ¬ excluded start (c + 1) := by
      rintro (h | h)
      · exact hzero h
      · exact hc₁ h
    have hl₀ : lap start 0 ≠ lap start (c + 1) := fun h =>
      hzero (lap_inj h).symm
    rw [skip_of_ok hex]
    unfold rank
    split <;> split <;> omega

end Callbridge.Lib
