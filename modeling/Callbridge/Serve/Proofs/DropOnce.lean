/-
How often the Snapshot callback drops the link for a call. It remembers
the token it was last told, and nothing before it, so it starts a drop
whenever `HandsetAnswered` names a call it has not just named
(`dropsFor_cons`). Each token is dropped for once exactly when no call is
named, then another or none, and then the first again
(`dropped_once_iff`).
-/
import Callbridge.Serve.HandBack

namespace Callbridge.Serve

open Lib Protocol Gtbs

variable {s : HandBack} {token : UInt64} {visits : List Visit}

-- == one callback

/-- Whatever it was, the callback remembers the token it was told. -/
theorem dropOnce_remembers (s : HandBack) (token : UInt64) :
    (s.dropOnce token).droppedForToken = token := by
  unfold HandBack.dropOnce
  split
  case isTrue h => exact h.symm
  case isFalse =>
    split
    case isTrue => rfl
    case isFalse h => exact (not_not.mp h).symm

theorem dropOnce_drops_iff (s : HandBack) (token : UInt64) :
    s.drops < (s.dropOnce token).drops
      ↔ token ≠ 0 ∧ token ≠ s.droppedForToken := by
  unfold HandBack.dropOnce
  split
  case isTrue h => simp [h]
  case isFalse h =>
    split
    case isTrue hne => simpa [h] using hne
    case isFalse he => simpa [h] using he

/-- The drops of a sequence, from the one token remembered. -/
theorem dropsFor_cons (s : HandBack) (v : Visit) (rest : List Visit) :
    s.dropsFor (v :: rest)
      = (if v.reports ≠ 0 ∧ v.reports ≠ s.droppedForToken then [v.reports]
          else [])
        ++ (s.dropOnce v.reports).dropsFor rest := by
  rw [HandBack.dropsFor]
  simp only [dropOnce_drops_iff]
  split <;> rfl

-- == the sequence

/-- A call that is named and was not the last one named is dropped for. -/
theorem mem_dropsFor (h0 : token ≠ 0) (hs : s.droppedForToken ≠ token)
    (hv : ∃ v ∈ visits, Visit.reports v = token) :
    token ∈ s.dropsFor visits := by
  induction visits generalizing s with
  | nil =>
    obtain ⟨v, hv, -⟩ := hv
    cases hv
  | cons v rest ih =>
    rw [dropsFor_cons]
    by_cases hr : v.reports = token
    · rw [if_pos ⟨hr ▸ h0, hr ▸ hs.symm⟩, hr]
      exact List.mem_cons_self
    · refine List.mem_append_right _ (ih ?_ ?_)
      · rw [dropOnce_remembers]
        exact hr
      · obtain ⟨w, hw, he⟩ := hv
        rcases List.mem_cons.mp hw with rfl | hw
        · exact absurd he hr
        · exact ⟨w, hw, he⟩

/-- A token that is dropped for is named, after something else. -/
theorem of_mem_dropsFor (h : token ∈ s.dropsFor visits) :
    token ≠ 0 ∧ ∃ t₁ v t₂, visits = t₁ ++ v :: t₂ ∧ v.reports = token
      ∧ (t₁ = [] → s.droppedForToken ≠ token)
      ∧ (∀ w ∈ t₁.getLast?, Visit.reports w ≠ token) := by
  induction visits generalizing s with
  | nil => cases h
  | cons v rest ih =>
    rw [dropsFor_cons] at h
    rcases List.mem_append.mp h with h | h
    · split at h
      case isFalse => cases h
      case isTrue hdrop =>
        obtain rfl := List.mem_singleton.mp h
        exact ⟨hdrop.1, [], v, rest, rfl, rfl,
          fun _ => hdrop.2.symm, nofun⟩
    · obtain ⟨h0, t₁, w, t₂, rfl, hw, hfirst, hlast⟩ := ih h
      refine ⟨h0, v :: t₁, w, t₂, rfl, hw, nofun, ?_⟩
      intro u hu
      cases t₁ with
      | nil =>
        cases hu
        have hne := hfirst rfl
        rw [dropOnce_remembers] at hne
        exact hne
      | cons z t => exact hlast u hu

/-- Is the token named, something else after it, and then it again? -/
def Returns (token : UInt64) (visits : List Visit) : Prop :=
  ∃ t₁ v t₂ w t₃, visits = t₁ ++ v :: (t₂ ++ w :: t₃)
    ∧ v.reports = token ∧ w.reports = token
    ∧ ∃ z ∈ t₂, Visit.reports z ≠ token

/-- A sequence cut behind one of its callbacks, which leaves its own token
remembered. -/
theorem dropsFor_append (s : HandBack) (t₁ : List Visit) (v : Visit)
    (t₂ : List Visit) :
    ∃ s' : HandBack, s'.droppedForToken = v.reports
      ∧ s.dropsFor (t₁ ++ v :: t₂)
        = s.dropsFor (t₁ ++ [v]) ++ s'.dropsFor t₂ := by
  induction t₁ generalizing s with
  | nil =>
    refine ⟨s.dropOnce v.reports, dropOnce_remembers s _, ?_⟩
    show s.dropsFor (v :: t₂) = s.dropsFor [v] ++ _
    rw [dropsFor_cons, dropsFor_cons s v []]
    simp [HandBack.dropsFor]
  | cons u t ih =>
    obtain ⟨s', hs', he⟩ := ih (s.dropOnce u.reports)
    refine ⟨s', hs', ?_⟩
    rw [List.cons_append, List.cons_append, dropsFor_cons,
      dropsFor_cons s u, he, List.append_assoc]

/-- A call that is named again after another is dropped for again. -/
theorem two_le_count_dropsFor (h0 : token ≠ 0)
    (hs : s.droppedForToken ≠ token) (h : Returns token visits) :
    2 ≤ (s.dropsFor visits).count token := by
  obtain ⟨t₁, v, t₂, w, t₃, rfl, hv, hw, z, hz, hne⟩ := h
  obtain ⟨u₁, u₂, rfl⟩ := List.append_of_mem hz
  have hcut : t₁ ++ v :: (u₁ ++ z :: u₂ ++ w :: t₃)
      = (t₁ ++ v :: u₁) ++ z :: (u₂ ++ w :: t₃) := by simp
  obtain ⟨s', hs', he⟩ :=
    dropsFor_append s (t₁ ++ v :: u₁) z (u₂ ++ w :: t₃)
  rw [hcut, he, List.count_append]
  have hfirst : 0 < (s.dropsFor (t₁ ++ v :: u₁ ++ [z])).count token :=
    List.count_pos_iff.mpr (mem_dropsFor h0 hs ⟨v, by simp, hv⟩)
  have hsecond : 0 < (s'.dropsFor (u₂ ++ w :: t₃)).count token :=
    List.count_pos_iff.mpr (mem_dropsFor h0 (hs' ▸ hne) ⟨w, by simp, hw⟩)
  omega

/-- A call that is dropped for twice was named again after another. The
induction finds the first drop; what stands before the second one is
something else, and comes after the first. -/
theorem returns_of_count (h : 2 ≤ (s.dropsFor visits).count token) :
    token ≠ 0 ∧ Returns token visits := by
  induction visits generalizing s with
  | nil => simp [HandBack.dropsFor] at h
  | cons v rest ih =>
    rw [dropsFor_cons, List.count_append] at h
    by_cases hlater :
        2 ≤ ((s.dropOnce v.reports).dropsFor rest).count token
    · obtain ⟨h0, t₁, u, t₂, w, t₃, rfl, hreturn⟩ := ih hlater
      exact ⟨h0, v :: t₁, u, t₂, w, t₃, rfl, hreturn⟩
    · split at h
      case isFalse =>
        rw [List.count_nil] at h
        omega
      case isTrue =>
        have hv : v.reports = token := by
          by_contra hne
          rw [List.count_singleton, if_neg (by simpa using hne)] at h
          omega
        have hmem : token ∈ (s.dropOnce v.reports).dropsFor rest := by
          rw [hv, List.count_singleton_self] at h
          rw [hv]
          exact List.count_pos_iff.mp (by omega)
        obtain ⟨h0, t₁, w, t₂, rfl, hw, hfirst, hlast⟩ :=
          of_mem_dropsFor hmem
        refine ⟨h0, [], v, t₁, w, t₂, rfl, hv, hw, ?_⟩
        cases t₁ using List.reverseRecOn with
        | nil =>
          have hne := hfirst rfl
          rw [dropOnce_remembers] at hne
          exact absurd hv hne
        | append_singleton t z =>
          exact ⟨z, by simp, hlast z (by simp)⟩

/-- For every sequence of snapshots, whatever the stores and the orders
the calls are visited in: the callback starts at most one drop for each
token exactly when no call is reported, then another or none, and then the
first again. -/
theorem dropped_once_iff (s : HandBack) (hs : s.droppedForToken = 0)
    (visits : List Visit) :
    (∀ token, (s.dropsFor visits).count token ≤ 1)
      ↔ ∀ t₁ v t₂ w t₃, visits = t₁ ++ v :: (t₂ ++ w :: t₃) →
        v.reports ≠ 0 → w.reports = v.reports →
        ∀ z ∈ t₂, Visit.reports z = v.reports := by
  constructor
  · intro honce t₁ v t₂ w t₃ hvisits h0 hw z hz
    by_contra hne
    have htwice : 2 ≤ (s.dropsFor visits).count v.reports :=
      two_le_count_dropsFor h0 (hs ▸ h0.symm)
        ⟨t₁, v, t₂, w, t₃, hvisits, rfl, hw, z, hz, hne⟩
    have := honce v.reports
    omega
  · intro hsteady token
    by_contra hmany
    have htwice : 2 ≤ (s.dropsFor visits).count token := by omega
    obtain ⟨h0, t₁, v, t₂, w, t₃, hvisits, rfl, hw, z, hz, hne⟩ :=
      returns_of_count htwice
    exact hne (hsteady t₁ v t₂ w t₃ hvisits h0 hw z hz)

/-- The calls visited in ascending index order, and in descending. -/
def upward (store : Store) : Visit := (store, store.calls.sorted)
def downward (store : Store) : Visit := (store, store.calls.sorted.reverse)

/-- A call is answered on the handset, held there, and taken up again. -/
def heldOnHandset : List Visit :=
  let active := ((newStore 7).apply [1, 3, 0]).2
  let held := (active.apply [1, 4, 0]).2
  [upward active, upward held, upward (held.apply [1, 3, 0]).2]

/-- The link is dropped for the call once. -/
theorem dropped_once_held :
    8 ∈ (newHandBack 7 true).dropsFor heldOnHandset
      ∧ ∀ token, ((newHandBack 7 true).dropsFor heldOnHandset).count token
        ≤ 1 := by
  have hall : ∀ v ∈ heldOnHandset, Visit.reports v = 8 := by
    decide +kernel
  refine ⟨by decide +kernel,
    (dropped_once_iff (newHandBack 7 true) rfl heldOnHandset).mpr ?_⟩
  intro t₁ v t₂ w t₃ hvisits _ _ z hz
  rw [hall v (by rw [hvisits]; simp), hall z (by rw [hvisits]; simp [hz])]

/-- Two calls are answered on the handset, one held while the other is
talked to, and swapped there and back; `HandsetAnswered` comes upon the
one, the other, and the first again. -/
def swappedOnHandset : List Visit :=
  let first := ((newStore 7).apply [1, 3, 0, 2, 4, 0]).2
  let second := (first.apply [1, 4, 0, 2, 3, 0]).2
  let third := (second.apply [1, 3, 0, 2, 4, 0]).2
  [upward first, downward second, upward third]

/-- The link is dropped twice for the first of the two calls. -/
theorem dropped_again_swapped :
    (∀ v ∈ swappedOnHandset, v.1.calls.Order v.2)
      ∧ (newHandBack 7 true).dropsFor swappedOnHandset = [8, 9, 8]
      ∧ ¬ ((newHandBack 7 true).dropsFor swappedOnHandset).count 8 ≤ 1 := by
  refine ⟨by decide +kernel, by decide +kernel, by decide +kernel⟩

end Callbridge.Serve
