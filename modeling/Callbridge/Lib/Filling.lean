/-
Cutting a sequence into pieces of bounded width, greedily: a piece takes
as many elements as fit, and gives back those behind its last break unless
it reaches the end or holds no break.

Cutting earlier or with less room never gets further (`cut_append`): a
larger piece may end at an earlier break than a smaller one that holds
none, but then the break lies in the smaller one too. So where the room
depends on the number of pieces, asking for a number, counting and asking
again goes up until it settles (`settle_isSome`).
-/
import Mathlib.Algebra.GroupWithZero.Nat
import Mathlib.Data.List.Basic

namespace Callbridge.Lib

namespace Filling

variable {α : Type} (width : α → Nat) (brk : α → Bool)

-- == one piece

def totalWidth (l : List α) : Nat := (l.map width).sum

/-- How many elements from the front fit the room. -/
def fits : Nat → List α → Nat
  | _, [] => 0
  | room, a :: l =>
      if width a ≤ room then fits (room - width a) l + 1 else 0

/-- The position behind the last break among the first `n`, or zero. -/
def lastBreak : List α → Nat → Nat
  | [], _ => 0
  | _ :: _, 0 => 0
  | a :: l, n + 1 =>
      if lastBreak l n = 0 then if brk a then 1 else 0
      else lastBreak l n + 1

/-- The length of the first piece. -/
def cut (room : Nat) (l : List α) : Nat :=
  if totalWidth width l ≤ room then l.length
  else if lastBreak brk l (fits width room l) = 0 then
    max (fits width room l) 1
  else lastBreak brk l (fits width room l)

variable {l mid : List α} {room room' n m : Nat}

@[simp] theorem totalWidth_nil : totalWidth width [] = 0 := rfl

@[simp] theorem totalWidth_cons (a : α) (l : List α) :
    totalWidth width (a :: l) = width a + totalWidth width l := by
  simp [totalWidth]

@[simp] theorem totalWidth_append (l l' : List α) :
    totalWidth width (l ++ l')
      = totalWidth width l + totalWidth width l' := by
  simp [totalWidth]

theorem totalWidth_take_le (l : List α) (h : n ≤ m) :
    totalWidth width (l.take n) ≤ totalWidth width (l.take m) := by
  obtain ⟨k, rfl⟩ := Nat.exists_eq_add_of_le h
  rw [List.take_add, totalWidth_append]
  omega

-- == what fits

theorem fits_le_length (room : Nat) (l : List α) :
    fits width room l ≤ l.length := by
  induction l generalizing room with
  | nil => simp [fits]
  | cons a l ih =>
    have hrest := ih (room - width a)
    unfold fits
    split
    · rw [List.length_cons]
      omega
    · omega

theorem totalWidth_take_fits (room : Nat) (l : List α) :
    totalWidth width (l.take (fits width room l)) ≤ room := by
  induction l generalizing room with
  | nil => simp [fits]
  | cons a l ih =>
    have hrest := ih (room - width a)
    unfold fits
    split
    · rw [List.take_succ_cons, totalWidth_cons]
      omega
    · simp

theorem fits_mono (l : List α) (h : room' ≤ room) :
    fits width room' l ≤ fits width room l := by
  induction l generalizing room room' with
  | nil => simp [fits]
  | cons a l ih =>
    unfold fits
    by_cases hfit : width a ≤ room'
    · have hmore : width a ≤ room := by omega
      have hrest := ih (show room' - width a ≤ room - width a by omega)
      rw [if_pos hfit, if_pos hmore]
      omega
    · rw [if_neg hfit]
      omega

/-- Everything fits exactly where it is no wider than the room. -/
theorem fits_eq_length_iff (room : Nat) (l : List α) :
    fits width room l = l.length ↔ totalWidth width l ≤ room := by
  induction l generalizing room with
  | nil => simp [fits]
  | cons a l ih =>
    have hrest := ih (room - width a)
    rw [fits, totalWidth_cons, List.length_cons]
    split
    · omega
    · omega

/-- What fits from an earlier start reaches no further. -/
theorem fits_append (mid l : List α)
    (h : room' ≤ totalWidth width mid + room) :
    fits width room' (mid ++ l) ≤ mid.length + fits width room l := by
  induction mid generalizing room' with
  | nil =>
    have hmono := fits_mono width l (by simpa using h)
    simpa using hmono
  | cons a mid ih =>
    rw [totalWidth_cons] at h
    rw [List.cons_append, List.length_cons, fits]
    split
    · have hrest := ih (show room' - width a
        ≤ totalWidth width mid + room by omega)
      omega
    · omega

-- == breaks

theorem lastBreak_le (l : List α) (n : Nat) : lastBreak brk l n ≤ n := by
  induction l generalizing n with
  | nil => simp [lastBreak]
  | cons a l ih =>
    cases n with
    | zero => simp [lastBreak]
    | succ n =>
      have hrest := ih n
      unfold lastBreak
      split
      · split <;> omega
      · omega

/-- A longer reach breaks no earlier. -/
theorem lastBreak_mono (l : List α) (h : n ≤ m) :
    lastBreak brk l n ≤ lastBreak brk l m := by
  induction l generalizing n m with
  | nil => simp [lastBreak]
  | cons a l ih =>
    cases n with
    | zero => simp [lastBreak]
    | succ n =>
      cases m with
      | zero => omega
      | succ m =>
        have hrest := ih (show n ≤ m by omega)
        unfold lastBreak
        split
        · split
          · split <;> omega
          · omega
        · split <;> omega

/-- The last break is the last up to itself. -/
theorem lastBreak_self (l : List α) (n : Nat) :
    lastBreak brk l (lastBreak brk l n) = lastBreak brk l n := by
  induction l generalizing n with
  | nil => simp [lastBreak]
  | cons a l ih =>
    cases n with
    | zero => simp [lastBreak]
    | succ n =>
      by_cases hrest : lastBreak brk l n = 0
      · have hzero : lastBreak brk l 0 = 0 := by
          have hle := lastBreak_le brk l 0
          omega
        by_cases ha : brk a = true
        · simp [lastBreak, hrest, ha, hzero]
        · simp [lastBreak, hrest, ha]
      · have hself := ih n
        have hone : lastBreak brk (a :: l) (n + 1)
            = lastBreak brk l n + 1 := by
          simp [lastBreak, hrest]
        simp [lastBreak, hself, hrest]

/-- A break stays one with elements in front. -/
theorem lastBreak_append (mid : List α) (h : lastBreak brk l n ≠ 0) :
    lastBreak brk (mid ++ l) (mid.length + n)
      = mid.length + lastBreak brk l n := by
  induction mid with
  | nil => simp
  | cons a mid ih =>
    have hn : (a :: mid).length + n = (mid.length + n) + 1 := by
      rw [List.length_cons]
      omega
    have hne : lastBreak brk (mid ++ l) (mid.length + n) ≠ 0 := by omega
    rw [hn, List.cons_append, List.length_cons]
    rw [lastBreak, if_neg hne, ih]
    omega

-- == cutting

theorem cut_pos (room : Nat) (hl : l ≠ []) :
    0 < cut width brk room l := by
  have hlen := List.length_pos_iff.mpr hl
  unfold cut
  split
  · exact hlen
  · split <;> omega

theorem cut_le_length (room : Nat) (hl : l ≠ []) :
    cut width brk room l ≤ l.length := by
  have hlen := List.length_pos_iff.mpr hl
  have hfits := fits_le_length width room l
  have hbreak := lastBreak_le brk l (fits width room l)
  unfold cut
  split
  · omega
  · split <;> omega

/-- A piece is no wider than its room, if no element is. -/
theorem totalWidth_take_cut (hwidth : ∀ a ∈ l, width a ≤ room) :
    totalWidth width (l.take (cut width brk room l)) ≤ room := by
  have hfits := totalWidth_take_fits width room l
  unfold cut
  split
  case isTrue hall => rwa [List.take_length]
  case isFalse hmore =>
    split
    · by_cases hzero : fits width room l = 0
      · rw [hzero]
        cases l with
        | nil => simp
        | cons a l =>
          simpa using hwidth a List.mem_cons_self
      · have hone : max (fits width room l) 1 = fits width room l := by omega
        rwa [hone]
    · exact Nat.le_trans
        (totalWidth_take_le width l (lastBreak_le brk l _)) hfits

/-- Starting earlier with no more room, the first piece ends no later. -/
theorem cut_append (mid : List α) (hl : l ≠ []) (hroom : room' ≤ room) :
    cut width brk room' (mid ++ l)
      ≤ mid.length + cut width brk room l := by
  by_cases hall : totalWidth width l ≤ room
  · have hlen := cut_le_length width brk room'
      (List.append_ne_nil_of_right_ne_nil mid hl)
    have hcut : cut width brk room l = l.length := if_pos hall
    rw [List.length_append] at hlen
    omega
  · have hmore : ¬ totalWidth width (mid ++ l) ≤ room' := by
      rw [totalWidth_append]
      omega
    have hreach := fits_append width mid l
      (show room' ≤ totalWidth width mid + room by omega)
    have hbefore := lastBreak_le brk (mid ++ l)
      (fits width room' (mid ++ l))
    unfold cut
    rw [if_neg hall, if_neg hmore]
    by_cases hbreak : lastBreak brk l (fits width room l) = 0
    · split <;> omega
    · have hlater := lastBreak_append brk mid hbreak
      split
      case isFalse =>
        have hmono := lastBreak_mono brk (mid ++ l) hreach
        omega
      case isTrue hnone =>
        -- without a break in the first piece it ends before this one
        have hself := lastBreak_self brk l (fits width room l)
        have hat := lastBreak_append brk mid (show lastBreak brk l
          (lastBreak brk l (fits width room l)) ≠ 0 by omega)
        by_contra hover
        have hmono := lastBreak_mono brk (mid ++ l)
          (show mid.length + lastBreak brk l (fits width room l)
            ≤ fits width room' (mid ++ l) by omega)
        omega

-- == pieces

/-- The pieces, where the room may differ from one to the next. -/
def pieces (room : Nat → Nat) : Nat → Nat → List α → List (List α)
  | 0, _, _ => []
  | _ + 1, _, [] => []
  | fuel + 1, i, a :: l =>
      (a :: l).take (cut width brk (room i) (a :: l))
        :: pieces room fuel (i + 1)
          ((a :: l).drop (cut width brk (room i) (a :: l)))

theorem pieces_of_ne_nil (room : Nat → Nat) (fuel i : Nat) (hl : l ≠ []) :
    pieces width brk room (fuel + 1) i l
      = l.take (cut width brk (room i) l)
        :: pieces width brk room fuel (i + 1)
          (l.drop (cut width brk (room i) l)) := by
  cases l with
  | nil => exact absurd rfl hl
  | cons a l => rfl

/-- Enough fuel takes everything. -/
theorem flatten_pieces (room : Nat → Nat) {fuel : Nat} (i : Nat)
    (h : l.length ≤ fuel) : (pieces width brk room fuel i l).flatten = l := by
  induction fuel generalizing i l with
  | zero => simpa [pieces] using (List.length_eq_zero_iff.mp (by omega)).symm
  | succ fuel ih =>
    by_cases hl : l = []
    · subst hl
      simp [pieces]
    · have hpos := cut_pos width brk (room i) hl
      rw [pieces_of_ne_nil width brk room fuel i hl, List.flatten_cons, ih,
        List.take_append_drop]
      rw [List.length_drop]
      omega

/-- What holds of the first piece of any list holds of every piece. -/
theorem forall_mem_pieces {room : Nat → Nat} {P : List α → Prop}
    (h : ∀ i l, l ≠ [] → P (l.take (cut width brk (room i) l)))
    (fuel i : Nat) (l : List α) :
    ∀ piece ∈ pieces width brk room fuel i l, P piece := by
  induction fuel generalizing i l with
  | zero => simp [pieces]
  | succ fuel ih =>
    by_cases hl : l = []
    · subst hl
      simp [pieces]
    · rw [pieces_of_ne_nil width brk room fuel i hl]
      intro piece hpiece
      rcases List.mem_cons.mp hpiece with rfl | hpiece
      · exact h i l hl
      · exact ih _ _ piece hpiece

theorem pieces_ne_nil (room : Nat → Nat) (fuel i : Nat) (l : List α) :
    ∀ piece ∈ pieces width brk room fuel i l, piece ≠ [] := by
  apply forall_mem_pieces
  intro i l hl
  have hpos := cut_pos width brk (room i) hl
  simp [hl]
  omega

/-- There are no more pieces than elements. -/
theorem length_pieces_le (room : Nat → Nat) (fuel i : Nat) (l : List α) :
    (pieces width brk room fuel i l).length ≤ l.length := by
  induction fuel generalizing i l with
  | zero => simp [pieces]
  | succ fuel ih =>
    by_cases hl : l = []
    · subst hl
      simp [pieces]
    · have hpos := cut_pos width brk (room i) hl
      have hlen := List.length_pos_iff.mpr hl
      have hrest := ih (i + 1) (l.drop (cut width brk (room i) l))
      rw [List.length_drop] at hrest
      rw [pieces_of_ne_nil width brk room fuel i hl, List.length_cons]
      omega

/-- Starting earlier with no more room takes no fewer pieces. -/
theorem length_pieces_le_of_room {rooms rooms' : Nat → Nat}
    (hroom : ∀ i, rooms' i ≤ rooms i) {fuel fuel' : Nat} (i : Nat)
    (mid : List α) (h : (mid ++ l).length ≤ fuel') :
    (pieces width brk rooms fuel i l).length
      ≤ (pieces width brk rooms' fuel' i (mid ++ l)).length := by
  induction fuel generalizing fuel' i mid l with
  | zero => simp [pieces]
  | succ fuel ih =>
    by_cases hl : l = []
    · subst hl
      simp [pieces]
    · have hmid : mid ++ l ≠ [] :=
        List.append_ne_nil_of_right_ne_nil mid hl
      have hlen := List.length_pos_iff.mpr hmid
      obtain ⟨fuel', rfl⟩ : ∃ k, fuel' = k + 1 := ⟨fuel' - 1, by omega⟩
      have hcut := cut_append width brk mid hl (hroom i)
      have hpos := cut_pos width brk (rooms' i) hmid
      have hend := cut_le_length width brk (rooms i) hl
      -- what is left of the earlier start begins before what is left here
      have hleft : (mid ++ l).drop (cut width brk (rooms' i) (mid ++ l))
          = (mid ++ l.take (cut width brk (rooms i) l)).drop
              (cut width brk (rooms' i) (mid ++ l))
            ++ l.drop (cut width brk (rooms i) l) := by
        rw [← List.drop_append_of_le_length]
        · rw [List.append_assoc, List.take_append_drop]
        · rw [List.length_append, List.length_take]
          omega
      have hrest : ((mid ++ l).drop
          (cut width brk (rooms' i) (mid ++ l))).length ≤ fuel' := by
        rw [List.length_drop]
        omega
      rw [hleft] at hrest
      rw [pieces_of_ne_nil width brk rooms fuel i hl,
        pieces_of_ne_nil width brk rooms' fuel' i hmid, hleft,
        List.length_cons, List.length_cons]
      have hcount := ih (i + 1) _ hrest
      omega

end Filling

-- == settling

/-- Ask for a number, count, and ask for the count, until the two agree. -/
def settle (count : Nat → Nat) : Nat → Nat → Option Nat
  | 0, _ => none
  | attempts + 1, t =>
      if count t = t then some t else settle count attempts (count t)

/-- A count that grows with what is asked for, and is the same for
numbers of one rank, settles after one attempt for every rank there is
room for. -/
theorem settle_isSome {count : Nat → Nat} (rank : Nat → Nat) (top : Nat)
    {attempts t : Nat}
    (hcount : ∀ t t', t ≤ t' → count t ≤ count t')
    (hrank : ∀ t t', t ≤ t' → rank t ≤ rank t')
    (hsame : ∀ t t', rank t = rank t' → count t = count t')
    (htop : ∀ t, rank (count t) ≤ top) (ht : t ≤ count t)
    (henough : top + 2 ≤ attempts + rank t) :
    (settle count attempts t).isSome = true := by
  induction attempts generalizing t with
  | zero =>
    have hup := hrank _ _ ht
    have hbound := htop t
    omega
  | succ attempts ih =>
    unfold settle
    split
    · rfl
    · have hup := hrank _ _ ht
      have hbound := htop t
      by_cases heq : rank t = rank (count t)
      · -- the next count is this one again
        have hfixed : count (count t) = count t := (hsame _ _ heq).symm
        obtain ⟨k, rfl⟩ : ∃ k, attempts = k + 1 := ⟨attempts - 1, by omega⟩
        simp [settle, hfixed]
      · exact ih (hcount _ _ ht) (by omega)

end Callbridge.Lib
