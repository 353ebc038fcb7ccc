/-
Finding a marker in a text: `strings.Index`, and what the first occurrence
is when the text is put together from parts.

A part is `clear` of a marker if no occurrence starts in it, whatever
follows. A text that does not hold the marker need not be: its end may be
the marker's beginning. But a marker whose first byte does not come up
again in it cannot overlap itself (`index_behind`).
-/
import Callbridge.Lib.Strings

namespace Callbridge.Lib

variable {marker s l : Bytes} {b : UInt8}

/-- `strings.Index`. -/
def index (marker : Bytes) : Bytes → Option Nat
  | [] => if marker.isPrefixOf [] then some 0 else none
  | b :: s =>
      if marker.isPrefixOf (b :: s) then some 0
      else (index marker s).map (· + 1)

theorem index_of_prefix (h : marker <+: s) :
    index marker s = some 0 := by
  have hpre := List.isPrefixOf_iff_prefix.mpr h
  cases s with
  | nil | cons b s => rw [index, if_pos hpre]

theorem index_cons (h : ¬ marker <+: b :: s) :
    index marker (b :: s) = (index marker s).map (· + 1) := by
  rw [index, if_neg fun hpre => h (List.isPrefixOf_iff_prefix.mp hpre)]

/-- A marker that is in the text is found, no later than where it is. -/
theorem exists_index (marker pre post : Bytes) :
    ∃ k, index marker (pre ++ marker ++ post) = some k
      ∧ k ≤ pre.length := by
  induction pre with
  | nil =>
    refine ⟨0, index_of_prefix ?_, Nat.le_refl _⟩
    exact List.prefix_append marker post
  | cons b pre ih =>
    obtain ⟨k, hk, hle⟩ := ih
    by_cases hpre : marker <+: b :: (pre ++ marker ++ post)
    · exact ⟨0, index_of_prefix hpre, Nat.zero_le _⟩
    · refine ⟨k + 1, ?_, Nat.succ_le_succ hle⟩
      rw [List.cons_append, List.cons_append, index_cons hpre, hk]
      rfl

-- == clear parts

/-- No occurrence of the marker starts here, whatever follows. -/
def clear (marker : Bytes) : Bytes → Bool
  | [] => true
  | b :: s =>
      !(marker.isPrefixOf (b :: s)) && !((b :: s).isPrefixOf marker)
        && clear marker s

/-- The search passes over a clear part. -/
theorem index_clear (h : clear marker l = true) (s : Bytes) :
    index marker (l ++ s)
      = (index marker s).map (· + l.length) := by
  induction l with
  | nil =>
    exact (Option.map_id' (x := index marker s)).symm
  | cons b l ih =>
    simp only [clear, Bool.and_eq_true, Bool.not_eq_eq_eq_not,
      Bool.not_true] at h
    obtain ⟨⟨hover, hunder⟩, hrest⟩ := h
    have hpre : ¬ marker <+: b :: (l ++ s) := by
      intro hpre
      rcases List.prefix_or_prefix_of_prefix hpre
          (List.prefix_append (b :: l) s) with hm | hm
      · rw [List.isPrefixOf_iff_prefix.mpr hm] at hover
        cases hover
      · rw [List.isPrefixOf_iff_prefix.mpr hm] at hunder
        cases hunder
    rw [List.cons_append, index_cons hpre, ih hrest, Option.map_map]
    congr 1

/-- Two clear parts are clear. -/
theorem clear_append {m : Bytes} (hl : clear marker l = true)
    (hm : clear marker m = true) : clear marker (l ++ m) = true := by
  induction l with
  | nil => exact hm
  | cons b l ih =>
    simp only [clear, Bool.and_eq_true, Bool.not_eq_eq_eq_not,
      Bool.not_true] at hl
    obtain ⟨⟨hover, hunder⟩, hrest⟩ := hl
    have hover' : marker.isPrefixOf (b :: (l ++ m)) = false := by
      rw [Bool.eq_false_iff, ne_eq, List.isPrefixOf_iff_prefix,
        ← List.cons_append]
      intro hpre
      rcases List.prefix_or_prefix_of_prefix hpre
          (List.prefix_append (b :: l) m) with h | h
      · rw [List.isPrefixOf_iff_prefix.mpr h] at hover
        cases hover
      · rw [List.isPrefixOf_iff_prefix.mpr h] at hunder
        cases hunder
    have hunder' : (b :: (l ++ m)).isPrefixOf marker = false := by
      rw [Bool.eq_false_iff, ne_eq, List.isPrefixOf_iff_prefix,
        ← List.cons_append]
      intro hpre
      have h := (List.prefix_append (b :: l) m).trans hpre
      rw [List.isPrefixOf_iff_prefix.mpr h] at hunder
      cases hunder
    simp only [List.cons_append, clear, hover', hunder', ih hrest]
    rfl

/-- A part without the marker's first byte. -/
theorem clear_of_not_mem (h : b ∉ l) :
    clear (b :: marker) l = true := by
  induction l with
  | nil => rfl
  | cons c l ih =>
    rw [List.mem_cons, not_or] at h
    have hne : (b == c) = false := by simpa using h.1
    have hne' : (c == b) = false := by simpa using Ne.symm h.1
    simp only [clear, List.isPrefixOf, hne, hne', ih h.2]
    rfl

-- == behind a text

/-- A marker that does not overlap itself, put behind a text without it,
is found there. -/
theorem index_behind (hself : b ∉ marker) (h : ¬ (b :: marker) <:+: s)
    (post : Bytes) :
    index (b :: marker) (s ++ (b :: marker) ++ post) = some s.length := by
  induction s with
  | nil => exact index_of_prefix (List.prefix_append _ _)
  | cons c s ih =>
    rw [List.infix_cons_iff, not_or] at h
    have hpre : ¬ (b :: marker) <+: c :: (s ++ (b :: marker) ++ post) := by
      intro hpre
      have hcut : (c :: s) <+: c :: (s ++ (b :: marker) ++ post) := by
        rw [List.append_assoc, ← List.cons_append]
        exact List.prefix_append _ _
      rcases List.prefix_or_prefix_of_prefix hpre hcut with hm | hm
      · exact h.1 hm
      · -- the marker would go on into itself
        obtain ⟨more, hmore⟩ := hm
        rw [List.cons_append, List.cons.injEq] at hmore
        obtain ⟨rfl, hmarker⟩ := hmore
        cases more with
        | nil =>
          refine h.1 ⟨[], ?_⟩
          rw [List.append_nil, ← hmarker, List.append_nil]
        | cons d more =>
          have hb : d = c := by
            obtain ⟨rest, hrest⟩ := hpre
            rw [← hmarker, List.cons_append, List.cons.injEq,
              List.append_assoc, List.append_assoc,
              List.append_cancel_left_eq] at hrest
            exact (List.cons.inj hrest.2).1
          refine hself ?_
          rw [← hmarker, hb]
          exact List.mem_append_right _ List.mem_cons_self
    rw [List.cons_append, List.cons_append, index_cons hpre, ih h.2]
    rfl

-- == splitting

/-- The pieces between the occurrences of a marker, of which at most
`fuel` are looked for. -/
def splitFrom (marker : Bytes) : Nat → Bytes → List Bytes
  | 0, s => [s]
  | fuel + 1, s =>
      match index marker s with
      | none => [s]
      | some k =>
          s.take k :: splitFrom marker fuel (s.drop (k + marker.length))

/-- `strings.Split`; there are no more occurrences than bytes. -/
def split (marker s : Bytes) : List Bytes := splitFrom marker s.length s

/-- A line without the terminator is split off. -/
theorem splitFrom_line {line : Bytes} (h : b ∉ line) (fuel : Nat)
    (rest : Bytes) :
    splitFrom (b :: marker) (fuel + 1) (line ++ (b :: marker) ++ rest)
      = line :: splitFrom (b :: marker) fuel rest := by
  have hfound : index (b :: marker) (line ++ (b :: marker) ++ rest)
      = some line.length := by
    rw [List.append_assoc, index_clear (clear_of_not_mem h),
      index_of_prefix (List.prefix_append _ _)]
    simp
  simp only [splitFrom, hfound]
  rw [← List.length_append, List.drop_left, List.append_assoc,
    List.take_left]

/-- Terminated lines come back, and an empty rest. -/
theorem splitFrom_lines {lines : List Bytes} (h : ∀ line ∈ lines, b ∉ line)
    {fuel : Nat} (hfuel : lines.length ≤ fuel) :
    splitFrom (b :: marker) fuel
        (lines.flatMap fun line => line ++ (b :: marker))
      = lines ++ [[]] := by
  induction lines generalizing fuel with
  | nil =>
    cases fuel with
    | zero | succ fuel => rfl
  | cons line lines ih =>
    obtain ⟨fuel, rfl⟩ : ∃ n, fuel = n + 1 :=
      Nat.exists_eq_add_one.mpr (Nat.lt_of_lt_of_le (Nat.succ_pos _) hfuel)
    rw [List.flatMap_cons, splitFrom_line (h line List.mem_cons_self)]
    rw [ih (fun l hl => h l (List.mem_cons_of_mem _ hl))
      (Nat.le_of_succ_le_succ hfuel)]
    rfl

/-- Terminated lines, split at the terminator. -/
theorem split_lines (marker : Bytes) {lines : List Bytes}
    (h : ∀ line ∈ lines, b ∉ line) :
    split (b :: marker) (lines.flatMap fun line => line ++ (b :: marker))
      = lines ++ [[]] := by
  refine splitFrom_lines h ?_
  clear h
  induction lines with
  | nil => exact Nat.le_refl _
  | cons line lines ih =>
    rw [List.flatMap_cons, List.length_append, List.length_append,
      List.length_cons, List.length_cons]
    omega

-- == lines

/-- Splitting starts anew behind a separator. -/
theorem splitByte_append (b : UInt8) (l s : Bytes) :
    splitByte b (l ++ b :: s) = splitByte b l ++ splitByte b s := by
  unfold splitByte
  exact List.splitOnP_append_cons l s (beq_self_eq_true b)

/-- Terminated lines come back in front of what follows them. -/
theorem splitByte_lines {lines : List Bytes} (h : ∀ line ∈ lines, b ∉ line)
    (s : Bytes) :
    splitByte b ((lines.flatMap fun line => line ++ [b]) ++ s)
      = lines ++ splitByte b s := by
  induction lines with
  | nil => rfl
  | cons line lines ih =>
    have hline : splitByte b line = [line] :=
      List.splitOn_eq_singleton (h line List.mem_cons_self)
    rw [List.flatMap_cons, List.append_assoc, List.append_assoc,
      List.singleton_append, splitByte_append, hline,
      ih fun l hl => h l (List.mem_cons_of_mem _ hl)]
    rfl

theorem splitByte_cons (b c : UInt8) (s : Bytes) :
    splitByte b (c :: s) = if c = b then [] :: splitByte b s
      else (splitByte b s).modifyHead (c :: ·) := by
  unfold splitByte
  simp only [List.splitOn_eq_splitOnP]
  rw [List.splitOnP_cons_eq_if_modifyHead]
  simp only [beq_iff_eq]

/-- The first line ends before the first separator. -/
theorem exists_splitByte (b : UInt8) (s : Bytes) :
    ∃ rest, splitByte b s = s.takeWhile (· != b) :: rest := by
  induction s with
  | nil => exact ⟨[], rfl⟩
  | cons c s ih =>
    obtain ⟨rest, hrest⟩ := ih
    rw [splitByte_cons]
    by_cases hc : c = b
    · rw [if_pos hc, List.takeWhile_cons_of_neg (by simp [hc])]
      exact ⟨_, rfl⟩
    · rw [if_neg hc, hrest, List.takeWhile_cons_of_pos (by simp [hc])]
      exact ⟨rest, rfl⟩

/-- A marker behind a separator is at the start of a line, other than the
first. -/
theorem infix_iff_line (hself : b ∉ marker) :
    (b :: marker) <:+: s
      ↔ ∃ line ∈ (splitByte b s).tail, marker <+: line := by
  induction s with
  | nil => simp [splitByte]
  | cons c s ih =>
    obtain ⟨rest, hrest⟩ := exists_splitByte b s
    rw [List.infix_cons_iff, ih, splitByte_cons, hrest]
    by_cases hc : c = b
    · -- the marker lies within the line that starts here
      have hline : marker <+: s ↔ marker <+: s.takeWhile (· != b) := by
        constructor
        · rintro ⟨more, rfl⟩
          have hkeep : ∀ d ∈ marker, (d != b) = true := by
            intro d hd
            simpa using fun heq : d = b => hself (heq ▸ hd)
          rw [List.takeWhile_append_of_pos hkeep]
          exact List.prefix_append _ _
        · exact fun h => h.trans (List.takeWhile_prefix _)
      rw [if_pos hc, hc, List.cons_prefix_cons, hline]
      simp
    · rw [if_neg hc, List.cons_prefix_cons]
      simp [Ne.symm hc]
-- == trimming

/-- What is stripped is nothing visible. -/
theorem filter_stripFront {encodings : List Bytes}
    (henc : ∀ e ∈ encodings, e.filter visible = []) (fuel : Nat)
    (s : Bytes) :
    (stripFront encodings fuel s).filter visible = s.filter visible := by
  induction fuel generalizing s with
  | zero => rfl
  | succ fuel ih =>
    rw [stripFront]
    cases hfind : encodings.find? (fun e => e.isPrefixOf s) with
    | none => rfl
    | some e =>
      have hpre := List.find?_some hfind
      obtain ⟨rest, rfl⟩ := List.isPrefixOf_iff_prefix.mp hpre
      rw [ih, List.drop_left, List.filter_append,
        henc e (List.mem_of_find?_eq_some hfind), List.nil_append]

theorem filter_trimSpace (s : Bytes) :
    (trimSpace s).filter visible = s.filter visible := by
  have hfront : ∀ e ∈ spaceEncodings, e.filter visible = [] := by decide
  have hback : ∀ e ∈ spaceEncodings.map List.reverse,
      e.filter visible = [] := by decide
  unfold trimSpace
  rw [List.filter_reverse, filter_stripFront hback, List.filter_reverse,
    List.reverse_reverse, filter_stripFront hfront]

end Callbridge.Lib
