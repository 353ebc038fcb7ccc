/-
A list cut into pieces of bounded size, the first with a room of its own.

`Cut later room l pieces` follows a loop that sends what fits: as long as
more is left than there is room, it takes the room's worth and goes on
with the room that all later pieces have. The last piece is what fits
whole, so a list that just fits is one piece and no empty piece follows
it.
-/
import Mathlib.Data.List.Basic

namespace Callbridge.Lib

variable {α : Type}

inductive Cut (later : Nat) : Nat → List α → List (List α) → Prop where
  | last {room : Nat} {l : List α} (h : l.length ≤ room) :
      Cut later room l [l]
  | more {room : Nat} {l : List α} {pieces : List (List α)}
      (h : room < l.length) (rest : Cut later later (l.drop room) pieces) :
      Cut later room l (l.take room :: pieces)

/-- Where every piece has room for something, the loop comes to its end:
each turn leaves a shorter list. -/
theorem exists_cut {later room : Nat} (hlater : 0 < later)
    (hroom : 0 < room) (l : List α) : ∃ pieces, Cut later room l pieces := by
  induction hn : l.length using Nat.strongRecOn generalizing l room with
  | _ n ih =>
    by_cases hfit : l.length ≤ room
    · exact ⟨[l], Cut.last hfit⟩
    · have hshort : (l.drop room).length < n := by
        rw [List.length_drop]
        omega
      obtain ⟨pieces, hrest⟩ := ih _ hshort hlater (l.drop room) rfl
      exact ⟨_, Cut.more (by omega) hrest⟩

variable {later room : Nat} {l : List α} {pieces : List (List α)}

theorem Cut.flatten (h : Cut later room l pieces) : pieces.flatten = l := by
  induction h with
  | last _ => simp
  | more _ _ ih => rw [List.flatten_cons, ih, List.take_append_drop]

theorem Cut.length_pos (h : Cut later room l pieces) :
    0 < pieces.length := by
  cases h with
  | last _ | more _ _ => simp

end Callbridge.Lib
