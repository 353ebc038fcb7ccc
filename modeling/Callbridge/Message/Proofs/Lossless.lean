/-
What `SplitUTF8` does to bytes that are no text.

Reading a string into runes puts the replacement character for every byte
that is part of no encoding, and writing the parts puts its three bytes;
so a split gives back the text with that done to it (`flatten_splitUTF8`).
A text that is not split is not read.

`splitWithPrefixes` goes on behind as many bytes as the chunk has, which
behind replaced bytes is not the end of the chunk in the text. The last
chunk is what was left, read as it is, so it alone need not be valid.
-/
import Callbridge.Message.Proofs.Splitting

namespace Callbridge.Message

open Lib Filling

variable {rs : List Char} {text : Bytes} {maximum fuel index total : Nat}
  {received : Option Received}

-- == the parts

/-- Every part takes a rune, so the fuel suffices. -/
theorem flatten_splitRunes (h : rs.length ≤ fuel) :
    (splitRunes maximum fuel rs).flatten = encodeRunes rs := by
  rw [splitRunes_eq_pieces fuel 0, ← encodeRunes_flatten,
    flatten_pieces Char.utf8Size isSpace _ 0 h]

theorem splitRunes_ne_nil (fuel : Nat) (rs : List Char) :
    ∀ part ∈ splitRunes maximum fuel rs, part ≠ [] := by
  rw [splitRunes_eq_pieces fuel 0, List.forall_mem_map]
  intro piece hpiece
  rw [ne_eq, encodeRunes_eq_nil]
  exact pieces_ne_nil Char.utf8Size isSpace _ _ _ _ piece hpiece

-- == the split

/-- The maximum that is in force. -/
theorem splitUTF8_eq (text : Bytes) (maximum : Nat) :
    splitUTF8 text maximum
      = if text.length ≤ max utfMax maximum then [text]
        else splitRunes (max utfMax maximum) (runes text).length
          (runes text) := by
  have hmax : (if maximum < utfMax then utfMax else maximum)
      = max utfMax maximum := by
    split <;> omega
  unfold splitUTF8
  simp only [hmax]
  by_cases hshort : text.length ≤ max utfMax maximum
  · rw [if_pos (Or.inl hshort), if_pos hshort]
  · have hne : text ≠ [] := by
      rintro rfl
      exact hshort (Nat.zero_le _)
    rw [if_neg (not_or.mpr ⟨hshort, hne⟩), if_neg hshort]

theorem flatten_splitUTF8 (text : Bytes) (maximum : Nat) :
    (splitUTF8 text maximum).flatten
      = if text.length ≤ max utfMax maximum then text
        else toValidUTF8 text := by
  rw [splitUTF8_eq]
  split
  case isTrue => simp
  case isFalse => exact flatten_splitRunes (Nat.le_refl _)

theorem splitUTF8_ne_nil (htext : text ≠ []) (maximum : Nat) :
    ∀ part ∈ splitUTF8 text maximum, part ≠ [] := by
  rw [splitUTF8_eq]
  split
  case isTrue =>
    intro part hpart
    rw [List.mem_singleton.mp hpart]
    exact htext
  case isFalse => exact splitRunes_ne_nil _ _

-- == the chunks

/-- Where the chunks make up the body, each is a prefix of what the chunks
before it have left. -/
theorem chunk_prefix {body : Bytes} {chunks before after : List Bytes}
    {chunk : Bytes} (hflat : chunks.flatten = body)
    (hsplit : chunks = before ++ chunk :: after) :
    chunk <+: body.drop before.flatten.length := by
  refine ⟨after.flatten, ?_⟩
  rw [← hflat, hsplit, List.flatten_append, List.flatten_cons,
    List.drop_left]

/-- Text that is too long for one chunk leaves some for the next. -/
theorem chunk_of_long (hlong : chunkRoom received total index < text.length)
    (h : text.length ≤ fuel + 1) :
    ∃ n, let chunk := encodeRunes ((runes text).take n)
      let rest := splitWithPrefixesFrom received total fuel (index + 1)
        (text.drop chunk.length)
      splitWithPrefixesFrom received total (fuel + 1) index text
          = chunk :: rest
        ∧ chunk.length < text.length ∧ rest ≠ []
        ∧ (text.drop chunk.length).length ≤ fuel := by
  have htext : text ≠ [] := List.ne_nil_of_length_pos (by omega)
  have hroom := utfMax_le_chunkRoom received index total
  refine ⟨cut Char.utf8Size isSpace (chunkRoom received total index)
    (runes text), ?_⟩
  have hlen := length_take_cut hroom (runes text)
  have hpos := cut_pos Char.utf8Size isSpace
    (chunkRoom received total index) (runes_ne_nil htext)
  have hne : encodeRunes ((runes text).take (cut Char.utf8Size isSpace
      (chunkRoom received total index) (runes text))) ≠ [] := by
    rw [ne_eq, encodeRunes_eq_nil]
    simp [runes_ne_nil htext]
    omega
  have hhead := head_splitUTF8 hroom htext
  rw [if_neg (by omega)] at hhead
  rw [splitWithPrefixesFrom_of_ne_nil htext, hhead]
  generalize encodeRunes _ = chunk at hlen hne
  have hone := List.length_pos_iff.mpr hne
  have hleft : text.drop chunk.length ≠ [] := by
    rw [ne_eq, List.drop_eq_nil_iff]
    omega
  have hfuel : (text.drop chunk.length).length ≤ fuel := by
    rw [List.length_drop]
    omega
  refine ⟨rfl, by omega, ?_, hfuel⟩
  cases fuel with
  | zero =>
    exact absurd (List.eq_nil_of_length_eq_zero (Nat.le_zero.mp hfuel)) hleft
  | succ fuel =>
    rw [splitWithPrefixesFrom_of_ne_nil hleft]
    exact List.cons_ne_nil _ _

/-- The chunks make up the text exactly if it is valid UTF-8 up to the
last of them. -/
theorem flatten_splitWithPrefixesFrom (h : text.length ≤ fuel) :
    (splitWithPrefixesFrom received total fuel index text).flatten = text
      ↔ ValidUTF8 (text.take (splitWithPrefixesFrom received total fuel
        index text).dropLast.flatten.length) := by
  induction fuel generalizing index text with
  | zero =>
    have htext := List.eq_nil_of_length_eq_zero (Nat.le_zero.mp h)
    subst htext
    exact iff_of_true rfl rfl
  | succ fuel ih =>
    by_cases hlong : chunkRoom received total index < text.length
    · obtain ⟨n, hsplit, hlen, hne, hfuel⟩ := chunk_of_long hlong h
      have hrest := @ih _ (index + 1) hfuel
      rw [hsplit, List.dropLast_cons_of_ne_nil hne, List.flatten_cons,
        List.flatten_cons, List.length_append, List.take_add]
      generalize splitWithPrefixesFrom received total fuel (index + 1) _
        = rest at hrest ⊢
      generalize hruns : encodeRunes ((runes text).take n) = chunk
        at hlen hrest ⊢
      constructor
      · intro hflat
        have hchunk := congrArg (List.take chunk.length) hflat
        have hleft := congrArg (List.drop chunk.length) hflat
        rw [List.take_left] at hchunk
        rw [List.drop_left] at hleft
        have hvalid : ValidUTF8 chunk := hruns ▸ validUTF8_encodeRunes _
        rw [← hchunk]
        exact hvalid.append (hrest.mp hleft)
      · intro hvalid
        rw [← List.take_add] at hvalid
        -- the runes of the chunk lie within the valid part
        obtain ⟨u, hu, hvalid'⟩ := hvalid.exists_take
          (show (encodeRunes ((runes (_ ++ text.drop _)).take n)).length
              ≤ _ by
            rw [List.take_append_drop, hruns, List.length_take]
            omega)
        rw [List.take_append_drop, hruns, List.take_add] at hu
        obtain ⟨hchunk, hleft⟩ := List.append_inj hu (by
          rw [List.length_take]
          omega)
        rw [← hleft] at hvalid'
        calc chunk ++ rest.flatten
            = text.take chunk.length ++ text.drop chunk.length := by
              rw [hrest.mpr hvalid', hchunk]
          _ = text := List.take_append_drop _ _
    · by_cases htext : text = []
      · subst htext
        exact iff_of_true rfl rfl
      · have hroom := utfMax_le_chunkRoom received index total
        rw [splitWithPrefixesFrom_of_ne_nil htext,
          head_splitUTF8 hroom htext, if_pos (Nat.not_lt.mp hlong),
          List.drop_length]
        cases fuel with
        | zero | succ fuel => exact iff_of_true (List.append_nil _) rfl

-- == the theorem

/-- The parts of a split make up the text exactly if it is valid UTF-8 or
is not split; a maximum below four, a negative one too, counts as four. No
part of a text that is not empty is empty. Of valid text every chunk of
`splitWithPrefixes` is a prefix of the text that remains, and the chunks
leave none of it out; of any other text they leave nothing out exactly if
it is valid up to the last chunk. -/
theorem split_lossless_iff (text : Bytes) (maximum : Int) :
    ((splitUTF8 text maximum.toNat).flatten = text
        ↔ ValidUTF8 text ∨ text.length ≤ max utfMax maximum.toNat)
      ∧ (text ≠ [] → ∀ part ∈ splitUTF8 text maximum.toNat, part ≠ [])
      ∧ (ValidUTF8 text → ∀ received total,
        (splitWithPrefixes text received total).flatten = text
        ∧ ∀ before chunk after,
          splitWithPrefixes text received total = before ++ chunk :: after →
          chunk <+: text.drop before.flatten.length)
      ∧ ∀ received total,
        (splitWithPrefixes text received total).flatten = text
          ↔ ValidUTF8 (text.take (splitWithPrefixes text received
            total).dropLast.flatten.length) := by
  refine ⟨?_, fun htext => splitUTF8_ne_nil htext _, ?_, fun _ _ =>
    flatten_splitWithPrefixesFrom (Nat.le_refl _)⟩
  · rw [flatten_splitUTF8]
    by_cases hshort : text.length ≤ max utfMax maximum.toNat
    · rw [if_pos hshort]
      exact iff_of_true rfl (Or.inr hshort)
    · rw [if_neg hshort]
      exact (or_iff_left hshort).symm
  · intro hvalid received total
    have htext : text = encodeRunes (runes text) := hvalid.symm
    have hflat := (chunks_of_valid (runes text) received total).1
    rw [← htext] at hflat
    exact ⟨hflat, fun before chunk after => chunk_prefix hflat⟩

/-- Five bytes that are no text come back as fifteen, and the first chunk
of six hundred of them is no prefix of them. -/
theorem split_replaces_bytes :
    (splitUTF8 (List.replicate 5 0xff) 4).flatten
        = (List.replicate 5 [0xef, 0xbf, 0xbd]).flatten
      ∧ (splitUTF8 (List.replicate 5 0xff) 4).flatten
        ≠ List.replicate 5 0xff
      ∧ ¬ (splitWithPrefixes (List.replicate 600 0xff) none 2).headD []
        <+: List.replicate 600 0xff := by
  refine ⟨by decide +kernel, by decide +kernel, ?_⟩
  decide +kernel

end Callbridge.Message
