/-
What `VisibleParts` makes of a body.

The loop of `SplitUTF8` computes `Filling.cut` over the runes of the text
(`partLength_eq_cut`), so every part fits the wire, whatever bytes the
body holds.

Splitting a body that is valid UTF-8 with prefixes cuts its runes into
pieces, with room by the decimal width of the total. More digits leave
less room, so the number of chunks grows with the total that was asked
for; a body of two megabytes has at most seven digits of chunks, and eight
attempts are enough to settle.
-/
import Callbridge.Lib.Filling
import Callbridge.Message.Split

namespace Callbridge.Message

open Lib Filling

variable {rs : List Char} {text body : Bytes} {maximum : Nat}

-- == the scanning

/-- The inner loop, in closed form: what fits, and the last break in it. -/
theorem fillPart_eq (rs : List Char) {size : Nat} (stop : Nat)
    (boundary : Option Nat) (h : size ≤ maximum) :
    fillPart maximum rs size stop boundary
      = (stop + fits Char.utf8Size (maximum - size) rs,
        if lastBreak isSpace rs
            (fits Char.utf8Size (maximum - size) rs) = 0 then boundary
        else some (stop + lastBreak isSpace rs
          (fits Char.utf8Size (maximum - size) rs))) := by
  induction rs generalizing size stop boundary with
  | nil => simp [fillPart, fits, lastBreak]
  | cons r rs ih =>
    rw [fillPart, fits]
    by_cases hfit : r.utf8Size ≤ maximum - size
    · have hnot : ¬ maximum < size + r.utf8Size := by omega
      have hleft : maximum - (size + r.utf8Size)
          = maximum - size - r.utf8Size := by omega
      rw [if_neg hnot, if_pos hfit, ih (stop + 1) _ (by omega), hleft]
      rw [lastBreak]
      by_cases hbreak : lastBreak isSpace rs
          (fits Char.utf8Size (maximum - size - r.utf8Size) rs) = 0
      · by_cases hspace : isSpace r = true
        · simp [hbreak, hspace]
          omega
        · simp [hbreak, hspace]
          omega
      · simp [hbreak]
        omega
    · have hover : maximum < size + r.utf8Size := by omega
      rw [if_pos hover, if_neg hfit]
      simp [lastBreak]

/-- A part ends where the greedy rule cuts. -/
theorem partLength_eq_cut (hrs : rs ≠ []) :
    partLength maximum rs = cut Char.utf8Size isSpace maximum rs := by
  have hlen := List.length_pos_iff.mpr hrs
  have hall := fits_eq_length_iff Char.utf8Size maximum rs
  have hle := fits_le_length Char.utf8Size maximum rs
  unfold partLength cut
  rw [fillPart_eq rs 0 none (Nat.zero_le _)]
  simp only [Nat.sub_zero, Nat.zero_add]
  by_cases hfit : totalWidth Char.utf8Size rs ≤ maximum
  · rw [hall.mpr hfit, if_pos hfit]
    simp only [Nat.lt_irrefl, if_false]
    split <;> omega
  · have hlt : fits Char.utf8Size maximum rs < rs.length := by
      omega
    rw [if_neg hfit, if_pos hlt]
    by_cases hbreak : lastBreak isSpace rs
        (fits Char.utf8Size maximum rs) = 0
    · rw [if_pos hbreak, if_pos hbreak, Option.getD_none]
      split <;> omega
    · rw [if_neg hbreak, if_neg hbreak, Option.getD_some, if_neg hbreak]

theorem length_encodeRunes_eq (rs : List Char) :
    (encodeRunes rs).length = totalWidth Char.utf8Size rs :=
  length_encodeRunes rs

/-- A piece of runes within its room. -/
theorem length_take_cut (hmax : utfMax ≤ maximum) (rs : List Char) :
    (encodeRunes (rs.take (cut Char.utf8Size isSpace maximum rs))).length
      ≤ maximum := by
  rw [length_encodeRunes_eq]
  apply totalWidth_take_cut
  intro r _
  exact Nat.le_trans r.utf8Size_le_four hmax

-- == SplitUTF8

/-- The loop cuts the runes into pieces that all have the same room. -/
theorem splitRunes_eq_pieces (fuel i : Nat) (rs : List Char) :
    splitRunes maximum fuel rs
      = (pieces Char.utf8Size isSpace (fun _ => maximum) fuel i rs).map
        encodeRunes := by
  induction fuel generalizing i rs with
  | zero => rfl
  | succ fuel ih =>
    cases rs with
    | nil => rfl
    | cons r rs =>
      rw [splitRunes, partLength_eq_cut (List.cons_ne_nil r rs), pieces,
        List.map_cons, ih (i + 1)]

theorem length_splitRunes (hmax : utfMax ≤ maximum) (fuel : Nat)
    (rs : List Char) :
    ∀ part ∈ splitRunes maximum fuel rs, part.length ≤ maximum := by
  rw [splitRunes_eq_pieces fuel 0, List.forall_mem_map]
  apply forall_mem_pieces
  intro _ rs _
  exact length_take_cut hmax rs

/-- No part of a split is longer than was asked for. -/
theorem length_splitUTF8 (hmax : utfMax ≤ maximum) (text : Bytes) :
    ∀ part ∈ splitUTF8 text maximum, part.length ≤ maximum := by
  have hnot : ¬ maximum < utfMax := by omega
  unfold splitUTF8
  simp only [hnot, if_false]
  split
  case isTrue hshort =>
    intro part hpart
    rw [List.mem_singleton] at hpart
    subst hpart
    rcases hshort with hshort | rfl
    · exact hshort
    · simp
  case isFalse => exact length_splitRunes hmax _ _

theorem runes_ne_nil (h : text ≠ []) : runes text ≠ [] := by
  cases text with
  | nil => exact absurd rfl h
  | cons b s =>
    cases hfirst : firstRune (b :: s) with
    | none => simp [runes_cons_none hfirst]
    | some c =>
      obtain ⟨t, ht⟩ := firstRune_eq_some hfirst
      simp [ht, runes_encode_append]

/-- The first part of a split: the text if it is short enough, else the
first piece of its runes. -/
theorem head_splitUTF8 (hmax : utfMax ≤ maximum) (htext : text ≠ []) :
    (splitUTF8 text maximum).headD []
      = if text.length ≤ maximum then text
        else encodeRunes ((runes text).take
          (cut Char.utf8Size isSpace maximum (runes text))) := by
  have hnot : ¬ maximum < utfMax := by omega
  have hrunes := runes_ne_nil htext
  unfold splitUTF8
  simp only [hnot, htext, or_false, if_false]
  split
  · rfl
  · obtain ⟨r, rest, hcons⟩ := List.exists_cons_of_ne_nil hrunes
    rw [hcons, List.length_cons, splitRunes, List.headD_cons,
      partLength_eq_cut (List.cons_ne_nil r rest)]

-- == prefixes

variable {received : Option Received} {total total' index fuel : Nat}

/-- The digits of a number, `places` of them at most. -/
def decimalDigits : Nat → Nat → Nat
  | 0, _ => 0
  | places + 1, v => if v = 0 then 0 else decimalDigits places (v / 10) + 1

theorem length_itoaLoop (places v : Nat) (buffer : Bytes) :
    (itoaLoop places v buffer).length
      = buffer.length + decimalDigits places v := by
  induction places generalizing v buffer with
  | zero => simp [itoaLoop, decimalDigits]
  | succ places ih =>
    unfold itoaLoop decimalDigits
    split
    · simp
    · rw [ih, List.length_cons]
      omega

theorem decimalDigits_mono (places : Nat) {v v' : Nat} (h : v ≤ v') :
    decimalDigits places v ≤ decimalDigits places v' := by
  induction places generalizing v v' with
  | zero => simp [decimalDigits]
  | succ places ih =>
    have hrest := ih (Nat.div_le_div_right (c := 10) h)
    unfold decimalDigits
    split
    · omega
    · split <;> omega

theorem decimalDigits_le (places : Nat) : ∀ {k v : Nat}, v < 10 ^ k →
    decimalDigits places v ≤ k := by
  induction places with
  | zero => simp [decimalDigits]
  | succ places ih =>
    intro k v hv
    unfold decimalDigits
    split
    · omega
    case isFalse hne =>
      cases k with
      | zero => omega
      | succ k =>
        have hrest : v / 10 < 10 ^ k := by
          omega
        have hdigits := ih hrest
        omega

theorem length_itoa_pos (v : Nat) : 0 < (itoa v).length := by
  unfold itoa
  split
  · simp
  case isFalse hne =>
    rw [length_itoaLoop, decimalDigits, if_neg hne]
    omega

theorem length_itoa_mono {v v' : Nat} (h : v ≤ v') :
    (itoa v).length ≤ (itoa v').length := by
  have hpos := length_itoa_pos v'
  have hmono := decimalDigits_mono 20 h
  by_cases hv : v = 0
  · simp only [itoa, hv, if_true, List.length_singleton] at hpos ⊢
    omega
  · have hv' : v' ≠ 0 := by omega
    simp only [itoa, hv, hv', if_false, length_itoaLoop]
    omega

theorem length_itoa_le {k v : Nat} (hk : 0 < k) (hv : v < 10 ^ k) :
    (itoa v).length ≤ k := by
  have hdigits := decimalDigits_le 20 hv
  unfold itoa
  split
  · rw [List.length_singleton]
    omega
  · rw [length_itoaLoop]
    simpa using hdigits

/-- Twenty places are all there are. -/
theorem length_itoa_le_twenty (v : Nat) : (itoa v).length ≤ 20 := by
  have hdigits : ∀ places v, decimalDigits places v ≤ places := by
    intro places
    induction places with
    | zero => simp [decimalDigits]
    | succ places ih =>
      intro v
      have hrest := ih (v / 10)
      unfold decimalDigits
      split <;> omega
  have htwenty := hdigits 20 v
  unfold itoa
  split
  · simp
  · rw [length_itoaLoop]
    simpa using htwenty

theorem length_format (t : Received) : t.format.length = 11 := rfl

/-- The length of a prefix, by the digits in it. -/
theorem length_multipartPrefix (received : Option Received)
    (index total : Nat) :
    (multipartPrefix received index total).length
      = (if 0 < index then 3 + (itoa (index + 1)).length
          else if received.isSome then 23 else 8) + (itoa total).length := by
  unfold multipartPrefix
  by_cases hindex : 0 < index
  · simp [hindex]
    omega
  · cases received with
    | none =>
      simp [hindex]
      omega
    | some t =>
      simp [hindex, length_format, receivedMark]
      omega

/-- The bytes left for the chunk at an index. -/
def chunkRoom (received : Option Received) (total index : Nat) : Nat :=
  maxSIPPartBytes - ((multipartPrefix received index total).length + 1)

theorem length_multipartPrefix_le (received : Option Received)
    (index total : Nat) :
    (multipartPrefix received index total).length ≤ 43 := by
  have hindex := length_itoa_le_twenty (index + 1)
  have htotal := length_itoa_le_twenty total
  rw [length_multipartPrefix]
  split
  · omega
  · split <;> omega

theorem utfMax_le_chunkRoom (received : Option Received)
    (index total : Nat) : utfMax ≤ chunkRoom received total index := by
  have hlen := length_multipartPrefix_le received index total
  unfold chunkRoom maxSIPPartBytes utfMax
  omega

theorem chunkRoom_mono (received : Option Received) (index : Nat)
    (h : (itoa total).length ≤ (itoa total').length) :
    chunkRoom received total' index ≤ chunkRoom received total index := by
  unfold chunkRoom
  rw [length_multipartPrefix, length_multipartPrefix]
  omega

-- == chunks

theorem splitWithPrefixesFrom_of_ne_nil (h : text ≠ []) :
    splitWithPrefixesFrom received total (fuel + 1) index text
      = (splitUTF8 text (chunkRoom received total index)).headD []
        :: splitWithPrefixesFrom received total fuel (index + 1)
          (text.drop ((splitUTF8 text
            (chunkRoom received total index)).headD []).length) := by
  cases text with
  | nil => exact absurd rfl h
  | cons b text => rfl

/-- Every chunk fits behind its prefix. -/
theorem length_chunk_le (fuel index : Nat) (text : Bytes) {j : Nat}
    {chunk : Bytes} (h : (splitWithPrefixesFrom received total fuel index
      text)[j]? = some chunk) :
    chunk.length ≤ chunkRoom received total (index + j) := by
  induction fuel generalizing index text j with
  | zero => simp [splitWithPrefixesFrom] at h
  | succ fuel ih =>
    by_cases htext : text = []
    · subst htext
      simp [splitWithPrefixesFrom] at h
    · rw [splitWithPrefixesFrom_of_ne_nil htext] at h
      cases j with
      | zero =>
        rw [List.getElem?_cons_zero, Option.some.injEq] at h
        have hroom := utfMax_le_chunkRoom received index total
        have hlen := length_take_cut hroom (runes text)
        rw [← h, head_splitUTF8 hroom htext]
        split
        · assumption
        · exact hlen
      | succ j =>
        have hrest := ih _ _ h
        rwa [show index + 1 + j = index + (j + 1) by omega] at hrest

/-- The parts fit the wire if every chunk fits behind its prefix. -/
theorem length_prefixed_le {chunks : List Bytes}
    (h : ∀ j chunk, chunks[j]? = some chunk →
      chunk.length ≤ chunkRoom received chunks.length j) :
    ∀ part ∈ prefixed received chunks, part.length ≤ maxSIPPartBytes := by
  intro part hpart
  obtain ⟨j, hj, rfl⟩ := List.mem_mapIdx.mp hpart
  have hchunk := h j chunks[j] (List.getElem?_eq_getElem hj)
  have hlen := length_multipartPrefix_le received j chunks.length
  unfold chunkRoom maxSIPPartBytes at hchunk
  unfold maxSIPPartBytes
  rw [List.length_append, List.length_append, List.length_singleton]
  omega

theorem searchTotal_some {attempts : Nat} {chunks : List Bytes}
    (h : searchTotal body received attempts total = some chunks) :
    chunks = splitWithPrefixes body received chunks.length := by
  induction attempts generalizing total with
  | zero => cases h
  | succ attempts ih =>
    simp only [searchTotal] at h
    split at h
    case isTrue hfound =>
      rw [Option.some.injEq] at h
      rw [← h, hfound]
    case isFalse => exact ih h

/-- Whatever the bytes of the body, every part fits the wire. -/
theorem length_part_le (body : Bytes) (received : Option Received) :
    ∀ part ∈ visiblePartsAt body received,
      part.length ≤ maxSIPPartBytes := by
  unfold visiblePartsAt
  split
  case isTrue hshort =>
    intro part hpart
    rw [List.mem_singleton] at hpart
    exact hpart ▸ hshort
  case isFalse =>
    split
    case h_1 chunks hsearch =>
      apply length_prefixed_le
      intro j chunk hchunk
      rw [searchTotal_some hsearch] at hchunk
      simpa using length_chunk_le _ 0 body hchunk
    case h_2 =>
      apply length_prefixed_le
      intro j chunk hchunk
      have hmax : utfMax ≤ maxSIPPartBytes - 64 := by
        unfold utfMax maxSIPPartBytes
        omega
      have hlen := length_splitUTF8 hmax body chunk
        (List.mem_of_getElem? hchunk)
      have hprefix := length_multipartPrefix_le received j
        (splitUTF8 body (maxSIPPartBytes - 64)).length
      unfold chunkRoom
      omega

-- == valid text

theorem drop_encodeRunes (rs : List Char) (n : Nat) :
    (encodeRunes rs).drop (encodeRunes (rs.take n)).length
      = encodeRunes (rs.drop n) := by
  have hsplit : encodeRunes rs
      = encodeRunes (rs.take n) ++ encodeRunes (rs.drop n) := by
    rw [← encodeRunes_append, List.take_append_drop]
  rw [hsplit, List.drop_left]

/-- The first chunk of valid text is its first piece. -/
theorem head_splitUTF8_encode (hmax : utfMax ≤ maximum) (hrs : rs ≠ []) :
    (splitUTF8 (encodeRunes rs) maximum).headD []
      = encodeRunes (rs.take (cut Char.utf8Size isSpace maximum rs)) := by
  have htext : encodeRunes rs ≠ [] := fun hnil =>
    hrs (encodeRunes_eq_nil.mp hnil)
  rw [head_splitUTF8 hmax htext, runes_encodeRunes]
  split
  case isTrue hall =>
    rw [length_encodeRunes_eq] at hall
    rw [cut, if_pos hall, List.take_length]
  case isFalse => rfl

/-- Splitting valid text cuts its runes. -/
theorem splitWithPrefixesFrom_encode (rs : List Char) (index : Nat)
    (h : (encodeRunes rs).length ≤ fuel) :
    splitWithPrefixesFrom received total fuel index (encodeRunes rs)
      = (pieces Char.utf8Size isSpace (chunkRoom received total) fuel index
          rs).map encodeRunes := by
  induction fuel generalizing index rs with
  | zero => simp [splitWithPrefixesFrom, pieces]
  | succ fuel ih =>
    by_cases hrs : rs = []
    · subst hrs
      simp [splitWithPrefixesFrom, pieces]
    · have htext : encodeRunes rs ≠ [] := fun hnil =>
        hrs (encodeRunes_eq_nil.mp hnil)
      have hroom := utfMax_le_chunkRoom received index total
      have hpos := cut_pos Char.utf8Size isSpace
        (chunkRoom received total index) hrs
      have htake : encodeRunes (rs.take (cut Char.utf8Size isSpace
          (chunkRoom received total index) rs)) ≠ [] := by
        rw [ne_eq, encodeRunes_eq_nil]
        simp [hrs]
        omega
      have hfuel : (encodeRunes (rs.drop (cut Char.utf8Size isSpace
          (chunkRoom received total index) rs))).length ≤ fuel := by
        have hlen := List.length_pos_iff.mpr htake
        rw [← drop_encodeRunes, List.length_drop]
        omega
      rw [splitWithPrefixesFrom_of_ne_nil htext,
        head_splitUTF8_encode hroom hrs, drop_encodeRunes,
        pieces_of_ne_nil Char.utf8Size isSpace _ fuel index hrs,
        List.map_cons, ih _ _ hfuel]

/-- How many chunks valid text is split into for a total. -/
def chunkCount (rs : List Char) (received : Option Received)
    (total : Nat) : Nat :=
  (splitWithPrefixes (encodeRunes rs) received total).length

theorem splitWithPrefixes_encode (rs : List Char)
    (received : Option Received) (total : Nat) :
    splitWithPrefixes (encodeRunes rs) received total
      = (pieces Char.utf8Size isSpace (chunkRoom received total)
          (encodeRunes rs).length 0 rs).map encodeRunes :=
  splitWithPrefixesFrom_encode rs 0 (Nat.le_refl _)

theorem length_le_length_encodeRunes (rs : List Char) :
    rs.length ≤ (encodeRunes rs).length := by
  induction rs with
  | nil => simp
  | cons r rs ih =>
    have hpos := r.utf8Size_pos
    rw [encodeRunes_cons, List.length_append, List.length_cons,
      String.length_utf8EncodeChar]
    omega

/-- The chunks of valid text are valid, not empty, and make up the text. -/
theorem chunks_of_valid (rs : List Char) (received : Option Received)
    (total : Nat) :
    (splitWithPrefixes (encodeRunes rs) received total).flatten
        = encodeRunes rs
      ∧ ∀ chunk ∈ splitWithPrefixes (encodeRunes rs) received total,
          chunk ≠ [] ∧ ValidUTF8 chunk := by
  rw [splitWithPrefixes_encode]
  constructor
  · rw [← encodeRunes_flatten, flatten_pieces]
    exact length_le_length_encodeRunes rs
  · intro chunk hchunk
    obtain ⟨piece, hpiece, rfl⟩ := List.mem_map.mp hchunk
    constructor
    · rw [ne_eq, encodeRunes_eq_nil]
      exact pieces_ne_nil Char.utf8Size isSpace _ _ _ _ piece hpiece
    · exact validUTF8_encodeRunes piece

-- == the search

theorem chunkCount_eq (rs : List Char) (received : Option Received)
    (total : Nat) :
    chunkCount rs received total
      = (pieces Char.utf8Size isSpace (chunkRoom received total)
          (encodeRunes rs).length 0 rs).length := by
  rw [chunkCount, splitWithPrefixes_encode, List.length_map]

/-- A longer total leaves less room, and takes no fewer chunks. -/
theorem chunkCount_mono (rs : List Char)
    (h : (itoa total).length ≤ (itoa total').length) :
    chunkCount rs received total ≤ chunkCount rs received total' := by
  rw [chunkCount_eq, chunkCount_eq]
  exact length_pieces_le_of_room Char.utf8Size isSpace
    (fun i => chunkRoom_mono received i h) 0 []
    (show ([] ++ rs).length ≤ (encodeRunes rs).length from
      length_le_length_encodeRunes rs)

/-- A body that is too long for one part is too long for the first of
several. -/
theorem chunkRoom_lt (total : Nat) (h : maxSIPPartBytes
      < (singlePrefix received ++ body).length) :
    chunkRoom received total 0 < body.length := by
  have hlen := length_multipartPrefix_le received 0 total
  have hsingle : (singlePrefix received).length
      ≤ (multipartPrefix received 0 total).length := by
    rw [length_multipartPrefix]
    cases received with
    | none => simp [singlePrefix]
    | some t =>
      simp [singlePrefix, length_format, receivedMark]
      omega
  rw [List.length_append] at h
  unfold chunkRoom
  unfold maxSIPPartBytes at h ⊢
  omega

/-- What does not fit one part makes two. -/
theorem two_le_chunkCount (total : Nat) (h : maxSIPPartBytes
      < (singlePrefix received ++ encodeRunes rs).length) :
    2 ≤ chunkCount rs received total := by
  have hlong := chunkRoom_lt total h
  have hflat := (chunks_of_valid rs received total).1
  have hfirst : ∀ chunk,
      (splitWithPrefixes (encodeRunes rs) received total)[0]? = some chunk →
      chunk.length ≤ chunkRoom received total 0 :=
    fun chunk hchunk => length_chunk_le _ 0 _ hchunk
  unfold chunkCount
  generalize splitWithPrefixes (encodeRunes rs) received total = chunks
    at hflat hfirst ⊢
  -- one chunk cannot hold what is longer than its room
  cases chunks with
  | nil =>
    rw [← hflat] at hlong
    simp at hlong
  | cons chunk rest =>
    cases rest with
    | nil =>
      have hroom := hfirst chunk rfl
      rw [← hflat] at hlong
      simp only [List.flatten_cons, List.flatten_nil, List.append_nil]
        at hlong
      omega
    | cons _ _ => simp

/-- The search settles on a number of chunks. -/
theorem searchTotal_eq (rs : List Char) (received : Option Received)
    (attempts total : Nat) :
    searchTotal (encodeRunes rs) received attempts total
      = (settle (chunkCount rs received) attempts total).map
          (splitWithPrefixes (encodeRunes rs) received) := by
  induction attempts generalizing total with
  | zero => rfl
  | succ attempts ih =>
    simp only [searchTotal, settle]
    by_cases hfound : chunkCount rs received total = total
    · rw [if_pos hfound]
      unfold chunkCount at hfound
      rw [if_pos hfound]
      rfl
    · rw [if_neg hfound, ← ih]
      unfold chunkCount at hfound ⊢
      rw [if_neg hfound]

/-- Eight attempts are enough for the chunks of two megabytes, whose
number has seven digits at most. -/
theorem searchTotal_converges (received : Option Received)
    (hbody : (encodeRunes rs).length ≤ 2097152)
    (h : maxSIPPartBytes
      < (singlePrefix received ++ encodeRunes rs).length) :
    (searchTotal (encodeRunes rs) received 8 2).isSome = true := by
  have hsettle : (settle (chunkCount rs received) 8 2).isSome = true := by
    apply settle_isSome (fun t => (itoa t).length) 7
    · exact fun t t' ht => chunkCount_mono rs (length_itoa_mono ht)
    · exact fun t t' ht => length_itoa_mono ht
    · intro t t' hrank
      apply Nat.le_antisymm
      · exact chunkCount_mono rs (Nat.le_of_eq hrank)
      · exact chunkCount_mono rs (Nat.le_of_eq hrank.symm)
    · intro t
      have hcount : chunkCount rs received t ≤ rs.length := by
        rw [chunkCount_eq]
        exact length_pieces_le Char.utf8Size isSpace _ _ _ _
      have hlen := length_le_length_encodeRunes rs
      exact length_itoa_le (by omega) (by omega)
    · exact two_le_chunkCount 2 h
    · show 7 + 2 ≤ 8 + 1
      omega
  rw [searchTotal_eq, Option.isSome_map]
  exact hsettle

-- == the theorem

/-- Every part of a body of at most two megabytes fits the wire. A body
of valid UTF-8 is one part, or several: prefixed chunks with their true
number, valid and not empty, that make up the body; and then the search
for that number converges. -/
theorem visibleParts_fit_and_rebuild (parsers : TimeParsers)
    (body mapDateTime : Bytes) (hbody : body.length ≤ 2097152) :
    (∀ part ∈ visibleParts parsers body mapDateTime, part.length ≤ 600)
      ∧ (ValidUTF8 body →
        let received := receivedTime parsers mapDateTime
        (visibleParts parsers body mapDateTime
            = [singlePrefix received ++ body]
          ∨ ∃ chunks : List Bytes, 2 ≤ chunks.length
            ∧ visibleParts parsers body mapDateTime
              = chunks.mapIdx (fun index chunk =>
                  multipartPrefix received index chunks.length
                    ++ [0x0a] ++ chunk)
            ∧ chunks.flatten = body
            ∧ ∀ chunk ∈ chunks, chunk ≠ [] ∧ ValidUTF8 chunk)
        ∧ (600 < (singlePrefix received ++ body).length →
          (searchTotal body received 8 2).isSome = true)) := by
  constructor
  · exact length_part_le body _
  · intro hvalid received
    have htext : body = encodeRunes (runes body) := hvalid.symm
    generalize runes body = rs at htext
    subst htext
    have hsearch := searchTotal_converges received hbody
    refine ⟨?_, hsearch⟩
    unfold visibleParts visiblePartsAt
    by_cases hshort : (singlePrefix received ++ encodeRunes rs).length
        ≤ maxSIPPartBytes
    · rw [if_pos hshort]
      exact Or.inl rfl
    · have hlong : maxSIPPartBytes
          < (singlePrefix received ++ encodeRunes rs).length := by omega
      rw [if_neg hshort]
      right
      obtain ⟨chunks, hchunks⟩ := Option.isSome_iff_exists.mp (hsearch hlong)
      have heq := searchTotal_some hchunks
      obtain ⟨hflat, hvalid⟩ := chunks_of_valid rs received chunks.length
      have htwo := two_le_chunkCount chunks.length hlong
      unfold chunkCount at htwo
      rw [← heq] at hflat hvalid htwo
      rw [hchunks]
      exact ⟨chunks, htwo, rfl, hflat, hvalid⟩

/-- Seven hundred letters are several parts. -/
theorem visibleParts_fit_and_rebuild_letters :
    ∃ chunks : List Bytes, 2 ≤ chunks.length
      ∧ visibleParts ⟨fun _ => none, fun _ => none⟩
          (List.replicate 700 0x61) []
        = chunks.mapIdx (fun index chunk =>
            multipartPrefix none index chunks.length ++ [0x0a] ++ chunk)
      ∧ chunks.flatten = List.replicate 700 0x61 := by
  obtain ⟨hfit, hparts⟩ := visibleParts_fit_and_rebuild
    ⟨fun _ => none, fun _ => none⟩ (List.replicate 700 0x61) [] (by
      rw [List.length_replicate]
      omega)
  have hvalid : ValidUTF8 (List.replicate 700 0x61) := by
    apply validUTF8_of_ascii
    intro b hb
    rw [List.eq_of_mem_replicate hb]
    decide
  obtain ⟨hsingle | ⟨chunks, htwo, heq, hflat, -⟩, -⟩ := hparts hvalid
  · have hlong := hfit (List.replicate 700 0x61) (by
      rw [hsingle]
      exact List.mem_singleton_self _)
    rw [List.length_replicate] at hlong
    omega
  · exact ⟨chunks, htwo, heq, hflat⟩

-- Of bytes that are no UTF-8 the search need not settle: asked for nine
-- parts it finds ten here, and asked for ten it finds nine.
example : searchTotal ((List.replicate 17 (List.replicate 204 0xff
    ++ [0x20])).flatten.take 3388) none 8 2 = none := by
  decide +kernel

end Callbridge.Message
