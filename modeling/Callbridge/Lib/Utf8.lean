/-
Byte strings read as UTF-8 the way Go reads them: a byte that starts no
well-formed encoding is one rune of its own, the replacement character. So
every byte string has runes, and turning them back into a string changes
exactly those that are not valid UTF-8.

Which bytes encode which character is the library's
`ByteArray.utf8DecodeChar?`, which refuses overlong forms, surrogates and
what lies past the last character, as Go does.
-/
import Mathlib.Algebra.GroupWithZero.Nat
import Callbridge.Lib.Strings

namespace Callbridge.Lib

variable {s t : Bytes} {c : Char} {b : UInt8}

/-- `utf8.RuneError`. -/
def runeError : Char := '\uFFFD'

/-- The character whose encoding the string starts with. -/
def firstRune (s : Bytes) : Option Char :=
  (s.take 4).toByteArray.utf8DecodeChar? 0

/-- The runes of a string of which the first `skip` bytes still belong to
the rune before. -/
def runesFrom : Nat → Bytes → List Char
  | _, [] => []
  | skip + 1, _ :: s => runesFrom skip s
  | 0, b :: s =>
      match firstRune (b :: s) with
      | some c => c :: runesFrom (c.utf8Size - 1) s
      | none => runeError :: runesFrom 0 s

/-- `[]rune(s)`. -/
def runes (s : Bytes) : List Char := runesFrom 0 s

/-- `string(rs)`. -/
def encodeRunes (rs : List Char) : Bytes := rs.flatMap String.utf8EncodeChar

/-- The string with the replacement character in place of every byte that
is not part of a well-formed encoding. -/
def toValidUTF8 (s : Bytes) : Bytes := encodeRunes (runes s)

/-- `utf8.ValidString`. -/
def ValidUTF8 (s : Bytes) : Prop := toValidUTF8 s = s

instance : DecidablePred ValidUTF8 := fun s =>
  inferInstanceAs (Decidable (toValidUTF8 s = s))

-- == encoding

@[simp] theorem encodeRunes_nil : encodeRunes [] = [] := rfl

@[simp] theorem encodeRunes_cons (c : Char) (cs : List Char) :
    encodeRunes (c :: cs) = String.utf8EncodeChar c ++ encodeRunes cs := by
  simp [encodeRunes]

@[simp] theorem encodeRunes_append (cs ds : List Char) :
    encodeRunes (cs ++ ds) = encodeRunes cs ++ encodeRunes ds := by
  simp [encodeRunes]

theorem length_encodeRunes (cs : List Char) :
    (encodeRunes cs).length = (cs.map Char.utf8Size).sum := by
  induction cs with
  | nil => rfl
  | cons c cs ih => simp [ih]

theorem encodeRunes_eq_nil {cs : List Char} :
    encodeRunes cs = [] ↔ cs = [] := by
  cases cs with
  | nil | cons c cs => simp

theorem encodeRunes_flatten (parts : List (List Char)) :
    encodeRunes parts.flatten = (parts.map encodeRunes).flatten := by
  induction parts with
  | nil => rfl
  | cons p parts ih => simp [ih]

-- == decoding

/-- The four bytes `firstRune` looks at hold any one encoding. -/
theorem firstRune_encode (c : Char) (s : Bytes) :
    firstRune (String.utf8EncodeChar c ++ s) = some c := by
  have hlen : (String.utf8EncodeChar c).length ≤ 4 := by
    simpa using c.utf8Size_le_four
  have htake : (String.utf8EncodeChar c ++ s).take 4
      = String.utf8EncodeChar c
        ++ s.take (4 - (String.utf8EncodeChar c).length) := by
    rw [List.take_append, List.take_of_length_le hlen]
  unfold firstRune
  rw [htake, List.toByteArray_append, ← List.utf8Encode_singleton]
  exact List.utf8DecodeChar?_utf8Encode_singleton_append

/-- The first character is what the bytes start with. -/
theorem firstRune_eq_some (h : firstRune s = some c) :
    ∃ t, s = String.utf8EncodeChar c ++ t := by
  obtain ⟨l, hl⟩ := ByteArray.exists_of_utf8DecodeChar?_eq_some h
  have hlist : s.take 4 = String.utf8EncodeChar c ++ l.data.toList := by
    have hdata := congrArg (fun b : ByteArray => b.data.toList) hl
    simpa [ByteArray.toList_data_append] using hdata
  refine ⟨l.data.toList ++ s.drop 4, ?_⟩
  rw [← List.append_assoc, ← hlist, List.take_append_drop]

theorem runesFrom_eq_drop (skip : Nat) (s : Bytes) :
    runesFrom skip s = runes (s.drop skip) := by
  induction skip generalizing s with
  | zero => rfl
  | succ skip ih =>
    cases s with
    | nil => rfl
    | cons b s => exact ih s

@[simp] theorem runes_nil : runes [] = [] := rfl

/-- An encoding in front is one rune in front. -/
theorem runes_encode_append (c : Char) (s : Bytes) :
    runes (String.utf8EncodeChar c ++ s) = c :: runes s := by
  have hfirst := firstRune_encode c s
  have hlen : (String.utf8EncodeChar c).length = c.utf8Size := by simp
  cases henc : String.utf8EncodeChar c with
  | nil => exact absurd henc String.utf8EncodeChar_ne_nil
  | cons b t =>
    rw [henc] at hfirst hlen
    have hskip : c.utf8Size - 1 = t.length := by
      simp at hlen
      omega
    rw [List.cons_append] at hfirst ⊢
    unfold runes
    rw [runesFrom, hfirst]
    simp only [List.cons.injEq, true_and]
    rw [runesFrom_eq_drop, hskip, List.drop_left]
    rfl

/-- A byte that starts no encoding is a rune of its own. -/
theorem runes_cons_none (h : firstRune (b :: s) = none) :
    runes (b :: s) = runeError :: runes s := by
  unfold runes
  rw [runesFrom, h]

theorem runes_encodeRunes_append (cs : List Char) (s : Bytes) :
    runes (encodeRunes cs ++ s) = cs ++ runes s := by
  induction cs with
  | nil => rfl
  | cons c cs ih =>
    rw [encodeRunes_cons, List.append_assoc, runes_encode_append, ih]
    rfl

theorem runes_encodeRunes (cs : List Char) : runes (encodeRunes cs) = cs := by
  simpa using runes_encodeRunes_append cs []

theorem toValidUTF8_encodeRunes (cs : List Char) :
    toValidUTF8 (encodeRunes cs) = encodeRunes cs := by
  unfold toValidUTF8
  rw [runes_encodeRunes]

theorem validUTF8_encodeRunes (cs : List Char) : ValidUTF8 (encodeRunes cs) :=
  toValidUTF8_encodeRunes cs

theorem validUTF8_toValidUTF8 (s : Bytes) : ValidUTF8 (toValidUTF8 s) :=
  validUTF8_encodeRunes (runes s)

theorem ValidUTF8.append (hs : ValidUTF8 s) (ht : ValidUTF8 t) :
    ValidUTF8 (s ++ t) := by
  rw [← hs, ← ht]
  unfold toValidUTF8
  rw [← encodeRunes_append]
  exact validUTF8_encodeRunes _

/-- Runes that take no more bytes than a valid text in front are the first
of that text. -/
theorem ValidUTF8.exists_take {n : Nat} (hs : ValidUTF8 s)
    (h : (encodeRunes ((runes (s ++ t)).take n)).length ≤ s.length) :
    ∃ u, s = encodeRunes ((runes (s ++ t)).take n) ++ u ∧ ValidUTF8 u := by
  obtain ⟨cs, rfl⟩ : ∃ cs, s = encodeRunes cs := ⟨runes s, hs.symm⟩
  rw [runes_encodeRunes_append, List.take_append] at h ⊢
  by_cases hn : n ≤ cs.length
  · rw [Nat.sub_eq_zero_of_le hn, List.take_zero, List.append_nil]
    refine ⟨encodeRunes (cs.drop n), ?_, validUTF8_encodeRunes _⟩
    rw [← encodeRunes_append, List.take_append_drop]
  · -- a rune of what follows would need a byte that there is no room for
    rw [List.take_of_length_le (by omega), encodeRunes_append] at h ⊢
    rw [List.length_append] at h
    have hmore : encodeRunes ((runes t).take (n - cs.length)) = [] :=
      List.eq_nil_of_length_eq_zero (by omega)
    exact ⟨[], by rw [hmore, List.append_nil, List.append_nil], rfl⟩

/-- Induction along the runes of a string: it is empty, or an encoding
stands in front, or a byte that starts none. -/
theorem runes_induction {P : Bytes → Prop} (hnil : P [])
    (hencode : ∀ c t, P t → P (String.utf8EncodeChar c ++ t))
    (hbad : ∀ b t, firstRune (b :: t) = none → P t → P (b :: t))
    (s : Bytes) : P s := by
  induction hn : s.length using Nat.strongRecOn generalizing s with
  | _ n ih =>
    cases s with
    | nil => exact hnil
    | cons b t =>
      cases hfirst : firstRune (b :: t) with
      | none => exact hbad b t hfirst (ih t.length (by simp [← hn]) t rfl)
      | some c =>
        obtain ⟨rest, hrest⟩ := firstRune_eq_some hfirst
        have hlen := congrArg List.length hrest
        have hpos := c.utf8Size_pos
        rw [List.length_append, String.length_utf8EncodeChar] at hlen
        rw [hrest]
        exact hencode c rest (ih rest.length (by omega) rest rfl)

theorem length_runes_le (s : Bytes) : (runes s).length ≤ s.length := by
  induction s using runes_induction with
  | hnil => exact Nat.le_refl _
  | hencode c t ih =>
    have hpos := c.utf8Size_pos
    rw [runes_encode_append, List.length_cons, List.length_append,
      String.length_utf8EncodeChar]
    omega
  | hbad b t hnone ih =>
    rw [runes_cons_none hnone, List.length_cons, List.length_cons]
    omega

theorem utf8EncodeChar_ofUInt8 (h : b < 0x80) :
    String.utf8EncodeChar (Char.ofUInt8 b) = [b] := by
  have hval : (Char.ofUInt8 b).val = b.toUInt32 := rfl
  have hsize : (Char.ofUInt8 b).utf8Size = 1 := by
    rw [Char.utf8Size_eq_one_iff, hval, UInt32.le_iff_toNat_le]
    have hlt : b.toNat < 128 := h
    simp
    omega
  rw [String.utf8EncodeChar_eq_singleton hsize, hval]
  simp

/-- A byte that starts an encoding is found in one at its start only. -/
theorem encode_firstByte (hb : b.IsUTF8FirstByte)
    (h : String.utf8EncodeChar c = s ++ b :: t) :
    s = [] := by
  have hi : s.length < (String.utf8EncodeChar c).length := by
    rw [h, List.length_append, List.length_cons]
    omega
  have hget : (String.utf8EncodeChar c).get ⟨s.length, hi⟩ = b := by
    simp [h]
  have hfirst : ((String.utf8EncodeChar c).get
      ⟨s.length, hi⟩).IsUTF8FirstByte := by
    rw [hget]
    exact hb
  have hzero := UInt8.isUTF8FirstByte_getElem_utf8EncodeChar.mp hfirst
  exact List.length_eq_zero_iff.mp hzero

/-- An ASCII character is found in an encoding at its start only. -/
theorem encode_ascii (hb : b < 0x80)
    (h : String.utf8EncodeChar c = s ++ b :: t) : s = [] := by
  have hall : ∀ n : Fin 128, UInt8.ofNat n.val &&& 0x80 = 0 := by decide
  have hbit : b &&& 0x80 = 0 := by
    have hb' := hall ⟨b.toNat, hb⟩
    rwa [UInt8.ofNat_toNat] at hb'
  exact encode_firstByte (Or.inl hbit) h

/-- No encoding ends in another one. -/
theorem encode_suffix {d : Char}
    (h : String.utf8EncodeChar c = s ++ String.utf8EncodeChar d) :
    s = [] := by
  cases hd : String.utf8EncodeChar d with
  | nil => exact absurd hd String.utf8EncodeChar_ne_nil
  | cons b t =>
    have hfirst : ((String.utf8EncodeChar d).get
        ⟨0, by simp [hd]⟩).IsUTF8FirstByte :=
      UInt8.isUTF8FirstByte_getElem_utf8EncodeChar.mpr rfl
    have hget : (String.utf8EncodeChar d).get ⟨0, by simp [hd]⟩ = b := by
      simp [hd]
    rw [hget] at hfirst
    rw [hd] at h
    exact encode_firstByte hfirst h

/-- A byte that starts no encoding starts none with an ASCII character
and anything else behind the string. -/
theorem firstRune_append_ascii {x : UInt8} (hb : b < 0x80) (t : Bytes)
    (h : firstRune (x :: s) = none) :
    firstRune (x :: (s ++ b :: t)) = none := by
  cases hfirst : firstRune (x :: (s ++ b :: t)) with
  | none => rfl
  | some c =>
    obtain ⟨rest, hrest⟩ := firstRune_eq_some hfirst
    rw [← List.cons_append] at hrest
    rcases List.append_eq_append_iff.mp hrest with
      ⟨more, henc, hmore⟩ | ⟨more, hstart, -⟩
    · -- the encoding would reach past the string
      cases more with
      | nil =>
        rw [List.append_nil] at henc
        rw [← henc, ← List.append_nil (String.utf8EncodeChar c),
          firstRune_encode] at h
        cases h
      | cons y more =>
        rw [List.cons_append, List.cons.injEq] at hmore
        rw [← hmore.1] at henc
        cases encode_ascii hb henc
    · rw [hstart, firstRune_encode] at h
      cases h

/-- An ASCII character is a rune of its own wherever it stands. -/
theorem runes_append_ascii (hb : b < 0x80) (s t : Bytes) :
    runes (s ++ b :: t) = runes s ++ Char.ofUInt8 b :: runes t := by
  induction s using runes_induction with
  | hnil =>
    have h := runes_encode_append (Char.ofUInt8 b) t
    rw [utf8EncodeChar_ofUInt8 hb] at h
    exact h
  | hencode c s ih =>
    rw [List.append_assoc, runes_encode_append, ih, runes_encode_append,
      List.cons_append]
  | hbad x s hnone ih =>
    rw [List.cons_append, runes_cons_none (firstRune_append_ascii hb t hnone),
      runes_cons_none hnone, ih, List.cons_append]

theorem toValidUTF8_append_ascii (hb : b < 0x80) (s t : Bytes) :
    toValidUTF8 (s ++ b :: t)
      = toValidUTF8 s ++ b :: toValidUTF8 t := by
  unfold toValidUTF8
  rw [runes_append_ascii hb, encodeRunes_append, encodeRunes_cons,
    utf8EncodeChar_ofUInt8 hb]
  rfl

/-- Joining at an ASCII character commutes with making valid. -/
theorem toValidUTF8_intercalate (hb : b < 0x80) (parts : List Bytes) :
    [b].intercalate (parts.map toValidUTF8)
      = toValidUTF8 ([b].intercalate parts) := by
  induction parts with
  | nil => rfl
  | cons part rest ih =>
    cases rest with
    | nil => simp [List.intercalate]
    | cons next rest =>
      rw [List.map_cons] at ih
      rw [List.map_cons, List.map_cons, List.intercalate_cons_cons,
        List.intercalate_cons_cons, ih, List.append_assoc,
        List.append_assoc, List.singleton_append, List.singleton_append,
        toValidUTF8_append_ascii hb]

theorem ValidUTF8.intercalate (hb : b < 0x80) {parts : List Bytes}
    (h : ∀ part ∈ parts, ValidUTF8 part) :
    ValidUTF8 ([b].intercalate parts) := by
  have hmap : parts.map toValidUTF8 = parts :=
    (List.map_congr_left (g := id) h).trans (List.map_id parts)
  have hjoin := toValidUTF8_intercalate hb parts
  rw [hmap] at hjoin
  exact hjoin.symm

/-- ASCII text is valid. -/
theorem validUTF8_of_ascii (h : ∀ b ∈ s, b < 0x80) :
    ValidUTF8 s := by
  have hs : s = encodeRunes (s.map Char.ofUInt8) := by
    induction s with
    | nil => rfl
    | cons b s ih =>
      rw [List.map_cons, encodeRunes_cons,
        utf8EncodeChar_ofUInt8 (h b List.mem_cons_self),
        ← ih fun c hc => h c (List.mem_cons_of_mem _ hc)]
      rfl
  rw [hs]
  exact validUTF8_encodeRunes _

-- == trimming

/-- What follows a first character is valid with it. -/
theorem ValidUTF8.of_encode_append
    (h : ValidUTF8 (String.utf8EncodeChar c ++ t)) : ValidUTF8 t := by
  unfold ValidUTF8 toValidUTF8 at h
  rw [runes_encode_append, encodeRunes_cons] at h
  exact List.append_cancel_left h

/-- What precedes a last character is valid with it. -/
theorem ValidUTF8.of_append_encode
    (h : ValidUTF8 (t ++ String.utf8EncodeChar c)) : ValidUTF8 t := by
  unfold ValidUTF8 toValidUTF8 at h
  rcases List.eq_nil_or_concat (runes (t ++ String.utf8EncodeChar c))
    with hnil | ⟨cs, d, hcs⟩
  · rw [hnil, encodeRunes_nil] at h
    have hlast := (List.append_eq_nil_iff.mp h.symm).2
    exact absurd hlast String.utf8EncodeChar_ne_nil
  · rw [hcs, List.concat_eq_append, encodeRunes_append, encodeRunes_cons,
      encodeRunes_nil, List.append_nil] at h
    -- the two last characters end at the same byte, so they are the same
    rcases List.append_eq_append_iff.mp h with ⟨a, rfl, hd⟩ | ⟨a, hcs', hc⟩
    · rw [encode_suffix hd, List.append_nil]
      exact validUTF8_encodeRunes cs
    · rw [encode_suffix hc, List.append_nil] at hcs'
      rw [← hcs']
      exact validUTF8_encodeRunes cs

/-- The characters `trimSpace` trims. -/
def spaces : List Char :=
  ['\t', '\n', '\u000b', '\u000c', '\r', ' ', '\u0085', '\u00a0', '\u1680',
   '\u2000', '\u2001', '\u2002', '\u2003', '\u2004', '\u2005', '\u2006',
   '\u2007', '\u2008', '\u2009', '\u200a', '\u2028', '\u2029', '\u202f',
   '\u205f', '\u3000']

theorem spaceEncodings_eq :
    spaceEncodings = spaces.map String.utf8EncodeChar := by decide

/-- Trimming keeps a text valid. -/
theorem ValidUTF8.trimSpace (h : ValidUTF8 s) :
    ValidUTF8 (trimSpace s) := by
  have hfront : ∀ fuel, ValidUTF8 (stripFront spaceEncodings fuel s) := by
    intro fuel
    refine stripFront_keeps ?_ fuel h
    intro e he t ht
    rw [spaceEncodings_eq] at he
    obtain ⟨c, -, rfl⟩ := List.mem_map.mp he
    exact ht.of_encode_append
  -- from the back the same is said of what the reversed bytes spell
  have hback : ∀ fuel r, ValidUTF8 (List.reverse r) →
      ValidUTF8
        (stripFront (spaceEncodings.map List.reverse) fuel r).reverse := by
    intro fuel r hr
    refine stripFront_keeps (P := fun r => ValidUTF8 r.reverse) ?_ fuel hr
    intro e he t ht
    rw [spaceEncodings_eq, List.map_map] at he
    obtain ⟨c, -, rfl⟩ := List.mem_map.mp he
    rw [List.reverse_append, Function.comp_apply, List.reverse_reverse] at ht
    exact ht.of_append_encode
  apply hback
  rw [List.reverse_reverse]
  exact hfront s.length

end Callbridge.Lib
