/-
Building headers and parsing them undo each other.

`headerAt` finds a header between two offsets exactly where `BuildHeader`
makes the bytes between them of that header (`headerAt_eq_ok`); the
declared length counts the identifier the loop has already passed. The
payload is then an induction on the turns of the loop.
-/
import Mathlib.Data.List.Forall2
import Callbridge.Lib.Guards
import Callbridge.Obex.Packet

namespace Callbridge.Obex

open Lib

variable {id : UInt8} {value enc : Bytes} {headers : List Header}

-- == one header alone

/-- The bytes are what `BuildHeader` makes of the header. -/
def Encodes (header : Header) (enc : Bytes) : Prop :=
  buildHeader header.id header.value = .ok enc

theorem buildHeader_length (h : lengthKind id)
    (hfit : value.length + 3 ≤ 0xffff) :
    buildHeader id value
      = .ok (id :: bePutUint16 (UInt16.ofNat (value.length + 3))
          ++ value) := by
  rw [buildHeader, if_pos h, if_neg (by omega)]

theorem toNat_lengthField {n : Nat} (h : n ≤ 0xffff) :
    (UInt16.ofNat n).toNat = n := by
  rw [UInt16.toNat_ofNat']
  omega

theorem Encodes.ne_nil (h : Encodes header enc) : enc ≠ [] := by
  unfold Encodes buildHeader at h
  split at h
  · split at h
    · cases h
    · cases h
      simp
  · split at h
    · split at h
      · cases h
      · cases h
        simp
    · split at h
      · cases h
      · cases h
        simp

-- == MustHeader

theorem mustHeader_eq_some :
    mustHeader id value = some enc ↔ Encodes ⟨id, value⟩ enc := by
  unfold mustHeader Encodes
  cases buildHeader id value with
  | error e | ok result => simp

theorem mustHeader_length (h : lengthKind id)
    (hfit : value.length + 3 ≤ 0xffff) :
    mustHeader id value
      = some (id :: bePutUint16 (UInt16.ofNat (value.length + 3))
          ++ value) :=
  mustHeader_eq_some.mpr (buildHeader_length h hfit)

/-- The panic of `MustHeader`: the length does not fit its two bytes. -/
theorem mustHeader_eq_none (h : lengthKind id) :
    mustHeader id value = none ↔ 0xffff < value.length + 3 := by
  by_cases hfit : value.length + 3 ≤ 0xffff
  · rw [mustHeader_length h hfit]
    simp only [reduceCtorEq, false_iff]
    omega
  · rw [mustHeader, buildHeader, if_pos h, if_pos (by omega)]
    simp only [true_iff]
    omega

/-- A header of four bytes always gets built. -/
theorem uint32Header_eq (hlen : ¬ lengthKind id) (hbyte : ¬ byteKind id)
    (value : UInt32) :
    uint32Header id value = some (id :: bePutUint32 value) := by
  rw [uint32Header, mustHeader, buildHeader, if_neg hlen, if_neg hbyte,
    if_neg (by simp)]

-- == one loop's turn

variable {data : Bytes} {offset next : Nat} {header : Header}

/-- A header that was found is what the bytes up to the next offset
encode. -/
theorem encodes_of_headerAt (hin : offset < data.length)
    (h : headerAt data offset = .ok (header, next)) :
    Encodes header (slice data offset next)
      ∧ offset < next ∧ next ≤ data.length := by
  simp only [headerAt] at h
  split at h
  case isTrue hkind =>
    split at h
    · cases h
    split at h
    · cases h
    case isFalse hshort hlen =>
      obtain ⟨rfl, rfl⟩ := Prod.mk.inj (Except.ok.inj h)
      generalize hfield : slice data (offset + 1) (offset + 1 + 2) = field
        at hlen
      have hsize : field.length = 2 := by
        rw [← hfield, slice_length (by omega)]
        omega
      have hval := slice_length (p := data) (i := offset + 1 + 2)
        (j := offset + 1 + (beUint16 field).toNat - 1) (by omega)
      have hback : UInt16.ofNat (beUint16 field).toNat = beUint16 field :=
        UInt16.ofNat_toNat
      refine ⟨?_, by omega, by omega⟩
      simp only [Encodes]
      have hlt := (beUint16 field).toNat_lt
      -- the length field counts the identifier and itself
      have htotal : (slice data (offset + 1 + 2)
          (offset + 1 + (beUint16 field).toNat - 1)).length + 3
            = (beUint16 field).toNat := by
        omega
      rw [buildHeader_length hkind (by omega), htotal, hback,
        put_beUint16 hsize,
        slice_cons (i := offset) (by omega) hin,
        slice_split data (i := offset + 1) (j := offset + 1 + 2)
          (by omega) (by omega), hfield]
      rfl
  case isFalse hkind =>
    split at h
    case isTrue hbyte =>
      split at h
      · cases h
      case isFalse hshort =>
        obtain ⟨rfl, rfl⟩ := Prod.mk.inj (Except.ok.inj h)
        refine ⟨?_, by omega, by omega⟩
        unfold Encodes buildHeader
        rw [if_neg hkind, if_pos hbyte, if_neg (by simp),
          slice_cons (by omega) hin, slice_cons (by omega) (by omega),
          slice_self]
        rfl
    case isFalse hbyte =>
      split at h
      · cases h
      case isFalse hshort =>
        obtain ⟨rfl, rfl⟩ := Prod.mk.inj (Except.ok.inj h)
        have hfour := slice_length (p := data) (i := offset + 1)
          (j := offset + 1 + 4) (by omega)
        refine ⟨?_, by omega, by omega⟩
        simp only [Encodes, buildHeader]
        rw [if_neg hkind, if_neg hbyte, if_neg (by omega),
          slice_cons (by omega) hin]

/-- And a header's encoding is found again. -/
theorem headerAt_of_encodes (hnext : next ≤ data.length)
    (h : Encodes header (slice data offset next)) :
    headerAt data offset = .ok (header, next) := by
  obtain ⟨id, value⟩ := header
  have hne := h.ne_nil
  have hoff : offset < next := by
    by_contra hle
    rw [slice, show next - offset = 0 from by omega] at hne
    exact hne rfl
  have hsize := slice_length (p := data) (i := offset) hnext
  rw [slice_cons hoff (by omega)] at h hsize
  rw [List.length_cons] at hsize
  simp only [Encodes, buildHeader] at h
  split at h
  case isTrue hkind =>
    split at h
    · cases h
    case isFalse hfit =>
      rw [List.cons_append, Except.ok.injEq, List.cons.injEq] at h
      obtain ⟨rfl, htail⟩ := h
      have hlen := congrArg List.length htail
      rw [List.length_append, bePutUint16_length] at hlen
      -- cut the tail after the two bytes of the length
      have hcut := slice_split data (i := offset + 1)
        (j := offset + 1 + 2) (k := next) (by omega) (by omega)
      have htwo := slice_length (p := data) (i := offset + 1)
        (j := offset + 1 + 2) (by omega)
      rw [hcut] at htail
      obtain ⟨hfield, hvalue⟩ := List.append_inj htail
        (by rw [bePutUint16_length]; omega)
      have hread : (beUint16 (slice data (offset + 1)
          (offset + 1 + 2))).toNat = value.length + 3 := by
        rw [← hfield, beUint16_put, toNat_lengthField (by omega)]
      have hend : offset + 1 + (value.length + 3) - 1 = next := by omega
      simp only [headerAt]
      rw [if_pos hkind, if_neg (by omega), hread, if_neg (by omega), hend,
        ← hvalue]
  case isFalse hkind =>
    split at h
    case isTrue hbyte =>
      split at h
      · cases h
      case isFalse hone =>
        rw [Except.ok.injEq, List.cons.injEq] at h
        obtain ⟨rfl, htail⟩ := h
        have hlen := congrArg List.length htail
        have hend : next = offset + 1 + 1 := by
          simp only [List.length_singleton] at hlen
          omega
        -- a one-byte header: the value is the last byte
        obtain ⟨b, rfl⟩ := List.length_eq_one_iff.mp (not_not.mp hone)
        subst hend
        rw [slice_cons (by omega) (by omega), slice_self] at htail
        simp only [headerAt]
        rw [if_neg hkind, if_pos hbyte, if_neg (by omega), ← htail]
        rfl
    case isFalse hbyte =>
      split at h
      · cases h
      case isFalse hfour =>
        obtain ⟨rfl, rfl⟩ := h
        have hend : next = offset + 1 + 4 := by omega
        subst hend
        simp only [headerAt]
        rw [if_neg hkind, if_neg hbyte, if_neg (by omega)]

theorem headerAt_eq_ok (hin : offset < data.length) :
    headerAt data offset = .ok (header, next)
      ↔ Encodes header (slice data offset next)
        ∧ offset < next ∧ next ≤ data.length := by
  constructor
  · exact encodes_of_headerAt hin
  · rintro ⟨henc, -, hnext⟩
    exact headerAt_of_encodes hnext henc

-- == the whole loop

theorem slice_drop (p : Bytes) {i j : Nat} (hij : i ≤ j) :
    slice p i j ++ p.drop j = p.drop i := by
  have hj : j = i + (j - i) := by omega
  rw [slice, hj, Nat.add_sub_cancel_left, ← List.drop_drop,
    List.take_append_drop]

/-- What is left of the payload, as a sequence of headers. -/
def EncodesAll (headers : List Header) (data : Bytes) : Prop :=
  ∃ encs, List.Forall₂ Encodes headers encs ∧ encs.flatten = data

theorem encodesAll_nil {data : Bytes} : EncodesAll [] data ↔ data = [] := by
  constructor
  · rintro ⟨encs, hall, rfl⟩
    cases hall
    rfl
  · rintro rfl
    exact ⟨[], List.Forall₂.nil, rfl⟩

/-- A header, then the others. -/
theorem encodesAll_cons {data : Bytes} : EncodesAll (header :: headers) data
      ↔ ∃ enc rest, Encodes header enc ∧ EncodesAll headers rest
        ∧ enc ++ rest = data := by
  constructor
  · rintro ⟨encs, hall, rfl⟩
    cases hall with
    | cons henc hrest =>
      exact ⟨_, _, henc, ⟨_, hrest, rfl⟩, rfl⟩
  · rintro ⟨enc, rest, henc, ⟨encs, hall, rfl⟩, rfl⟩
    exact ⟨enc :: encs, List.Forall₂.cons henc hall, rfl⟩

theorem encodesAll_singleton (h : Encodes header enc) :
    EncodesAll [header] enc :=
  ⟨[enc], List.Forall₂.cons h List.Forall₂.nil, by simp⟩

theorem EncodesAll.append {hs ks : List Header} {a b : Bytes}
    (hhs : EncodesAll hs a) (hks : EncodesAll ks b) :
    EncodesAll (hs ++ ks) (a ++ b) := by
  induction hs generalizing a with
  | nil =>
    rw [encodesAll_nil.mp hhs]
    exact hks
  | cons header hs ih =>
    obtain ⟨enc, rest, henc, hrest, rfl⟩ := encodesAll_cons.mp hhs
    rw [List.append_assoc]
    exact encodesAll_cons.mpr ⟨enc, _, henc, ih hrest, rfl⟩

theorem parseHeadersFrom_done {fuel : Nat} (h : data.length ≤ offset) :
    parseHeadersFrom data fuel offset = .ok [] := by
  cases fuel with
  | zero => rfl
  | succ fuel => rw [parseHeadersFrom, if_pos h]

/-- Of a payload that has been read to its end no header is left. -/
theorem encodesAll_of_done (h : data.length ≤ offset) :
    (.ok [] : Except ObexError (List Header)) = .ok headers
      ↔ EncodesAll headers (data.drop offset) := by
  rw [List.drop_eq_nil_of_le h, Except.ok.injEq]
  constructor
  · rintro rfl
    exact encodesAll_nil.mpr rfl
  · intro hall
    cases headers with
    | nil => rfl
    | cons header headers =>
      obtain ⟨enc, rest, henc, -, hcut⟩ := encodesAll_cons.mp hall
      exact absurd (List.append_eq_nil_iff.mp hcut).1 henc.ne_nil

/-- One turn, then the rest. -/
theorem parseHeadersFrom_cons {fuel : Nat} (hin : offset < data.length) :
    parseHeadersFrom data (fuel + 1) offset = .ok headers
      ↔ ∃ header next rest, headers = header :: rest
        ∧ headerAt data offset = .ok (header, next)
        ∧ parseHeadersFrom data fuel next = .ok rest := by
  rw [parseHeadersFrom, if_neg (by omega)]
  simp only [bind_eq_ok, Except.ok.injEq]
  constructor
  · rintro ⟨⟨header, next⟩, hturn, rest, hrest, rfl⟩
    exact ⟨header, next, rest, rfl, hturn, hrest⟩
  · rintro ⟨header, next, rest, rfl, hturn, hrest⟩
    exact ⟨(header, next), hturn, rest, hrest, rfl⟩

/-- By induction on the turns: from any offset on, the loop accepts what
is left exactly as the headers whose encodings it is. -/
theorem parseHeadersFrom_eq_ok (fuel : Nat) (headers : List Header)
    (hfuel : data.length ≤ offset + fuel) (hoff : offset ≤ data.length) :
    parseHeadersFrom data fuel offset = .ok headers
      ↔ EncodesAll headers (data.drop offset) := by
  induction fuel generalizing offset headers with
  | zero =>
    have hend : data.length ≤ offset := by omega
    rw [parseHeadersFrom_done hend, encodesAll_of_done hend]
  | succ fuel ih =>
    by_cases hin : offset < data.length
    · rw [parseHeadersFrom_cons hin]
      constructor
      · rintro ⟨header, next, rest, rfl, hturn, hrest⟩
        obtain ⟨henc, hlt, hnext⟩ := (headerAt_eq_ok hin).mp hturn
        rw [ih rest (by omega) hnext] at hrest
        exact encodesAll_cons.mpr
          ⟨_, _, henc, hrest, slice_drop data hlt.le⟩
      · intro hall
        cases headers with
        | nil =>
          have hnil := encodesAll_nil.mp hall
          rw [List.drop_eq_nil_iff] at hnil
          omega
        | cons header rest =>
          -- the encoding in front ends where the next turn starts
          obtain ⟨enc, left, henc, hrest, hcut⟩ := encodesAll_cons.mp hall
          have hlen := congrArg List.length hcut
          rw [List.length_append, List.length_drop] at hlen
          have hpos := List.length_pos_iff.mpr henc.ne_nil
          have hslice : slice data offset (offset + enc.length) = enc := by
            rw [slice, Nat.add_sub_cancel_left, ← hcut, List.take_left]
          have hleft : data.drop (offset + enc.length) = left := by
            rw [← List.drop_drop, ← hcut, List.drop_left]
          refine ⟨header, offset + enc.length, rest, rfl, ?_, ?_⟩
          · rw [headerAt_eq_ok hin, hslice]
            exact ⟨henc, by omega, by omega⟩
          · rw [ih rest (by omega) (by omega), hleft]
            exact hrest
    · have hend : data.length ≤ offset := by omega
      rw [parseHeadersFrom_done hend, encodesAll_of_done hend]

theorem parseHeaders_eq_ok (hoff : offset ≤ data.length) :
    parseHeaders data offset = .ok headers
      ↔ EncodesAll headers (data.drop offset) := by
  rw [parseHeaders, if_neg (by omega),
    parseHeadersFrom_eq_ok _ _ (by omega) hoff]

-- == the theorem

/-- Parsing accepts a byte string with a list of headers exactly where
`BuildHeader` succeeds on each of them and the string is what the
encodings make one behind the other: the two are inverse to each other,
in both directions. -/
theorem parse_build_inverse (data : Bytes) (headers : List Header) :
    parseHeaders data 0 = .ok headers
      ↔ ∃ encs, List.Forall₂
          (fun header enc => buildHeader header.id header.value = .ok enc)
          headers encs ∧ encs.flatten = data :=
  parseHeaders_eq_ok (Nat.zero_le _)

end Callbridge.Obex
