/-
Packet buffers, as Go programs fill and read them: a block of zeros that
fields are copied into at their offsets, and slices taken from it again.

`leBytes` and `leValue` are the two directions of `encoding/binary` at any
width, the low byte first; the words of 64, 32 and 16 bits are instances,
and the big-endian ones the same bytes the other way round.
-/
import Mathlib.Data.UInt
import Mathlib.Data.List.GetD
import Callbridge.Lib.Strings

namespace Callbridge.Lib

variable {l p : Bytes} {i j size : Nat} {fields : List (Nat × Bytes)}

-- == little-endian words

/-- The number whose little-endian bytes these are. -/
def leValue : Bytes → Nat
  | [] => 0
  | b :: rest => b.toNat + 256 * leValue rest

/-- The `n` low bytes of a number, the lowest first. -/
def leBytes : Nat → Nat → Bytes
  | 0, _ => []
  | n + 1, v => UInt8.ofNat v :: leBytes n (v / 256)

@[simp] theorem leBytes_length (n v : Nat) : (leBytes n v).length = n := by
  induction n generalizing v with
  | zero => rfl
  | succ n ih =>
    rw [leBytes, List.length_cons, ih]

theorem leValue_leBytes (n v : Nat) :
    leValue (leBytes n v) = v % 256 ^ n := by
  induction n generalizing v with
  | zero => simp [leBytes, leValue, Nat.mod_one]
  | succ n ih =>
    have hlow : (UInt8.ofNat v).toNat = v % 256 := UInt8.toNat_ofNat'
    rw [leBytes, leValue, ih, hlow, Nat.pow_succ', Nat.mod_mul]

theorem leValue_lt (l : Bytes) : leValue l < 256 ^ l.length := by
  induction l with
  | nil => simp [leValue]
  | cons b rest ih =>
    have hb := b.toNat_lt
    rw [leValue, List.length_cons, Nat.pow_succ']
    omega

theorem leBytes_leValue (l : Bytes) : leBytes l.length (leValue l) = l := by
  induction l with
  | nil => rfl
  | cons b rest ih =>
    have hb := b.toNat_lt
    have hhigh : (b.toNat + 256 * leValue rest) / 256 = leValue rest := by
      omega
    have hlow : UInt8.ofNat (b.toNat + 256 * leValue rest) = b := by
      rw [← UInt8.toNat_inj, UInt8.toNat_ofNat']
      omega
    rw [List.length_cons, leValue, leBytes, hhigh, ih, hlow]

/-- `binary.LittleEndian.PutUint64`. -/
def putUint64 (v : UInt64) : Bytes := leBytes 8 v.toNat

/-- `binary.LittleEndian.Uint64`. -/
def uint64 (l : Bytes) : UInt64 := UInt64.ofNat (leValue l)

/-- `binary.LittleEndian.PutUint32`. -/
def putUint32 (v : UInt32) : Bytes := leBytes 4 v.toNat

/-- `binary.LittleEndian.Uint32`. -/
def uint32 (l : Bytes) : UInt32 := UInt32.ofNat (leValue l)

/-- `binary.LittleEndian.PutUint16`. -/
def putUint16 (v : UInt16) : Bytes := leBytes 2 v.toNat

/-- `binary.LittleEndian.Uint16`. -/
def uint16 (l : Bytes) : UInt16 := UInt16.ofNat (leValue l)

theorem uint64_put (v : UInt64) : uint64 (putUint64 v) = v := by
  have hv := v.toNat_lt
  rw [← UInt64.toNat_inj, uint64, putUint64, leValue_leBytes,
    UInt64.toNat_ofNat']
  omega

theorem put_uint64 (h : l.length = 8) :
    putUint64 (uint64 l) = l := by
  have hl := leValue_lt l
  rw [h] at hl
  have hval : (uint64 l).toNat = leValue l := by
    rw [uint64, UInt64.toNat_ofNat']
    omega
  rw [putUint64, hval, ← h, leBytes_leValue]

theorem uint32_put (v : UInt32) : uint32 (putUint32 v) = v := by
  have hv := v.toNat_lt
  rw [← UInt32.toNat_inj, uint32, putUint32, leValue_leBytes,
    UInt32.toNat_ofNat']
  omega

theorem put_uint32 (h : l.length = 4) :
    putUint32 (uint32 l) = l := by
  have hl := leValue_lt l
  rw [h] at hl
  have hval : (uint32 l).toNat = leValue l := by
    rw [uint32, UInt32.toNat_ofNat']
    omega
  rw [putUint32, hval, ← h, leBytes_leValue]

theorem uint16_put (v : UInt16) : uint16 (putUint16 v) = v := by
  have hv := v.toNat_lt
  rw [← UInt16.toNat_inj, uint16, putUint16, leValue_leBytes,
    UInt16.toNat_ofNat']
  omega

theorem put_uint16 (h : l.length = 2) :
    putUint16 (uint16 l) = l := by
  have hl := leValue_lt l
  rw [h] at hl
  have hval : (uint16 l).toNat = leValue l := by
    rw [uint16, UInt16.toNat_ofNat']
    omega
  rw [putUint16, hval, ← h, leBytes_leValue]

-- == big-endian words

/-- `binary.BigEndian.PutUint16`. -/
def bePutUint16 (v : UInt16) : Bytes := (putUint16 v).reverse

/-- `binary.BigEndian.Uint16`. -/
def beUint16 (l : Bytes) : UInt16 := uint16 l.reverse

/-- `binary.BigEndian.PutUint32`. -/
def bePutUint32 (v : UInt32) : Bytes := (putUint32 v).reverse

/-- `binary.BigEndian.Uint32`. -/
def beUint32 (l : Bytes) : UInt32 := uint32 l.reverse

@[simp] theorem bePutUint16_length (v : UInt16) :
    (bePutUint16 v).length = 2 := by
  simp [bePutUint16, putUint16]

@[simp] theorem bePutUint32_length (v : UInt32) :
    (bePutUint32 v).length = 4 := by
  simp [bePutUint32, putUint32]

theorem beUint16_put (v : UInt16) : beUint16 (bePutUint16 v) = v := by
  rw [beUint16, bePutUint16, List.reverse_reverse, uint16_put]

theorem put_beUint16 (h : l.length = 2) :
    bePutUint16 (beUint16 l) = l := by
  have hrev : l.reverse.length = 2 := by rw [List.length_reverse, h]
  rw [bePutUint16, beUint16, put_uint16 hrev, List.reverse_reverse]

-- == slices

/-- `p[i:j]`, within bounds. -/
def slice (p : Bytes) (i j : Nat) : Bytes := (p.drop i).take (j - i)

/-- `p[i]`, within bounds. -/
def byteAt (p : Bytes) (i : Nat) : UInt8 := p.getD i 0

theorem slice_length (hj : j ≤ p.length) :
    (slice p i j).length = j - i := by
  rw [slice, List.length_take, List.length_drop]
  omega

theorem slice_all (p : Bytes) : slice p 0 p.length = p := by
  simp [slice]

/-- A slice cut in two. -/
theorem slice_split (p : Bytes) {k : Nat} (hij : i ≤ j) (hjk : j ≤ k) :
    slice p i k = slice p i j ++ slice p j k := by
  have hk : k - i = (j - i) + (k - j) := by omega
  have hj : i + (j - i) = j := by omega
  simp only [slice]
  rw [hk, List.take_add, List.drop_drop, hj]

/-- The first byte of a slice. -/
theorem slice_cons (hij : i < j) (hi : i < p.length) :
    slice p i j = byteAt p i :: slice p (i + 1) j := by
  have hj : j - i = (j - (i + 1)) + 1 := by omega
  have hget : byteAt p i = p.get ⟨i, hi⟩ := by
    simp [byteAt, List.getD_eq_getElem?_getD, hi]
  rw [hget, slice, slice, List.drop_eq_getElem_cons hi, hj,
    List.take_succ_cons]
  rfl

theorem slice_self (p : Bytes) (i : Nat) : slice p i i = [] := by
  simp [slice]

/-- A slice, byte by byte. -/
theorem slice_eq_bytes (p : Bytes) (i n : Nat) (h : i + n ≤ p.length) :
    slice p i (i + n) = (List.range n).map fun k => byteAt p (i + k) := by
  induction n generalizing i with
  | zero => exact slice_self p i
  | succ n ih =>
    have hrest := ih (i + 1) (by omega)
    rw [slice_cons (by omega) (by omega), List.range_succ_eq_map,
      List.map_cons, List.map_map]
    rw [show i + (n + 1) = i + 1 + n by omega, hrest]
    refine congrArg (byteAt p (i + 0) :: ·)
      (List.map_congr_left fun k _ => ?_)
    show byteAt p (i + 1 + k) = byteAt p (i + (k + 1))
    rw [Nat.add_right_comm, Nat.add_assoc]

/-- A slice as wide as a number is what the number read off it writes. -/
theorem slice_eq_uint64 (p : Bytes) (i : Nat) (h : i + 8 ≤ p.length) :
    slice p i (i + 8) = putUint64 (uint64 (slice p i (i + 8))) := by
  rw [put_uint64]
  rw [slice_length h, Nat.add_sub_cancel_left]

theorem slice_eq_uint32 (p : Bytes) (i : Nat) (h : i + 4 ≤ p.length) :
    slice p i (i + 4) = putUint32 (uint32 (slice p i (i + 4))) := by
  rw [put_uint32]
  rw [slice_length h, Nat.add_sub_cancel_left]

theorem slice_eq_uint16 (p : Bytes) (i : Nat) (h : i + 2 ≤ p.length) :
    slice p i (i + 2) = putUint16 (uint16 (slice p i (i + 2))) := by
  rw [put_uint16]
  rw [slice_length h, Nat.add_sub_cancel_left]

theorem slice_append_left (a b : Bytes) (h : j ≤ a.length) :
    slice (a ++ b) i j = slice a i j := by
  simp only [slice]
  rw [List.drop_append, List.take_append_of_le_length]
  rw [List.length_drop]
  omega

theorem slice_append_right (a b : Bytes) (i j : Nat) :
    slice (a ++ b) (a.length + i) (a.length + j) = slice b i j := by
  have hj : a.length + j - (a.length + i) = j - i := by omega
  simp only [slice]
  rw [List.drop_append, List.drop_eq_nil_of_le (by omega), hj,
    Nat.add_sub_cancel_left, List.nil_append]

theorem slice_drop (p : Bytes) (k i j : Nat) :
    slice (p.drop k) i j = slice p (k + i) (k + j) := by
  have hj : k + j - (k + i) = j - i := by omega
  simp only [slice]
  rw [List.drop_drop, hj]

theorem byteAt_append_left (a b : Bytes) (h : i < a.length) :
    byteAt (a ++ b) i = byteAt a i :=
  List.getD_append a b 0 i h

theorem byteAt_append_right (a b : Bytes) (i : Nat) :
    byteAt (a ++ b) (a.length + i) = byteAt b i := by
  unfold byteAt
  rw [List.getD_append_right a b 0 _ (by omega), Nat.add_sub_cancel_left]

theorem byteAt_drop (p : Bytes) (k j : Nat) :
    byteAt (p.drop k) j = byteAt p (k + j) := by
  simp [byteAt, List.getD_eq_getElem?_getD]

/-- A buffer of zeros, read at any offset. -/
theorem byteAt_zeros (h : ∀ b ∈ p, b = 0) (i : Nat) :
    byteAt p i = 0 := by
  by_cases hi : i < p.length
  · rw [byteAt, List.getD_eq_getElem p 0 hi]
    exact h _ (List.getElem_mem hi)
  · exact List.getD_eq_default p 0 (by omega)

-- == copies

/-- `copy(p[i:], l)`, for a source that fits. -/
def copyAt (p : Bytes) (i : Nat) (l : Bytes) : Bytes :=
  p.take i ++ l ++ p.drop (i + l.length)

/-- A field copied into the zeros behind what is already there. -/
theorem copyAt_zeros {a : Bytes} (hi : a.length ≤ i)
    (hl : i + l.length ≤ size) :
    copyAt (a ++ List.replicate (size - a.length) 0) i l
      = (a ++ (List.replicate (i - a.length) 0 ++ l))
        ++ List.replicate (size - (i + l.length)) 0 := by
  have hgap : min (i - a.length) (size - a.length) = i - a.length := by omega
  have hrest : size - a.length - (i + l.length - a.length)
      = size - (i + l.length) := by omega
  simp only [copyAt]
  rw [List.take_append, List.take_of_length_le hi, List.take_replicate,
    hgap, List.drop_append, List.drop_eq_nil_of_le (by omega),
    List.drop_replicate, hrest]
  simp only [List.append_assoc, List.nil_append]

/-- A block of zeros filled with fields, each at its offset. -/
def fill (size : Nat) (fields : List (Nat × Bytes)) : Bytes :=
  fields.foldl (fun p f => copyAt p f.1 f.2) (List.replicate size 0)

/-- The fields start at or behind `pos`, one behind the other. -/
def Ascending (size : Nat) : Nat → List (Nat × Bytes) → Prop
  | pos, [] => pos ≤ size
  | pos, (i, l) :: rest => pos ≤ i ∧ Ascending size (i + l.length) rest

/-- What a block filled with ascending fields reads from `pos` on: the
fields, with zeros between and behind them. -/
def laidOut (size : Nat) : Nat → List (Nat × Bytes) → Bytes
  | pos, [] => List.replicate (size - pos) 0
  | pos, (i, l) :: rest =>
      List.replicate (i - pos) 0 ++ (l ++ laidOut size (i + l.length) rest)

theorem Ascending.le :
    ∀ {pos : Nat}, Ascending size pos fields → pos ≤ size := by
  induction fields with
  | nil => exact id
  | cons f rest ih =>
    intro pos h
    have hle := ih h.2
    have hpos : pos ≤ f.1 := h.1
    omega

/-- Filling goes field by field: what is in front stays. -/
theorem foldl_copyAt :
    ∀ {a : Bytes}, Ascending size a.length fields →
      fields.foldl (fun p f => copyAt p f.1 f.2)
          (a ++ List.replicate (size - a.length) 0)
        = a ++ laidOut size a.length fields := by
  induction fields with
  | nil =>
    intro a _
    rfl
  | cons f rest ih =>
    obtain ⟨i, l⟩ := f
    intro a h
    have hpos : a.length ≤ i := h.1
    have hlen : (a ++ (List.replicate (i - a.length) 0 ++ l)).length
        = i + l.length := by
      rw [List.length_append, List.length_append, List.length_replicate]
      omega
    have hstep := ih (a := a ++ (List.replicate (i - a.length) 0 ++ l))
    rw [hlen] at hstep
    rw [List.foldl_cons, copyAt_zeros hpos h.2.le, hstep h.2, laidOut]
    simp only [List.append_assoc]

theorem fill_eq (h : Ascending size 0 fields) :
    fill size fields = laidOut size 0 fields :=
  foldl_copyAt (a := []) h

/-- A field followed by zeros up to its width. -/
def zeroPad (n : Nat) (l : Bytes) : Bytes :=
  l ++ List.replicate (n - l.length) 0

theorem zeroPad_length {n : Nat} (h : l.length ≤ n) :
    (zeroPad n l).length = n := by
  rw [zeroPad, List.length_append, List.length_replicate]
  omega

end Callbridge.Lib
