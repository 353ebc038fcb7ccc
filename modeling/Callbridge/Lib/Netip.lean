/-
IP addresses and prefixes, as Go's net/netip has them, and the host and
port notation of package net.

A prefix can hold an address of either family and need not be valid, so
containment asks three things: the families agree, the prefix is valid,
and the leading bits agree. The decimal notation is parsed here; how the
colon notation is parsed is left to a parameter, since what follows only
asks which family came out.
-/
import Callbridge.Lib.Buffer

namespace Callbridge.Lib.Netip

-- == addresses

/-- `netip.Addr`. The zero value is an address of no family. -/
inductive Addr where
  | zero
  | v4 (addr : BitVec 32)
  | v6 (addr : BitVec 128) (zone : Bytes)
  deriving DecidableEq

namespace Addr

def bitLen : Addr → Nat
  | zero => 0
  | v4 _ => 32
  | v6 _ _ => 128

/-- `Is4`, which an IPv4-mapped IPv6 address is not. -/
def is4 : Addr → Bool
  | v4 _ => true
  | _ => false

def withoutZone : Addr → Addr
  | v6 a _ => v6 a []
  | ip => ip

/-- `Unmap`: an IPv4-mapped IPv6 address as the IPv4 address it maps. -/
def unmap : Addr → Addr
  | v6 a zone =>
      if a >>> 32 = 0xffff#128 then v4 (a.truncate 32) else v6 a zone
  | ip => ip

def isLoopback (ip : Addr) : Bool :=
  match ip.unmap with
  | v4 a => a >>> 24 == 127#32
  | v6 a _ => a == 1#128
  | zero => false

/-- `IsPrivate`: 10.0.0.0/8, 172.16.0.0/12, 192.168.0.0/16 and fc00::/7. -/
def isPrivate (ip : Addr) : Bool :=
  match ip.unmap with
  | v4 a =>
      a >>> 24 == 10#32 || a >>> 20 == 0xac1#32 || a >>> 16 == 0xc0a8#32
  | v6 a _ => a >>> 121 == 0x7e#128
  | zero => false

/-- The address with all but its `n` leading bits cleared. -/
def masked (n : Nat) : Addr → Addr
  | zero => zero
  | v4 a => v4 (a &&& BitVec.allOnes 32 <<< (32 - n))
  | v6 a zone => v6 (a &&& BitVec.allOnes 128 <<< (128 - n)) zone

@[simp] theorem bitLen_withoutZone (ip : Addr) :
    ip.withoutZone.bitLen = ip.bitLen := by
  cases ip <;> rfl

@[simp] theorem withoutZone_eq_zero (ip : Addr) :
    ip.withoutZone = zero ↔ ip = zero := by
  cases ip <;> simp [withoutZone]

theorem is4_iff {ip : Addr} : ip.is4 = true ↔ ∃ a, ip = v4 a := by
  cases ip with
  | zero | v4 a | v6 a zone => simp [is4]

/-- An IPv4 address is a loopback address when its first octet is 127. -/
theorem isLoopback_v4 {a : BitVec 32} :
    (v4 a).isLoopback = true ↔ a >>> 24 = 127#32 := by
  simp [isLoopback, unmap]

end Addr

-- == prefixes

/-- `netip.Prefix`: an address and, for a valid prefix, the number of its
leading bits that count. -/
structure Prefix where
  addr : Addr
  bits : Option Nat
  fits : ∀ n ∈ bits, addr ≠ .zero ∧ n ≤ addr.bitLen
  deriving DecidableEq

namespace Prefix

/-- `Bits`, which is -1 for an invalid prefix. -/
def bitCount (p : Prefix) : Int :=
  match p.bits with
  | some n => n
  | none => -1

/-- `PrefixFrom`. -/
def make (ip : Addr) (bits : Int) : Prefix :=
  if h : ip ≠ .zero ∧ 0 ≤ bits ∧ bits ≤ ip.bitLen then
    { addr := ip.withoutZone
      bits := some bits.toNat
      fits := by
        intro n hn
        cases hn
        refine ⟨?_, ?_⟩
        · rw [ne_eq, Addr.withoutZone_eq_zero]
          exact h.1
        · rw [Addr.bitLen_withoutZone]
          omega }
  else
    { addr := ip.withoutZone
      bits := none
      fits := by
        intro n hn
        cases hn }

/-- `Masked`. -/
def masked (p : Prefix) : Prefix :=
  match p.bits with
  | some n => make (p.addr.masked n) n
  | none => make .zero (-1)

/-- `Contains`: a valid prefix, an address of its family without a zone,
and no difference in the leading bits. -/
def contains (p : Prefix) (ip : Addr) : Bool :=
  match p.bits, p.addr, ip with
  | some n, .v4 base, .v4 a => (a ^^^ base) >>> (32 - n) == 0#32
  | some n, .v6 base _, .v6 a zone =>
      zone == [] && (a ^^^ base) >>> (128 - n) == 0#128
  | _, _, _ => false

/-- An IPv4 address is contained in valid IPv4 prefixes only. -/
theorem contains_v4 {p : Prefix} {a : BitVec 32}
    (h : p.contains (.v4 a) = true) :
    ∃ base n, p.addr = .v4 base ∧ p.bits = some n ∧ n ≤ 32
      ∧ (a ^^^ base) >>> (32 - n) = 0#32 := by
  unfold contains at h
  split at h
  case h_1 n base a' hbits haddr hip =>
    cases hip
    have hn : n ≤ p.addr.bitLen := (p.fits n hbits).2
    rw [haddr] at hn
    exact ⟨base, n, haddr, hbits, hn, beq_iff_eq.mp h⟩
  case h_2 hip =>
    cases hip
  case h_3 =>
    cases h

/-- What masking an IPv4 prefix leaves. -/
theorem masked_v4 {p : Prefix} {base : BitVec 32} {n : Nat}
    (haddr : p.addr = .v4 base) (hbits : p.bits = some n) :
    p.masked.addr = .v4 (base &&& BitVec.allOnes 32 <<< (32 - n))
      ∧ p.masked.bits = some n := by
  have hn : n ≤ p.addr.bitLen := (p.fits n hbits).2
  rw [haddr] at hn
  have hle : (n : Int) ≤ 32 := Int.ofNat_le.mpr hn
  have hmake : p.masked = make (p.addr.masked n) n := by
    unfold masked
    rw [hbits]
  rw [hmake, haddr]
  unfold make
  rw [dif_pos ⟨by simp [Addr.masked], by omega, hle⟩]
  exact ⟨rfl, by simp⟩

end Prefix

section Leading

variable {w n k : Nat} {a b : BitVec w}

/-- Addresses without a difference in the `n` leading bits have the same
`k` leading bits, for every `k` up to `n`. -/
theorem leading_eq (h : (a ^^^ b) >>> (w - n) = 0#w) (hk : k ≤ n) :
    a >>> (w - k) = b >>> (w - k) := by
  have hsum : w - n + (w - k - (w - n)) = w - k := by omega
  have hzero : (a ^^^ b) >>> (w - k) = 0#w := by
    rw [← hsum, BitVec.shiftRight_add, h, BitVec.zero_ushiftRight]
  rw [BitVec.ushiftRight_xor_distrib] at hzero
  exact BitVec.xor_eq_zero_iff.mp hzero

/-- Without a difference in any bit the addresses are the same. -/
theorem eq_of_leading (h : (a ^^^ b) >>> (w - w) = 0#w) : a = b := by
  rw [Nat.sub_self, BitVec.ushiftRight_zero] at h
  exact BitVec.xor_eq_zero_iff.mp h

end Leading

-- == notations

/-- A decimal number without a sign and without a leading zero. -/
def parseDecimal (s : Bytes) : Option Nat :=
  if s ≠ [] ∧ s.all isDigit
      ∧ (s.length = 1 ∨ s.head? ≠ some 0x30) then
    some (decimal s)
  else none

/-- The dotted notation: four numbers up to 255. -/
def parseIPv4 (s : Bytes) : Option (BitVec 32) :=
  let octets := (splitByte 0x2e s).mapM fun octet =>
    (parseDecimal octet).filter (· ≤ 255)
  match octets with
  | some [a, b, c, d] =>
      some (BitVec.ofNat 32 (((a * 256 + b) * 256 + c) * 256 + d))
  | _ => none

/-- `bytealg.LastIndexByteString`. -/
def lastIndexByte (b : UInt8) (s : Bytes) : Option Nat :=
  (s.reverse.idxOf? b).map fun i => s.length - 1 - i

/-- `net.SplitHostPort`: the port follows the last colon, and a host that
has colons of its own stands in brackets. -/
def splitHostPort (s : Bytes) : Option (Bytes × Bytes) :=
  match lastIndexByte 0x3a s with
  | none => none
  | some i =>
      if s.head? = some 0x5b then
        match s.idxOf? 0x5d with
        | none => none
        | some close =>
            if close + 1 ≠ i then none
            else if 0x5b ∈ s.drop 1 ∨ 0x5d ∈ s.drop (close + 1) then none
            else some (slice s 1 close, s.drop (i + 1))
      else if 0x3a ∈ s.take i then none
      else if 0x5b ∈ s ∨ 0x5d ∈ s then none
      else some (s.take i, s.drop (i + 1))

/-- `net.JoinHostPort`. -/
def joinHostPort (host port : Bytes) : Bytes :=
  if 0x3a ∈ host ∨ 0x25 ∈ host then
    [0x5b] ++ host ++ [0x5d, 0x3a] ++ port
  else host ++ [0x3a] ++ port

section Parsing

variable (parseIPv6 : Bytes → Option (BitVec 128 × Bytes))

/-- `netip.ParseAddr`: the first dot, colon or percent sign decides. -/
def parseAddr (s : Bytes) : Option Addr :=
  match s.find? fun b => b == 0x2e || b == 0x3a || b == 0x25 with
  | none => none
  | some b =>
      if b = 0x2e then (parseIPv4 s).map .v4
      else if b = 0x3a then (parseIPv6 s).map fun ip => .v6 ip.1 ip.2
      else none

/-- `netip.ParsePrefix`, which accepts no zone. -/
def parsePrefix (s : Bytes) : Option Prefix :=
  match lastIndexByte 0x2f s with
  | none => none
  | some i =>
      match parseAddr parseIPv6 (s.take i), parseDecimal (s.drop (i + 1)) with
      | some ip, some n =>
          if ip.withoutZone ≠ ip then none
          else if ip.bitLen < n then none
          else some (.make ip n)
      | _, _ => none

/-- A parsed prefix is valid. -/
theorem bits_parsePrefix {s : Bytes} {p : Prefix}
    (h : parsePrefix parseIPv6 s = some p) : ∃ n, p.bits = some n := by
  unfold parsePrefix at h
  split at h
  · cases h
  split at h
  case h_1 ip n hip hn =>
    split at h
    · cases h
    split at h
    · cases h
    case isFalse.isFalse hzone hlen =>
      have hne : ip ≠ .zero := by
        rintro rfl
        unfold parseAddr at hip
        split at hip
        · cases hip
        · split at hip
          · simp at hip
          · split at hip
            · simp at hip
            · cases hip
      cases h
      refine ⟨n, ?_⟩
      unfold Prefix.make
      rw [dif_pos ⟨hne, by omega, by omega⟩]
      simp
  · cases h

end Parsing

end Callbridge.Lib.Netip
