/-
Device addresses in their canonical form. Whatever syntax an address comes
in, `normalizedDevice` writes it as six pairs of upper-case digits joined
by colons: seventeen visible characters that it leaves as they are when it
is asked again.
-/
import Callbridge.Protocol.Message

namespace Callbridge.Protocol

open Lib

variable {hardware : Bytes}

-- == digits

/-- A digit reads back as the value it was written for. -/
theorem upperHex_spec {v : UInt8} (h : v < 16) :
    hexDigit (upperHex v) = some v ∧ visible (upperHex v) = true := by
  have hall : ∀ n < 16, hexDigit (upperHex (UInt8.ofNat n))
      = some (UInt8.ofNat n) ∧ visible (upperHex (UInt8.ofNat n)) = true := by
    decide
  have hv : v.toNat < 16 := UInt8.lt_iff_toNat_lt.mp h
  rw [← UInt8.ofNat_toNat (x := v)]
  exact hall v.toNat hv

theorem high_lt (b : UInt8) : b / 16 < 16 := by
  have hb := b.toNat_lt
  show b.toNat / 16 < 16
  omega

theorem low_lt (b : UInt8) : b % 16 < 16 := by
  exact Nat.mod_lt _ (by decide)

theorem high_low (b : UInt8) : b / 16 * 16 + b % 16 = b := by
  have hb := b.toNat_lt
  rw [← UInt8.toNat_inj, UInt8.toNat_add, UInt8.toNat_mul, UInt8.toNat_div,
    UInt8.toNat_mod]
  show (b.toNat / 16 * 16 % 256 + b.toNat % 16) % 256 = b.toNat
  omega

/-- A written pair parses to its octet, at the end of the text or in front
of a colon. -/
theorem xtoi2_pair (b : UInt8) (rest : Bytes)
    (h : rest = [] ∨ rest.head? = some 0x3a) :
    xtoi2 (upperHex (b / 16) :: upperHex (b % 16) :: rest) 0x3a
      = some b := by
  simp only [xtoi2, (upperHex_spec (high_lt b)).1,
    (upperHex_spec (low_lt b)).1, high_low]
  rw [if_pos h]

-- == addresses

/-- The octets of an address, named. -/
theorem exists_octets (h : hardware.length = 6) :
    ∃ a b c d e f, hardware = [a, b, c, d, e, f] := by
  match hardware, h with
  | [a, b, c, d, e, f], _ => exact ⟨a, b, c, d, e, f, rfl⟩

theorem upperAddress_six (a b c d e f : UInt8) :
    upperAddress [a, b, c, d, e, f]
      = [upperHex (a / 16), upperHex (a % 16), 0x3a,
        upperHex (b / 16), upperHex (b % 16), 0x3a,
        upperHex (c / 16), upperHex (c % 16), 0x3a,
        upperHex (d / 16), upperHex (d % 16), 0x3a,
        upperHex (e / 16), upperHex (e % 16), 0x3a,
        upperHex (f / 16), upperHex (f % 16)] := rfl

theorem upperAddress_length (h : hardware.length = 6) :
    (upperAddress hardware).length = 17 := by
  obtain ⟨a, b, c, d, e, f, rfl⟩ := exists_octets h
  rfl

/-- An address is printable. -/
theorem upperAddress_visible (h : hardware.length = 6) :
    ∀ c ∈ upperAddress hardware, visible c = true := by
  have hhigh : ∀ b : UInt8, visible (upperHex (b / 16)) = true := fun b =>
    (upperHex_spec (high_lt b)).2
  have hlow : ∀ b : UInt8, visible (upperHex (b % 16)) = true := fun b =>
    (upperHex_spec (low_lt b)).2
  have hcolon : visible 0x3a = true := by decide
  obtain ⟨a, b, c, d, e, f, rfl⟩ := exists_octets h
  rw [upperAddress_six]
  simp only [List.forall_mem_cons, hhigh, hlow, hcolon, true_and]
  exact List.forall_mem_nil _

/-- An address is read back. -/
theorem parseMAC_upperAddress (h : hardware.length = 6) :
    parseMAC (upperAddress hardware) = some hardware := by
  have hlen := upperAddress_length h
  have hcolon : (upperAddress hardware).getD 2 0 = 0x3a := by
    obtain ⟨a, b, c, d, e, f, rfl⟩ := exists_octets h
    rfl
  unfold parseMAC
  rw [if_neg (by rw [hlen]; decide), hcolon, hlen]
  obtain ⟨a, b, c, d, e, f, rfl⟩ := exists_octets h
  -- the pairs stand three bytes apart, all but the last before a colon
  rw [upperAddress_six]
  simp [List.range_succ, xtoi2_pair]

/-- The canonical form is its own canonical form. -/
theorem normalizedDevice_upperAddress (h : hardware.length = 6) :
    normalizedDevice (upperAddress hardware) = upperAddress hardware := by
  have htrim := trimSpace_visible (upperAddress_visible h)
  simp only [normalizedDevice, htrim, parseMAC_upperAddress h, if_pos h]

theorem normalizedDevice_cases (address : Bytes) :
    normalizedDevice address = [] ∨ ∃ hardware : Bytes,
      hardware.length = 6
        ∧ normalizedDevice address = upperAddress hardware := by
  unfold normalizedDevice
  split
  case h_1 hardware _ =>
      split
      case isTrue h => exact Or.inr ⟨hardware, h, rfl⟩
      case isFalse => exact Or.inl rfl
  case h_2 => exact Or.inl rfl

theorem normalizedDevice_idem (address : Bytes) :
    normalizedDevice (normalizedDevice address)
      = normalizedDevice address := by
  rcases normalizedDevice_cases address with h | ⟨hardware, hlen, h⟩
  · rw [h]
    decide
  · rw [h, normalizedDevice_upperAddress hlen]

/-- A canonical address fills seventeen bytes, none of them NUL. -/
theorem canonical_spec {device : Bytes}
    (h : normalizedDevice device = device) (hne : device ≠ []) :
    device.length = 17 ∧ ∀ c ∈ device, c ≠ 0 := by
  rcases normalizedDevice_cases device with h' | ⟨hardware, hlen, h'⟩
  · exact absurd (h.symm.trans h') hne
  · rw [← h, h']
    refine ⟨upperAddress_length hlen, fun c hc h0 => ?_⟩
    have hvis := upperAddress_visible hlen c hc
    rw [h0] at hvis
    exact absurd hvis (by decide)

end Callbridge.Protocol
