/-
The payload of a caller identity, as a format.

`DecodeIdentity` tests each length byte before it reads what the byte
measures, so it never reads outside the payload, and the two tests leave
exactly the payloads that two length-prefixed strings make up.
-/
import Callbridge.Lib.Guards
import Callbridge.Protocol.Proofs.RoundTrip

namespace Callbridge.Protocol

open Lib

variable {payload : Bytes} {identity : Identity}

-- == the reads

/-- A URI that is accepted leaves room for the length of the name. -/
theorem decodeIdentityIndexed_eq (payload : Bytes) :
    decodeIdentityIndexed payload = some (decodeIdentity payload) := by
  unfold decodeIdentityIndexed decodeIdentity
  by_cases hempty : payload.length = 0
  · rw [if_pos hempty, if_pos hempty]
  · rw [if_neg hempty, if_neg hempty,
      getElem?_eq_byteAt (Nat.pos_of_ne_zero hempty)]
    simp only [Option.bind_eq_bind, Option.bind_some]
    by_cases huri : (byteAt payload 0).toNat > identityURIMax
        ∨ 1 + (byteAt payload 0).toNat ≥ payload.length
    · rw [if_pos huri, if_pos huri]
      rfl
    · have hroom := Nat.not_le.mp (not_or.mp huri).2
      rw [if_neg huri, if_neg huri, getElem?_eq_byteAt hroom]
      simp only [Option.bind_some, decodeName]
      generalize (byteAt payload 0).toNat = n at hroom ⊢
      generalize (byteAt payload (1 + n)).toNat = k
      by_cases hname : k > identityNameMax
          ∨ 1 + n + 1 + k ≠ payload.length
      · rw [if_pos hname, if_pos hname]
        rfl
      · rw [if_neg hname, if_neg hname,
          slice?_eq (by omega) (by omega), slice?_eq (by omega) (by omega)]
        rfl

-- == what is accepted

/-- The payload spells the identity: two strings within their bounds, each
behind its length. -/
structure Spells (payload : Bytes) (identity : Identity) : Prop where
  layout : payload = UInt8.ofNat identity.uri.length :: identity.uri
    ++ UInt8.ofNat identity.name.length :: identity.name
  uri : identity.uri.length ≤ identityURIMax
  name : identity.name.length ≤ identityNameMax

theorem Spells.length_le (h : Spells payload identity) :
    payload.length ≤ payloadSize := by
  have huri : identity.uri.length ≤ 32 := h.uri
  have hname : identity.name.length ≤ 44 := h.name
  rw [h.layout]
  show _ ≤ 78
  simp only [List.length_append, List.length_cons]
  omega

theorem Spells.decodeIdentity (h : Spells payload identity) :
    decodeIdentity payload = .ok identity := by
  rw [h.layout]
  exact decodeIdentity_strings h.uri h.name

/-- What the tests of `DecodeIdentity` leave. -/
theorem spells_of_lengths
    (huri : ¬ ((byteAt payload 0).toNat > identityURIMax
      ∨ 1 + (byteAt payload 0).toNat ≥ payload.length))
    (hname : ¬ ((byteAt payload (1 + (byteAt payload 0).toNat)).toNat
        > identityNameMax
      ∨ 1 + (byteAt payload 0).toNat + 1
          + (byteAt payload (1 + (byteAt payload 0).toNat)).toNat
        ≠ payload.length)) :
    Spells payload
      ⟨slice payload 1 (1 + (byteAt payload 0).toNat),
        slice payload (1 + (byteAt payload 0).toNat + 1)
          (1 + (byteAt payload 0).toNat + 1
            + (byteAt payload (1 + (byteAt payload 0).toNat)).toNat)⟩ := by
  have hn : UInt8.ofNat (byteAt payload 0).toNat = byteAt payload 0 :=
    UInt8.ofNat_toNat
  have hk : UInt8.ofNat
      (byteAt payload (1 + (byteAt payload 0).toNat)).toNat
        = byteAt payload (1 + (byteAt payload 0).toNat) :=
    UInt8.ofNat_toNat
  -- name the two lengths, so that omega sees numbers
  generalize hfirst : byteAt payload 0 = first at *
  generalize first.toNat = n at *
  generalize hsecond : byteAt payload (1 + n) = second at *
  generalize second.toNat = k at *
  obtain ⟨hk44, hlen⟩ := not_or.mp hname
  rw [not_not] at hlen
  have huriLen : (slice payload 1 (1 + n)).length = n := by
    rw [slice_length (by omega)]
    omega
  have hnameLen : (slice payload (1 + n + 1) (1 + n + 1 + k)).length = k := by
    rw [slice_length (by omega)]
    omega
  refine ⟨?_, by rw [huriLen]; omega, by rw [hnameLen]; omega⟩
  simp only [huriLen, hnameLen, hn, hk]
  calc payload = slice payload 0 payload.length := (slice_all _).symm
    _ = first :: (slice payload 1 (1 + n)
        ++ second :: slice payload (1 + n + 1) payload.length) := by
      rw [slice_cons (by omega) (by omega), hfirst,
        slice_split payload (show 0 + 1 ≤ 1 + n by omega)
          (show 1 + n ≤ payload.length by omega),
        slice_cons (show 1 + n < payload.length by omega) (by omega),
        hsecond]
    _ = _ := by rw [hlen, List.cons_append]

/-- A payload is empty or spells an identity. -/
theorem decodeIdentity_ok_iff :
    decodeIdentity payload = .ok identity
      ↔ payload = [] ∧ identity = Identity.zero
        ∨ Spells payload identity := by
  constructor
  · intro h
    unfold decodeIdentity decodeName at h
    by_cases hempty : payload.length = 0
    · rw [if_pos hempty] at h
      cases h
      exact Or.inl ⟨List.length_eq_zero_iff.mp hempty, rfl⟩
    · rw [if_neg hempty, ite_error_eq_ok] at h
      obtain ⟨huri, h⟩ := h
      right
      by_cases hname : (byteAt payload
            (1 + (byteAt payload 0).toNat)).toNat > identityNameMax
          ∨ 1 + (byteAt payload 0).toNat + 1
              + (byteAt payload (1 + (byteAt payload 0).toNat)).toNat
            ≠ payload.length
      · simp only [if_pos hname] at h
        cases h
      · simp only [if_neg hname] at h
        cases h
        exact spells_of_lengths huri hname
  · intro h
    rcases h with ⟨rfl, rfl⟩ | hspells
    · rfl
    · exact hspells.decodeIdentity

theorem decodeIdentity_length (h : decodeIdentity payload = .ok identity) :
    payload.length ≤ payloadSize := by
  rcases decodeIdentity_ok_iff.mp h with ⟨rfl, -⟩ | hspells
  · exact Nat.zero_le _
  · exact hspells.length_le

-- == what is written

/-- An identity is refused when it exceeds a bound. -/
theorem encodeIdentity_within (h : encodeIdentity identity = .ok payload) :
    identity.uri.length ≤ identityURIMax
      ∧ identity.name.length ≤ identityNameMax := by
  unfold encodeIdentity at h
  by_cases hempty : identity.uri = [] ∧ identity.name = []
  · rw [hempty.1, hempty.2]
    exact ⟨Nat.zero_le _, Nat.zero_le _⟩
  · rw [if_neg hempty, ite_error_eq_ok, not_or] at h
    exact ⟨Nat.not_lt.mp h.1.1, Nat.not_lt.mp h.1.2⟩

theorem encodeIdentity_length (h : encodeIdentity identity = .ok payload) :
    payload.length ≤ payloadSize := by
  obtain ⟨huri, hname⟩ := encodeIdentity_within h
  obtain ⟨payload', henc, -, hlen⟩ :=
    decodeIdentity_encodeIdentity huri hname
  rw [henc] at h
  cases h
  exact hlen

-- == the theorem

/-- `DecodeIdentity` reads within its payload, whatever the payload. It
accepts the empty one, as the empty identity, and those that spell an
identity, as that identity; what it accepts and what `EncodeIdentity`
writes fits a packet; and an identity within the bounds is written, and
read back as it was. -/
theorem identity_payload_exact (payload : Bytes) (identity : Identity) :
    decodeIdentityIndexed payload = some (decodeIdentity payload)
      ∧ (decodeIdentity payload = .ok identity
        ↔ payload = [] ∧ identity = Identity.zero
          ∨ Spells payload identity)
      ∧ (decodeIdentity payload = .ok identity →
        payload.length ≤ payloadSize)
      ∧ (encodeIdentity identity = .ok payload →
        payload.length ≤ payloadSize)
      ∧ (identity.uri.length ≤ identityURIMax →
        identity.name.length ≤ identityNameMax →
        ∃ written, encodeIdentity identity = .ok written
          ∧ decodeIdentityIndexed written = some (.ok identity)) := by
  refine ⟨decodeIdentityIndexed_eq payload, decodeIdentity_ok_iff,
    decodeIdentity_length, encodeIdentity_length, ?_⟩
  intro huri hname
  obtain ⟨written, henc, hdec, -⟩ :=
    decodeIdentity_encodeIdentity huri hname
  exact ⟨written, henc, by rw [decodeIdentityIndexed_eq, hdec]⟩

end Callbridge.Protocol
