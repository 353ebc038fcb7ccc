/-
The handoff codec against itself. A packet is the header of its descriptor
followed by the transport path (`packet_eq`); what `decodeDescriptor`
reads off it is the descriptor again, and a packet it accepts is the one
its descriptor lays out. The header check pins the constants of the flags
byte, which is why it can be rebuilt from its two facts
(`flags_of_known`).
-/
import Callbridge.Lib.Guards
import Callbridge.Bluez.Handoff

namespace Callbridge.Bluez

open Lib

variable {d : Descriptor} {p : Bytes}

-- == headers

/-- The bytes in front of the transport path. -/
def Descriptor.head (d : Descriptor) : Bytes :=
  handoffMagic
    ++ ([handoffVersion, d.direction, descriptorCount, d.flags]
    ++ (putUint64 d.generation ++ (putUint64 d.bundleID
    ++ (putUint64 d.callControlToken ++ (putUint32 d.sampleRate
    ++ (putUint32 d.frameDurationUS ++ (putUint32 d.channelAllocation
    ++ (putUint32 d.intervalUS ++ (putUint32 d.presentationDelayUS
    ++ (putUint16 d.octetsPerFrame ++ (putUint16 d.readMTU
    ++ (putUint16 d.writeMTU ++ (putUint16 d.latencyMS
    ++ ([d.framing, d.phy, d.retransmissions, d.targetLatency, d.cig, d.cis]
    ++ (putUint16 (UInt16.ofNat d.transport.length)
    ++ putUint32 0)))))))))))))))

theorem head_length (d : Descriptor) : d.head.length = handoffHeaderSize :=
  rfl

/-- `encodeDescriptor` writes the header and the path. -/
theorem packet_eq (d : Descriptor) : d.packet = d.head ++ d.transport := by
  have hasc :
      Ascending (handoffHeaderSize + d.transport.length) 0 d.fields := by
    simp only [Descriptor.fields, Ascending, putUint64, putUint32, putUint16,
      leBytes_length, handoffMagic, List.length_cons, List.length_nil,
      handoffHeaderSize]
    omega
  have hlaid : laidOut (handoffHeaderSize + d.transport.length) 0 d.fields
      = d.head ++ (d.transport ++ List.replicate
        (handoffHeaderSize + d.transport.length
          - (handoffHeaderSize + d.transport.length)) 0) := rfl
  rw [Descriptor.packet, fill_eq hasc, hlaid, Nat.sub_self]
  simp

theorem packet_length (d : Descriptor) :
    d.packet.length = handoffHeaderSize + d.transport.length := by
  rw [packet_eq, List.length_append, head_length]

-- == the reading

theorem slice_packet (d : Descriptor) {i j : Nat}
    (h : j ≤ 72) : slice d.packet i j = slice d.head i j := by
  rw [packet_eq]
  exact slice_append_left _ _ h

theorem byteAt_packet (d : Descriptor) {i : Nat}
    (h : i < 72) : byteAt d.packet i = byteAt d.head i := by
  rw [packet_eq]
  exact byteAt_append_left _ _ h

theorem drop_packet (d : Descriptor) :
    d.packet.drop handoffHeaderSize = d.transport := by
  rw [packet_eq, ← head_length d]
  exact List.drop_left

theorem flags_eq (d : Descriptor) : byteAt d.packet 7 = d.flags :=
  byteAt_packet d (by omega)

/-- The facts the flags byte carries, and those it does not. -/
theorem flags_spec (d : Descriptor) :
    d.flags &&& ~~~handoffKnownFlags = 0
      ∧ d.flags &&& handoffFlagOwnership ≠ 0
      ∧ d.flags &&& handoffFlagLinked ≠ 0
      ∧ (d.flags &&& handoffFlagCallToken != 0) = d.callControlCorrelated
      ∧ (d.flags &&& handoffFlagLifecycle != 0) = d.lifecycleOwned := by
  unfold Descriptor.flags
  cases d.callControlCorrelated <;> cases d.lifecycleOwned <;> decide

/-- A descriptor that owns a linked transport reads back as it was. -/
theorem readDescriptor_packet (howned : d.ownershipTransferred = true)
    (hlinked : d.linked = true) : readDescriptor d.packet = d := by
  obtain ⟨_, _, _, htoken, hlifecycle⟩ := flags_spec d
  have h64 : ∀ {i v}, i + 8 ≤ 72 →
      slice d.head i (i + 8) = putUint64 v →
      uint64 (slice d.packet i (i + 8)) = v := by
    intro i v hi hv
    rw [slice_packet d hi, hv, uint64_put]
  have h32 : ∀ {i v}, i + 4 ≤ 72 →
      slice d.head i (i + 4) = putUint32 v →
      uint32 (slice d.packet i (i + 4)) = v := by
    intro i v hi hv
    rw [slice_packet d hi, hv, uint32_put]
  have h16 : ∀ {i v}, i + 2 ≤ 72 →
      slice d.head i (i + 2) = putUint16 v →
      uint16 (slice d.packet i (i + 2)) = v := by
    intro i v hi hv
    rw [slice_packet d hi, hv, uint16_put]
  unfold readDescriptor
  rw [flags_eq, htoken, hlifecycle, drop_packet,
    h64 (i := 8) (by omega) rfl, h64 (i := 16) (by omega) rfl,
    h64 (i := 24) (by omega) rfl, h32 (i := 32) (by omega) rfl,
    h32 (i := 36) (by omega) rfl, h32 (i := 40) (by omega) rfl,
    h32 (i := 44) (by omega) rfl, h32 (i := 48) (by omega) rfl,
    h16 (i := 52) (by omega) rfl, h16 (i := 54) (by omega) rfl,
    h16 (i := 56) (by omega) rfl, h16 (i := 58) (by omega) rfl,
    byteAt_packet d (i := 5) (by omega),
    byteAt_packet d (i := 60) (by omega),
    byteAt_packet d (i := 61) (by omega),
    byteAt_packet d (i := 62) (by omega),
    byteAt_packet d (i := 63) (by omega),
    byteAt_packet d (i := 64) (by omega),
    byteAt_packet d (i := 65) (by omega)]
  cases d
  subst howned hlinked
  rfl

/-- Every packet of a descriptor passes the header checks. -/
theorem not_handoffHeaderRefused (d : Descriptor) :
    ¬ handoffHeaderRefused d.packet := by
  obtain ⟨hknown, howned, hlinked, _⟩ := flags_spec d
  have hzero : slice d.packet 68 72 = putUint32 0 :=
    slice_packet d (by omega)
  unfold handoffHeaderRefused
  rw [packet_length, flags_eq, hzero, uint32_put]
  rintro (h | h | h | h | h | h | h | h)
  · omega
  · exact h (slice_packet d (by omega))
  · exact h (byteAt_packet d (by omega))
  · exact h (byteAt_packet d (by omega))
  · exact h hknown
  · exact howned h
  · exact hlinked h
  · exact h rfl

theorem pathLength_packet (d : Descriptor) :
    uint16 (slice d.packet 66 68) = UInt16.ofNat d.transport.length := by
  have h : slice d.packet 66 68
      = putUint16 (UInt16.ofNat d.transport.length) :=
    slice_packet d (by omega)
  rw [h, uint16_put]

-- == validation

/-- The guards of `validateDescriptor`, all passed. -/
structure Descriptor.Valid (d : Descriptor) : Prop where
  direction : d.direction = Direction.sink.code
    ∨ d.direction = Direction.source.code
  generation : d.generation ≠ 0 ∧ d.bundleID ≠ 0
  owned : d.ownershipTransferred = true ∧ d.linked = true
  lifecycle : d.lifecycleOwned = decide (d.direction = Direction.sink.code)
  callToken : d.callControlCorrelated = decide (d.callControlToken ≠ 0)
  preset : d.presetOK = true ∧ d.intervalUS = d.frameDurationUS
  allocation : d.channelAllocation ≠ 0 ∧ onesCount32 d.channelAllocation = 1
  parameters : ¬ (d.framing > 1 ∨ d.phy &&& 0x02 = 0 ∨ d.retransmissions = 0
    ∨ d.retransmissions > 13 ∨ d.targetLatency < 1 ∨ d.targetLatency > 3
    ∨ d.cig > 0xef ∨ d.cis > 0xef)
  latency : ¬ (d.latencyMS = 0 ∨ d.latencyMS > 100
    ∨ d.presentationDelayUS = 0 ∨ d.presentationDelayUS > 0x00ffffff)
  mtu : ¬ (d.readMTU > 4096 ∨ d.writeMTU > 4096
    ∨ (d.direction = Direction.sink.code ∧ d.readMTU < d.octetsPerFrame)
    ∨ (d.direction = Direction.source.code
      ∧ d.writeMTU < d.octetsPerFrame))
  path : ¬ (d.transport.length = 0 ∨ d.transport.length > maximumTransport
    ∨ byteAt d.transport 0 ≠ 0x2f ∨ 0x00 ∈ d.transport)

/-- The checks pass exactly the valid descriptors. -/
theorem validateDescriptor_none :
    validateDescriptor d = none ↔ d.Valid := by
  simp only [validateDescriptor, ite_some_eq_none, and_true]
  constructor
  · rintro ⟨h₁, h₂, h₃, h₄, h₅, h₆, h₇, h₈, h₉, h₁₀, h₁₁⟩
    refine ⟨?_, not_or.mp h₂, ?_, not_not.mp h₄, not_not.mp h₅, ?_, ?_, h₈,
      h₉, h₁₀, h₁₁⟩
    · by_cases hsink : d.direction = Direction.sink.code
      · exact Or.inl hsink
      · exact Or.inr (not_not.mp fun hsource => h₁ ⟨hsink, hsource⟩)
    · simpa using h₃
    · simpa using h₆
    · simpa using h₇
  · intro h
    refine ⟨?_, not_or.mpr h.generation, ?_, not_not.mpr h.lifecycle,
      not_not.mpr h.callToken, ?_, ?_, h.parameters, h.latency, h.mtu,
      h.path⟩
    · rintro ⟨hsink, hsource⟩
      exact h.direction.elim hsink hsource
    · simp [h.owned]
    · simp [h.preset]
    · simp [h.allocation]

/-- A valid descriptor survives its packet. -/
theorem decodeDescriptor_packet (h : validateDescriptor d = none) :
    decodeDescriptor d.packet = .ok d := by
  have hvalid := validateDescriptor_none.mp h
  have hpath := hvalid.path
  simp only [not_or, not_lt, maximumTransport] at hpath
  have hlen : (UInt16.ofNat d.transport.length).toNat
      = d.transport.length := by
    rw [UInt16.toNat_ofNat']
    omega
  have hread := readDescriptor_packet hvalid.owned.1 hvalid.owned.2
  simp only [decodeDescriptor, if_neg (not_handoffHeaderRefused d),
    pathLength_packet, hlen, packet_length, hread, encodeDescriptor, h]
  exact if_neg (by unfold maximumTransport; omega)

-- == packets it accepts

/-- The flags byte that passes the header check is the one its two facts
give. -/
theorem flags_of_known {f : UInt8} (hknown : f &&& ~~~handoffKnownFlags = 0)
    (howned : f &&& handoffFlagOwnership ≠ 0)
    (hlinked : f &&& handoffFlagLinked ≠ 0) :
    handoffFlagOwnership ||| handoffFlagLinked
      ||| (if f &&& handoffFlagCallToken != 0 then handoffFlagCallToken
        else 0)
      ||| (if f &&& handoffFlagLifecycle != 0 then handoffFlagLifecycle
        else 0) = f := by
  obtain ⟨v⟩ := f
  revert v
  decide

/-- A packet whose header and length are accepted is laid out by the
descriptor that is read off it. -/
theorem packet_readDescriptor (hhead : ¬ handoffHeaderRefused p)
    (hlen : p.length
      = handoffHeaderSize + (uint16 (slice p 66 68)).toNat) :
    (readDescriptor p).packet = p := by
  simp only [handoffHeaderRefused, not_or, not_not, not_lt] at hhead
  obtain ⟨hsize, hmagic, hversion, hcount, hknown, howned, hlinked, hzero⟩ :=
    hhead
  have hsize' : 72 ≤ p.length := hsize
  have hpath : (p.drop 72).length = (uint16 (slice p 66 68)).toNat := by
    rw [List.length_drop, hlen]
    exact Nat.add_sub_cancel_left _ _
  -- no flag outside the known ones is set
  have hflags : (readDescriptor p).flags = byteAt p 7 :=
    flags_of_known hknown howned hlinked
  have hhead : p.take 72 = (readDescriptor p).head := by
    -- cut at the field boundaries, then read field by field
    calc p.take 72 = slice p 0 72 := rfl
      _ = slice p 0 4 ++ (slice p 4 8 ++ (slice p 8 16 ++ (slice p 16 24
          ++ (slice p 24 32 ++ (slice p 32 36 ++ (slice p 36 40
          ++ (slice p 40 44 ++ (slice p 44 48 ++ (slice p 48 52
          ++ (slice p 52 54 ++ (slice p 54 56 ++ (slice p 56 58
          ++ (slice p 58 60 ++ (slice p 60 66 ++ (slice p 66 68
          ++ slice p 68 72))))))))))))))) := by
        repeat rw [← slice_split p (by omega) (by omega)]
      _ = (readDescriptor p).head := by
        rw [hmagic, slice_eq_bytes p 4 4 (by omega),
          slice_eq_uint64 p 8 (by omega), slice_eq_uint64 p 16 (by omega),
          slice_eq_uint64 p 24 (by omega), slice_eq_uint32 p 32 (by omega),
          slice_eq_uint32 p 36 (by omega), slice_eq_uint32 p 40 (by omega),
          slice_eq_uint32 p 44 (by omega), slice_eq_uint32 p 48 (by omega),
          slice_eq_uint16 p 52 (by omega), slice_eq_uint16 p 54 (by omega),
          slice_eq_uint16 p 56 (by omega), slice_eq_uint16 p 58 (by omega),
          slice_eq_bytes p 60 6 (by omega),
          slice_eq_uint16 p 66 (by omega), slice_eq_uint32 p 68 (by omega),
          hzero, Descriptor.head, hflags]
        show _ ++ ([byteAt p 4, byteAt p 5, byteAt p 6, byteAt p 7] ++ _)
          = _
        rw [hversion, hcount]
        show _ = _ ++ (_ ++ (_ ++ (_ ++ (_ ++ (_ ++ (_ ++ (_ ++ (_ ++ (_
          ++ (_ ++ (_ ++ (_ ++ (_ ++ (_ ++ (putUint16 (UInt16.ofNat
            (p.drop 72).length) ++ _)))))))))))))))
        rw [hpath, UInt16.ofNat_toNat]
        rfl
  rw [packet_eq, ← hhead]
  exact List.take_append_drop 72 p

/-- What `decodeDescriptor` accepts. -/
theorem decodeDescriptor_ok (h : decodeDescriptor p = .ok d) :
    validateDescriptor d = none ∧ d.packet = p := by
  simp only [decodeDescriptor, encodeDescriptor] at h
  split at h
  case isTrue => cases h
  case isFalse hhead =>
    split at h
    case isTrue => cases h
    case isFalse hlen =>
      rw [not_or, not_or, not_not] at hlen
      cases hvalid : validateDescriptor (readDescriptor p) with
      | some e =>
        rw [hvalid] at h
        cases h
      | none =>
        rw [hvalid] at h
        cases h
        exact ⟨hvalid, packet_readDescriptor hhead hlen.2.2⟩

-- == the theorem

/-- `encodeDescriptor` and `decodeDescriptor` undo each other: on every
descriptor that is valid and on every packet that is accepted. -/
theorem descriptor_codec_bijection :
    (∀ d : Descriptor, validateDescriptor d = none →
      ∃ p, encodeDescriptor d = .ok p ∧ decodeDescriptor p = .ok d)
      ∧ ∀ (p : Bytes) (d : Descriptor), decodeDescriptor p = .ok d →
        encodeDescriptor d = .ok p := by
  constructor
  · intro d h
    refine ⟨d.packet, ?_, decodeDescriptor_packet h⟩
    simp only [encodeDescriptor, h]
  · intro p d h
    obtain ⟨hvalid, hpacket⟩ := decodeDescriptor_ok h
    simp only [encodeDescriptor, hvalid, hpacket]

/-- The sink descriptor of a correlated call, there and back. -/
theorem descriptor_codec_bijection_sink :
    ∃ (d : Descriptor) (p : Bytes), validateDescriptor d = none
      ∧ encodeDescriptor d = .ok p ∧ decodeDescriptor p = .ok d := by
  obtain ⟨p, _, hdec⟩ := descriptor_codec_bijection.1
    ⟨1, 5, 5, 7, true, true, true, true, 32000, 10000, 80, 1, 10000, 40000,
      80, 80, 10, 0, 2, 2, 2, 0, 0, [0x2f, 0x64]⟩ (by decide)
  exact ⟨_, p, by decide, descriptor_codec_bijection.2 p _ hdec, hdec⟩

-- == lifecycle messages

variable {packet : Bytes}

/-- The message of a type and an identity. -/
def lifecyclePacket (kind : UInt8) (identity : LifecycleProgress) : Bytes :=
  lifecycleMagic ++ ([lifecycleVersion, kind, 0, 0]
    ++ (putUint64 identity.bundleID ++ (putUint64 identity.sinkGeneration
      ++ putUint64 identity.sourceGeneration)))

theorem readLifecycle_packet (kind : UInt8) (identity : LifecycleProgress) :
    readLifecycle (lifecyclePacket kind identity) = identity := by
  show LifecycleProgress.mk (uint64 (putUint64 _)) (uint64 (putUint64 _))
    (uint64 (putUint64 _)) = identity
  rw [uint64_put, uint64_put, uint64_put]

/-- A packet of the size is its fields. -/
theorem eq_lifecyclePacket (hlen : packet.length = 32)
    (hmagic : slice packet 0 4 = lifecycleMagic)
    (hversion : byteAt packet 4 = lifecycleVersion)
    (h6 : byteAt packet 6 = 0) (h7 : byteAt packet 7 = 0) :
    packet = lifecyclePacket (byteAt packet 5) (readLifecycle packet) := by
  have hfour : slice packet 4 8
      = [lifecycleVersion, byteAt packet 5, 0, 0] := by
    rw [slice_eq_bytes packet 4 4 (by omega), ← hversion]
    show [_, _, byteAt packet 6, byteAt packet 7] = _
    rw [h6, h7]
  unfold lifecyclePacket readLifecycle
  rw [← hmagic, ← hfour, ← slice_eq_uint64 packet 8 (by omega),
    ← slice_eq_uint64 packet 16 (by omega),
    ← slice_eq_uint64 packet 24 (by omega), ← slice_split packet,
    ← slice_split packet, ← slice_split packet, ← slice_split packet]
  · exact (hlen ▸ slice_all packet).symm
  all_goals decide

/-- `decodeLifecycleMessage` accepts exactly the messages of the two types
with an identity that has no zero in it, and reads both off them. -/
theorem lifecycle_message_exact (packet : Bytes) (kind : UInt8)
    (identity : LifecycleProgress) :
    decodeLifecycleMessage packet = .ok (kind, identity)
      ↔ packet = lifecyclePacket kind identity
        ∧ (kind = lifecycleTypeProgress ∨ kind = lifecycleTypeNormalEnd)
        ∧ identity.bundleID ≠ 0 ∧ identity.sinkGeneration ≠ 0
        ∧ identity.sourceGeneration ≠ 0 := by
  unfold decodeLifecycleMessage
  constructor
  · intro h
    split at h
    · cases h
    case isFalse hhead =>
      push Not at hhead
      obtain ⟨hlen, hmagic, hversion, hkind, h6, h7⟩ := hhead
      split at h
      · cases h
      case isFalse hids =>
        cases h
        push Not at hids
        exact ⟨eq_lifecyclePacket hlen hmagic hversion h6 h7,
          or_iff_not_imp_left.mpr hkind, hids⟩
  · rintro ⟨rfl, hkind, hids⟩
    rw [readLifecycle_packet, if_neg, if_neg]
    · rfl
    · simpa using hids
    · rintro (h | h | h | h | h | h)
      case inr.inr.inr.inl => exact hkind.elim h.1 h.2
      all_goals exact h rfl

end Callbridge.Bluez
