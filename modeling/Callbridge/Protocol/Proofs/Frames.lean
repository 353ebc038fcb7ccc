/-
The packets whose header `Decode` accepts, as values: a `Frame` holds what
such a packet carries, and `Frame.bytes` lays it out; the packets that
pass the header checks are exactly these (`exists_frame`). What
`Decode` reads and `Encode` writes are equations over frames, and no proof
past this file looks at an offset.
-/
import Callbridge.Protocol.Codec
import Callbridge.Protocol.Proofs.Device

namespace Callbridge.Protocol

open Lib

-- == frames

structure Frame where
  type : UInt8
  flags : UInt8
  sequence : UInt64
  token : UInt64
  index : UInt8
  code : UInt8
  value : UInt8
  payloadLength : UInt16
  device : Bytes
  area : Bytes
  device_length : device.length = 17
  area_length : area.length = payloadSize

/-- The bytes in front of the device field. -/
def Frame.head (f : Frame) : Bytes :=
  magic ++ ([version, f.type, f.flags, 0] ++ (putUint64 f.sequence
    ++ (putUint64 f.token ++ ([f.index, f.code, f.value, 0]
      ++ (putUint16 f.payloadLength ++ [0, 0])))))

def Frame.bytes (f : Frame) : Bytes := f.head ++ (f.device ++ 0 :: f.area)

variable (f : Frame)

theorem head_length : f.head.length = 32 := rfl

theorem bytes_length : f.bytes.length = packetSize := by
  rw [Frame.bytes, List.length_append, List.length_append, head_length,
    f.device_length, List.length_cons, f.area_length]
  rfl

-- == the reading

theorem slice_head {i j : Nat} (h : j ≤ 32) :
    slice f.bytes i j = slice f.head i j :=
  slice_append_left _ _ (by rw [head_length]; exact h)

theorem byteAt_head {i : Nat} (h : i < 32) :
    byteAt f.bytes i = byteAt f.head i :=
  byteAt_append_left _ _ (by rw [head_length]; exact h)

theorem slice_device : slice f.bytes 32 49 = f.device := by
  have hlen : slice f.bytes (f.head.length + 0) (f.head.length + 17)
      = slice (f.device ++ 0 :: f.area) 0 17 := slice_append_right _ _ 0 17
  rw [head_length] at hlen
  rw [hlen, slice_append_left _ _ (by rw [f.device_length])]
  conv => lhs; rw [← f.device_length]
  exact slice_all _

theorem byteAt_stop : byteAt f.bytes 49 = 0 := by
  have h₁ : byteAt f.bytes (f.head.length + 17)
      = byteAt (f.device ++ 0 :: f.area) 17 := byteAt_append_right _ _ 17
  have h₂ : byteAt (f.device ++ 0 :: f.area) (f.device.length + 0)
      = byteAt (0 :: f.area) 0 := byteAt_append_right _ _ 0
  rw [f.device_length] at h₂
  exact h₁.trans h₂

theorem drop_area (n : Nat) : f.bytes.drop (50 + n) = f.area.drop n := by
  have hsplit : f.bytes = (f.head ++ (f.device ++ [0])) ++ f.area := by
    simp [Frame.bytes]
  have hlen : (f.head ++ (f.device ++ [0])).length = 50 := by
    rw [List.length_append, List.length_append, head_length,
      f.device_length]
    rfl
  rw [hsplit, ← hlen, List.drop_append, List.drop_eq_nil_of_le (by omega),
    Nat.add_sub_cancel_left, List.nil_append]

theorem slice_area (n : Nat) :
    slice f.bytes 50 (50 + n) = f.area.take n := by
  have h := drop_area f 0
  rw [slice, h, Nat.add_sub_cancel_left]
  rfl

/-- The message a frame carries. -/
def Frame.message : Message where
  type := f.type
  flags := f.flags
  sequence := f.sequence
  token := f.token
  device := f.device.takeWhile (· != 0)
  index := f.index
  code := f.code
  value := f.value
  payload := f.area.take f.payloadLength.toNat

theorem readMessage_bytes :
    readMessage f.bytes f.payloadLength.toNat = f.message := by
  have hseq : slice f.bytes 8 16 = putUint64 f.sequence :=
    slice_head f (by decide)
  have htok : slice f.bytes 16 24 = putUint64 f.token :=
    slice_head f (by decide)
  simp only [readMessage, Frame.message, deviceText, hseq, htok, uint64_put,
    slice_device, slice_area]
  rfl

theorem payloadLength_bytes :
    uint16 (slice f.bytes 28 30) = f.payloadLength := by
  have h : slice f.bytes 28 30 = putUint16 f.payloadLength :=
    slice_head f (by decide)
  rw [h, uint16_put]

/-- Every frame passes the header checks. -/
theorem not_headerRefused_bytes : ¬ headerRefused f.bytes := by
  have hres : slice f.bytes 30 32 = putUint16 0 := slice_head f (by decide)
  unfold headerRefused
  rw [bytes_length, hres, uint16_put, byteAt_stop]
  rintro (h | h | h | h | h | h | h)
  · exact h rfl
  · exact h (slice_head f (by decide))
  · exact h (byteAt_head f (by decide))
  · exact h (byteAt_head f (by decide))
  · exact h (byteAt_head f (by decide))
  · exact h rfl
  · exact h rfl

/-- `Decode` on a packet whose header it accepts. -/
theorem decode_bytes :
    decode f.bytes
      = if f.payloadLength.toNat > payloadSize then .error .payloadBound
        else if (f.area.drop f.payloadLength.toNat).any (· != 0) then
          .error .padding
        else
          match validate f.message with
          | some e => .error e
          | none => .ok f.message := by
  rw [← drop_area, ← readMessage_bytes, ← payloadLength_bytes]
  exact if_neg (not_headerRefused_bytes f)

-- == packets and frames

/-- The frame of a packet of the right length. -/
def frameOf (p : Bytes) (h : p.length = packetSize) : Frame where
  type := byteAt p 5
  flags := byteAt p 6
  sequence := uint64 (slice p 8 16)
  token := uint64 (slice p 16 24)
  index := byteAt p 24
  code := byteAt p 25
  value := byteAt p 26
  payloadLength := uint16 (slice p 28 30)
  device := slice p 32 49
  area := slice p 50 128
  device_length := slice_length (by rw [h]; decide)
  area_length := slice_length (by rw [h]; decide)

/-- A packet that passes the header checks is the layout of a frame. -/
theorem exists_frame {p : Bytes} (h : ¬ headerRefused p) :
    ∃ f : Frame, p = f.bytes := by
  simp only [headerRefused, not_or, not_not] at h
  obtain ⟨hlen, hmagic, hversion, h7, h27, h30, h49⟩ := h
  have hlen' : p.length = 128 := hlen
  refine ⟨frameOf p hlen, ?_⟩
  -- cut at the field boundaries, then read field by field
  calc p = slice p 0 128 := by rw [← hlen', slice_all]
    _ = slice p 0 4 ++ (slice p 4 8 ++ (slice p 8 16 ++ (slice p 16 24
          ++ (slice p 24 28 ++ (slice p 28 30 ++ (slice p 30 32
            ++ (slice p 32 49 ++ (slice p 49 50 ++ slice p 50 128)))))))) := by
      repeat rw [← slice_split p (by omega) (by omega)]
    _ = (frameOf p hlen).bytes := by
      rw [hmagic, slice_eq_bytes p 4 4 (by omega),
        slice_eq_bytes p 24 4 (by omega),
        slice_eq_uint16 p 30 (by omega), h30,
        slice_eq_uint64 p 8 (by omega), slice_eq_uint64 p 16 (by omega),
        slice_eq_uint16 p 28 (by omega),
        slice_cons (show 49 < 50 by decide) (by omega), slice_self, h49]
      show _ ++ ([byteAt p 4, byteAt p 5, byteAt p 6, byteAt p 7] ++ (_ ++ (_
        ++ ([byteAt p 24, byteAt p 25, byteAt p 26, byteAt p 27] ++ _)))) = _
      rw [hversion, h7, h27]
      rfl

-- == the writing

/-- The frame of a message whose payload fits. -/
def Message.frame (m : Message) (h : m.payload.length ≤ payloadSize) :
    Frame where
  type := m.type
  flags := m.flags
  sequence := m.sequence
  token := m.token
  index := m.index
  code := m.code
  value := m.value
  payloadLength := UInt16.ofNat m.payload.length
  device := zeroPad 17 (m.device.take 17)
  area := zeroPad payloadSize m.payload
  device_length := zeroPad_length (List.length_take_le _ _)
  area_length := zeroPad_length h

/-- `Encode` lays out the frame of its message. -/
theorem packet_eq {m : Message} (h : m.payload.length ≤ payloadSize) :
    m.packet = (m.frame h).bytes := by
  have hpayload : m.payload.take (packetSize - 50) = m.payload :=
    List.take_of_length_le h
  have hdevice : (m.device.take 17).length ≤ 17 := List.length_take_le _ _
  have hasc : Ascending packetSize 0 m.fields := by
    simp only [Message.fields, Ascending, putUint64, putUint16,
      leBytes_length, magic, List.length_cons, List.length_nil, packetSize,
      List.length_take]
    omega
  -- the device field and the payload area are what is left to compare
  have hlaid : laidOut packetSize 0 m.fields
      = (m.frame h).head ++ (m.device.take 17
        ++ (List.replicate (50 - (32 + (m.device.take 17).length)) 0
          ++ (m.payload.take (packetSize - 50) ++ List.replicate
            (packetSize
              - (50 + (m.payload.take (packetSize - 50)).length)) 0))) :=
    rfl
  have hgap : 50 - (32 + (m.device.take 17).length)
      = (17 - (m.device.take 17).length) + 1 := by omega
  have htail : packetSize - (50 + m.payload.length)
      = payloadSize - m.payload.length := by
    unfold payloadSize packetSize
    omega
  rw [Message.packet, fill_eq hasc, hlaid, hpayload, hgap, htail,
    List.replicate_succ']
  simp [Frame.bytes, Message.frame, zeroPad]

end Callbridge.Protocol
