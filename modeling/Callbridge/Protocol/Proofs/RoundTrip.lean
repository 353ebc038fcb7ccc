/-
The codec against itself. On messages whose device address is canonical
`Encode` and `Decode` undo each other (`codec_bijection`). `Decode` ends
the device text at the first NUL and does not look at what follows it, so
a packet is the only one of its message exactly when no NUL comes before
the field's last byte (`packet_canonical_iff`).
-/
import Mathlib.Data.List.TakeWhile
import Callbridge.Protocol.Proofs.Frames

namespace Callbridge.Protocol

open Lib

variable {p : Bytes} {m : Message} {l : Bytes} {f : Frame}

-- == identities

/-- The payload of an identity, taken apart. -/
theorem decodeIdentity_strings {uri name : Bytes} (hu : uri.length ≤ 32)
    (hn : name.length ≤ 44) :
    decodeIdentity (UInt8.ofNat uri.length :: uri
        ++ UInt8.ofNat name.length :: name) = .ok ⟨uri, name⟩ := by
  generalize hp : UInt8.ofNat uri.length :: uri
    ++ UInt8.ofNat name.length :: name = payload
  have hsplit : payload = [UInt8.ofNat uri.length]
      ++ (uri ++ ([UInt8.ofNat name.length] ++ name)) := by
    rw [← hp]
    simp
  have hlen : payload.length = 1 + (uri.length + (1 + name.length)) := by
    rw [hsplit]
    simp
    omega
  have hlength : ∀ l : Bytes, l.length ≤ 44 →
      (UInt8.ofNat l.length).toNat = l.length := by
    intro l hl
    rw [UInt8.toNat_ofNat']
    omega
  -- the two length bytes, then the texts behind them
  have huri : (byteAt payload 0).toNat = uri.length := by
    rw [hsplit]
    exact hlength uri (by omega)
  have hname : (byteAt payload (1 + uri.length)).toNat = name.length := by
    have h₁ := byteAt_append_right [UInt8.ofNat uri.length]
      (uri ++ ([UInt8.ofNat name.length] ++ name)) (uri.length + 0)
    have h₂ := byteAt_append_right uri ([UInt8.ofNat name.length] ++ name) 0
    rw [hsplit]
    exact (congrArg UInt8.toNat (h₁.trans h₂)).trans (hlength name hn)
  have huriText : slice payload 1 (1 + uri.length) = uri := by
    have h₁ := slice_append_right [UInt8.ofNat uri.length]
      (uri ++ ([UInt8.ofNat name.length] ++ name)) 0 uri.length
    rw [slice_append_left _ _ (Nat.le_refl _), slice_all] at h₁
    rw [hsplit]
    exact h₁
  have hnameText : slice payload (1 + uri.length + 1)
      (1 + uri.length + 1 + name.length) = name := by
    have h₁ := slice_append_right ([UInt8.ofNat uri.length]
      ++ (uri ++ [UInt8.ofNat name.length])) name 0 name.length
    have h₂ : ([UInt8.ofNat uri.length]
        ++ (uri ++ [UInt8.ofNat name.length])).length
        = 1 + uri.length + 1 := by
      simp
      omega
    rw [h₂, slice_all] at h₁
    rw [hsplit]
    simpa using h₁
  unfold decodeIdentity decodeName
  rw [if_neg (by omega), huri]
  rw [if_neg (by show ¬ (uri.length > 32 ∨ _); omega)]
  simp only [hname, huriText, hnameText]
  rw [if_neg (by show ¬ (name.length > 44 ∨ _); omega)]

/-- An identity within its bounds survives its payload, which fits. -/
theorem decodeIdentity_encodeIdentity {identity : Identity}
    (huri : identity.uri.length ≤ identityURIMax)
    (hname : identity.name.length ≤ identityNameMax) :
    ∃ payload, encodeIdentity identity = .ok payload
      ∧ decodeIdentity payload = .ok identity
      ∧ payload.length ≤ payloadSize := by
  obtain ⟨uri, name⟩ := identity
  have hu : uri.length ≤ 32 := huri
  have hn : name.length ≤ 44 := hname
  unfold encodeIdentity
  split
  case isTrue hempty =>
    obtain ⟨rfl, rfl⟩ : uri = [] ∧ name = [] := hempty
    exact ⟨[], rfl, rfl, Nat.zero_le _⟩
  case isFalse =>
    rw [if_neg (by show ¬ (uri.length > 32 ∨ name.length > 44); omega)]
    refine ⟨_, rfl, decodeIdentity_strings hu hn, ?_⟩
    show _ ≤ 78
    simp
    omega

-- == what is accepted

/-- `Decode` accepts the frames whose padding is zero and whose message is
valid. -/
theorem decode_ok_iff :
    decode p = .ok m ↔ ∃ f : Frame, p = f.bytes
      ∧ f.payloadLength.toNat ≤ payloadSize
      ∧ (∀ b ∈ f.area.drop f.payloadLength.toNat, b = 0)
      ∧ validate f.message = none ∧ m = f.message := by
  constructor
  · intro h
    have hhead : ¬ headerRefused p := by
      intro hrefused
      rw [decode, if_pos hrefused] at h
      cases h
    obtain ⟨f, rfl⟩ := exists_frame hhead
    rw [decode_bytes] at h
    split at h
    case isTrue => cases h
    case isFalse hbound =>
      split at h
      case isTrue => cases h
      case isFalse hpad =>
        split at h
        case h_1 => cases h
        case h_2 hvalid =>
          cases h
          refine ⟨f, rfl, by omega, ?_, hvalid, rfl⟩
          simpa using hpad
  · rintro ⟨f, rfl, hbound, hpad, hvalid, rfl⟩
    have hany : ¬ (f.area.drop f.payloadLength.toNat).any (· != 0)
        = true := by
      simpa using hpad
    rw [decode_bytes, if_neg (by omega), if_neg hany, hvalid]

/-- A valid message has a payload that fits and a device address. -/
theorem validate_none (h : validate m = none) :
    m.payload.length ≤ payloadSize ∧ normalizedDevice m.device ≠ [] := by
  unfold validate at h
  split at h
  case isTrue => cases h
  case isFalse hfirst =>
    split at h
    case isTrue => cases h
    case isFalse hdevice =>
      push Not at hfirst
      exact ⟨hfirst.2.2.2.2, hdevice⟩

theorem encode_ok_iff :
    m.encode = .ok p ↔ validate m = none ∧ p = m.packet := by
  unfold Message.encode
  cases hv : validate m with
  | some e => simp
  | none => simp [eq_comm]

-- == decoding an encoding

theorem frame_payloadLength (h : m.payload.length ≤ payloadSize) :
    (m.frame h).payloadLength.toNat = m.payload.length := by
  have hbound : m.payload.length ≤ 78 := h
  show (UInt16.ofNat m.payload.length).toNat = _
  rw [UInt16.toNat_ofNat']
  omega

/-- The frame of a message whose device fills its field carries the
message, with zeros behind the payload. -/
theorem frame_message (h : m.payload.length ≤ payloadSize)
    (hlen : m.device.length = 17) (hnul : ∀ b ∈ m.device, b ≠ 0) :
    (m.frame h).message = m
      ∧ ∀ b ∈ (m.frame h).area.drop (m.frame h).payloadLength.toNat,
        b = 0 := by
  have hdevice : (m.frame h).device = m.device := by
    show zeroPad 17 (m.device.take 17) = m.device
    rw [List.take_of_length_le (by omega), zeroPad, hlen]
    exact List.append_nil _
  have harea : (m.frame h).area = m.payload
      ++ List.replicate (payloadSize - m.payload.length) 0 := rfl
  have htext : m.device.takeWhile (· != 0) = m.device :=
    List.takeWhile_eq_self_iff.mpr (by simpa using hnul)
  constructor
  · unfold Frame.message
    rw [frame_payloadLength, harea, hdevice, List.take_left, htext]
    rfl
  · intro b hb
    rw [frame_payloadLength, harea, List.drop_left] at hb
    exact (List.mem_replicate.mp hb).2

-- == encoding a decoding

/-- A field whose tail is zero is its front, padded. -/
theorem zeroPad_take {n k : Nat} (hlen : l.length = n) (hk : k ≤ n)
    (h : ∀ b ∈ l.drop k, b = 0) : zeroPad n (l.take k) = l := by
  have htail : l.drop k = List.replicate (n - k) 0 := by
    rw [List.eq_replicate_iff]
    exact ⟨by rw [List.length_drop, hlen], h⟩
  have hfront : (l.take k).length = k := by
    rw [List.length_take, hlen]
    omega
  rw [zeroPad, hfront, ← htail, List.take_append_drop]

/-- A frame with zeros behind its payload, and a device text that fills the
field, is the frame of its message. -/
theorem message_frame (hcount : f.payloadLength.toNat ≤ payloadSize)
    (hpad : ∀ b ∈ f.area.drop f.payloadLength.toNat, b = 0)
    (hfull : f.message.device.length = 17)
    (h : f.message.payload.length ≤ payloadSize) :
    f.message.frame h = f := by
  have hlen : f.message.payload.length = f.payloadLength.toNat := by
    show (f.area.take f.payloadLength.toNat).length = _
    rw [List.length_take, f.area_length]
    omega
  have hword : UInt16.ofNat f.message.payload.length = f.payloadLength := by
    rw [hlen, UInt16.ofNat_toNat]
  have hdevice : zeroPad 17 (f.message.device.take 17) = f.device := by
    have hpre : f.message.device <+: f.device := List.takeWhile_prefix _
    have hsame := hpre.eq_of_length (by rw [hfull, f.device_length])
    rw [hsame, List.take_of_length_le (by rw [f.device_length]), zeroPad,
      f.device_length]
    exact List.append_nil _
  have harea : zeroPad payloadSize f.message.payload = f.area :=
    zeroPad_take f.area_length hcount hpad
  unfold Message.frame
  simp only [hword, hdevice, harea]
  rfl

/-- What was encoded decodes to the message it came from. -/
theorem decode_packet (hcanon : normalizedDevice m.device = m.device)
    (hvalid : validate m = none) : decode m.packet = .ok m := by
  obtain ⟨hbound, hdevice⟩ := validate_none hvalid
  obtain ⟨hlen, hnul⟩ := canonical_spec hcanon (hcanon ▸ hdevice)
  obtain ⟨hmessage, hpad⟩ := frame_message hbound hlen hnul
  refine decode_ok_iff.mpr ⟨m.frame hbound, packet_eq hbound, ?_, hpad, ?_,
    hmessage.symm⟩
  · rw [frame_payloadLength]
    exact hbound
  · rw [hmessage]
    exact hvalid

/-- `Encode` and `Decode` undo each other on messages whose device address
is in its canonical form. -/
theorem codec_bijection :
    (∀ m p, normalizedDevice m.device = m.device → m.encode = .ok p →
      decode p = .ok m)
    ∧ ∀ p m, decode p = .ok m → normalizedDevice m.device = m.device →
      m.encode = .ok p := by
  constructor
  · intro m p hcanon hencode
    obtain ⟨hvalid, hp⟩ := encode_ok_iff.mp hencode
    rw [hp, decode_packet hcanon hvalid]
  · intro p m hdecode hcanon
    obtain ⟨f, hp, hcount, hpad, hvalid, rfl⟩ := decode_ok_iff.mp hdecode
    obtain ⟨hbound, hdevice⟩ := validate_none hvalid
    obtain ⟨hlen, -⟩ := canonical_spec hcanon (hcanon ▸ hdevice)
    refine encode_ok_iff.mpr ⟨hvalid, ?_⟩
    rw [packet_eq hbound, message_frame hcount hpad hlen, hp]

/-- A ringing call with a caller, in a snapshot of its own. -/
def ringing : Message where
  type := typeState
  flags := flagSnapshot ||| flagLast
  sequence := 0x0102030405060708
  token := 9
  device := upperAddress [0x00, 0x11, 0x22, 0xaa, 0xbb, 0xcc]
  index := 1
  code := 0
  value := 0
  payload := [2, 0x31, 0x32, 0]

/-- There and back, on a message with every field in use. -/
theorem codec_bijection_ringing :
    ∃ p, ringing.encode = .ok p ∧ decode p = .ok ringing := by
  have hcanon : normalizedDevice ringing.device = ringing.device := by
    decide +kernel
  have hvalid : validate ringing = none := by decide +kernel
  have hencode : ringing.encode = .ok ringing.packet :=
    encode_ok_iff.mpr ⟨hvalid, rfl⟩
  have hdecode := codec_bijection.1 ringing ringing.packet hcanon hencode
  exact ⟨ringing.packet, codec_bijection.2 _ ringing hdecode hcanon, hdecode⟩

-- == the only packet

/-- The bytes of a packet that carry no field: the reserved ones, the
device field behind the device text and the payload area behind the
payload. -/
def unused (p : Bytes) (i : Nat) : Prop :=
  i ∈ [7, 27, 30, 31, 49]
    ∨ 32 + (deviceText p).length ≤ i ∧ i < 49
    ∨ 50 + (uint16 (slice p 28 30)).toNat ≤ i ∧ i < packetSize

theorem deviceText_bytes (f : Frame) :
    deviceText f.bytes = f.message.device := by
  rw [deviceText, slice_device]
  rfl

theorem byteAt_device (f : Frame) {j : Nat} (h : j < 17) :
    byteAt f.bytes (32 + j) = byteAt f.device j := by
  have hrest : byteAt f.bytes (f.head.length + j)
      = byteAt (f.device ++ 0 :: f.area) j := byteAt_append_right _ _ j
  rw [head_length] at hrest
  rw [hrest, byteAt_append_left _ _ (by rw [f.device_length]; exact h)]

/-- The text ends at a NUL or with the field. -/
theorem text_stop (h : (l.takeWhile (· != 0)).length < l.length) :
    byteAt l (l.takeWhile (· != 0)).length = 0 := by
  induction l with
  | nil => cases h
  | cons b rest ih =>
    by_cases hb : b = 0
    · subst hb
      rfl
    · have htext : (b :: rest).takeWhile (· != 0)
          = b :: rest.takeWhile (· != 0) := by simp [hb]
      rw [htext] at h ⊢
      exact ih (Nat.lt_of_succ_lt_succ h)

/-- A field whose text leaves at most one byte is the text, padded. -/
theorem zeroPad_text (hlen : l.length = 17)
    (h : 16 ≤ (l.takeWhile (· != 0)).length) :
    zeroPad 17 (l.takeWhile (· != 0)) = l := by
  have hsplit := List.takeWhile_append_dropWhile (p := (· != 0)) (l := l)
  have hsum : (l.takeWhile (· != 0)).length
      + (l.dropWhile (· != 0)).length = 17 := by
    rw [← List.length_append, hsplit, hlen]
  have hrest : l.dropWhile (· != 0)
      = List.replicate (17 - (l.takeWhile (· != 0)).length) 0 := by
    rw [List.eq_replicate_iff]
    refine ⟨by omega, fun b hb => ?_⟩
    -- the one byte left is the NUL the text stopped at
    obtain ⟨c, hc⟩ : ∃ c, l.dropWhile (· != 0) = [c] := by
      apply List.length_eq_one_iff.mp
      have := List.length_pos_of_mem hb
      omega
    have hstop := text_stop (l := l) (by rw [hc] at hsum; simp at hsum; omega)
    rw [hc] at hb hsplit
    rw [List.mem_singleton.mp hb]
    have hget : byteAt (l.takeWhile (· != 0) ++ [c])
        ((l.takeWhile (· != 0)).length + 0) = c :=
      byteAt_append_right _ [c] 0
    rw [hsplit] at hget
    exact hget.symm.trans hstop
  rw [zeroPad, ← hrest, hsplit]

/-- The text reaches the last byte when no NUL comes before it. -/
theorem text_long (hlen : l.length = 17) (h : ∀ j < 16, byteAt l j ≠ 0) :
    16 ≤ (l.takeWhile (· != 0)).length := by
  by_contra hshort
  exact h _ (by omega) (text_stop (by omega))

/-- Behind a NUL the last byte of the field is not looked at. -/
theorem text_last {x : UInt8} (h : ∃ b ∈ l, b = 0) (y : UInt8) :
    (l ++ [y]).takeWhile (· != 0) = (l ++ [x]).takeWhile (· != 0) := by
  have hshort : (l.takeWhile (· != 0)).length ≠ l.length := by
    intro heq
    obtain ⟨b, hb, h0⟩ := h
    have hall := List.takeWhile_eq_self_iff.mp
      ((List.takeWhile_prefix _).eq_of_length heq) b hb
    rw [h0] at hall
    cases hall
  rw [List.takeWhile_append, List.takeWhile_append, if_neg hshort,
    if_neg hshort]

/-- Two frames with zeros behind their payloads that carry one message
differ at most in the device field. -/
theorem frame_eq {g : Frame} (hf : f.payloadLength.toNat ≤ payloadSize)
    (hg : g.payloadLength.toNat ≤ payloadSize)
    (hfpad : ∀ b ∈ f.area.drop f.payloadLength.toNat, b = 0)
    (hgpad : ∀ b ∈ g.area.drop g.payloadLength.toNat, b = 0)
    (hm : g.message = f.message) (hdev : g.device = f.device) : g = f := by
  have hlen : ∀ e : Frame, e.payloadLength.toNat ≤ payloadSize →
      e.message.payload.length = e.payloadLength.toNat := by
    intro e he
    show (e.area.take e.payloadLength.toNat).length = _
    rw [List.length_take, e.area_length]
    omega
  have hcount : g.payloadLength = f.payloadLength := by
    rw [← UInt16.toNat_inj, ← hlen f hf, ← hlen g hg, hm]
  have harea : g.area = f.area := by
    rw [← zeroPad_take g.area_length hg hgpad,
      ← zeroPad_take f.area_length hf hfpad]
    exact congrArg (fun m : Message => zeroPad payloadSize m.payload) hm
  cases f
  cases g
  simp only [Frame.message, Message.mk.injEq] at hm
  simp only [Frame.mk.injEq]
  exact ⟨hm.1, hm.2.1, hm.2.2.1, hm.2.2.2.1, hm.2.2.2.2.2.1,
    hm.2.2.2.2.2.2.1, hm.2.2.2.2.2.2.2.1, hcount, hdev, harea⟩

/-- Of an accepted packet without a NUL before the last byte of the device
field, every byte that carries no field is zero. -/
theorem unused_zero (hpad : ∀ b ∈ f.area.drop f.payloadLength.toNat, b = 0)
    (hlong : 16 ≤ f.message.device.length) {i : Nat} (hi : unused f.bytes i) :
    byteAt f.bytes i = 0 := by
  rcases hi with hi | ⟨hlow, hhigh⟩ | ⟨hlow, hhigh⟩
  · simp only [List.mem_cons, List.not_mem_nil, or_false] at hi
    rcases hi with rfl | rfl | rfl | rfl | rfl
    · exact byteAt_head f (by decide)
    · exact byteAt_head f (by decide)
    · exact byteAt_head f (by decide)
    · exact byteAt_head f (by decide)
    · exact byteAt_stop f
  · rw [deviceText_bytes] at hlow
    have hsame : i = 32 + (f.device.takeWhile (· != 0)).length := by
      have hlow' : 32 + (f.device.takeWhile (· != 0)).length ≤ i := hlow
      have hlong' : 16 ≤ (f.device.takeWhile (· != 0)).length := hlong
      omega
    rw [hsame, byteAt_device f (by omega)]
    exact text_stop (by rw [f.device_length]; omega)
  · rw [payloadLength_bytes] at hlow
    obtain ⟨j, rfl⟩ := Nat.exists_eq_add_of_le hlow
    rw [← byteAt_drop, drop_area]
    exact byteAt_zeros hpad j

/-- Where the device text ends before the last byte of its field, another
last byte makes another field with the same text. -/
theorem exists_twin (hlen : l.length = 17) {j : Nat} (hj : j < 16)
    (h0 : byteAt l j = 0) :
    ∃ l' : Bytes, l'.length = 17 ∧ l' ≠ l
      ∧ l'.takeWhile (· != 0) = l.takeWhile (· != 0) := by
  obtain ⟨a, x, rfl⟩ : ∃ a x, l = a ++ [x] := by
    have hne : l ≠ [] := by
      rintro rfl
      cases hlen
    exact ⟨_, _, (List.dropLast_append_getLast hne).symm⟩
  rw [List.length_append, List.length_singleton] at hlen
  have hja : j < a.length := by omega
  rw [byteAt_append_left _ _ hja, byteAt, List.getD_eq_getElem a 0 hja] at h0
  refine ⟨a ++ [x + 1], by simp; omega, by simp, ?_⟩
  exact text_last ⟨_, List.getElem_mem hja, h0⟩ _

/-- The text of a device field that is full but for its last byte is the
field. -/
theorem device_of_text {g : Frame}
    (hlong : 16 ≤ (f.device.takeWhile (· != 0)).length)
    (h : g.message = f.message) : g.device = f.device := by
  have htext : g.device.takeWhile (· != 0) = f.device.takeWhile (· != 0) :=
    congrArg Message.device h
  rw [← zeroPad_text g.device_length (by rw [htext]; exact hlong), htext,
    zeroPad_text f.device_length hlong]

/-- An accepted packet has zeros in every byte that carries no field, and
is the only one of its message, exactly when no NUL comes before the last
byte of its device field. -/
theorem packet_canonical_iff (h : decode p = .ok m) :
    ((∀ i, unused p i → byteAt p i = 0) ∧ ∀ q, decode q = .ok m → q = p)
      ↔ ∀ i, 32 ≤ i → i < 48 → byteAt p i ≠ 0 := by
  obtain ⟨f, hp, hcount, hpad, hvalid, hm⟩ := decode_ok_iff.mp h
  subst hp
  constructor
  · rintro ⟨-, honly⟩ i hlow hhigh h0
    obtain ⟨j, rfl⟩ := Nat.exists_eq_add_of_le hlow
    rw [byteAt_device f (by omega)] at h0
    obtain ⟨device, hlen, hne, htext⟩ :=
      exists_twin f.device_length (by omega) h0
    let g : Frame := { f with device := device, device_length := hlen }
    have hgm : g.message = f.message := by
      unfold Frame.message
      rw [htext]
    have hq : g.bytes = f.bytes := honly g.bytes
      (decode_ok_iff.mpr ⟨g, rfl, hcount, hpad, hgm ▸ hvalid,
        hm.trans hgm.symm⟩)
    have hdevs : g.device = f.device := by
      rw [← slice_device, hq, slice_device]
    exact hne hdevs
  · intro hfull
    have hlong : 16 ≤ (f.device.takeWhile (· != 0)).length := by
      refine text_long f.device_length fun j hj => ?_
      rw [← byteAt_device f (by omega)]
      exact hfull _ (by omega) (by omega)
    refine ⟨fun i hi => unused_zero hpad hlong hi, ?_⟩
    intro q hq
    obtain ⟨g, rfl, hgcount, hgpad, -, hgm⟩ := decode_ok_iff.mp hq
    have hsame : g.message = f.message := hgm.symm.trans hm
    rw [frame_eq hcount hgcount hpad hgpad hsame
      (device_of_text hlong hsame)]

/-- `ringing` fills the device field, so its packet is the only one. -/
theorem packet_canonical_ringing :
    (∀ i, 32 ≤ i → i < 48 → byteAt ringing.packet i ≠ 0)
      ∧ ∀ q, decode q = .ok ringing → q = ringing.packet := by
  have hdecode : decode ringing.packet = .ok ringing := by decide +kernel
  have hfull : ∀ i, 32 ≤ i → i < 48 → byteAt ringing.packet i ≠ 0 := by
    have hall : ∀ i < 48, 32 ≤ i → byteAt ringing.packet i ≠ 0 := by
      decide +kernel
    exact fun i hlow hhigh => hall i hhigh hlow
  exact ⟨hfull, ((packet_canonical_iff hdecode).mpr hfull).2⟩

/-- Readiness of a device whose address is written in groups of four. -/
def dottedReady : Message where
  type := typeReady
  flags := 0
  sequence := 1
  token := 0
  device := [0x30, 0x30, 0x31, 0x31, 0x2e, 0x32, 0x32, 0x33, 0x33, 0x2e,
    0x34, 0x34, 0x35, 0x35]
  index := 0
  code := 1
  value := 0
  payload := []

/-- `Decode` accepts the packet of `dottedReady` also with a byte behind
the device text, and reads the same message off it. -/
theorem device_tail_ignored :
    decode dottedReady.packet = .ok dottedReady
      ∧ decode (copyAt dottedReady.packet 48 [1]) = .ok dottedReady
      ∧ copyAt dottedReady.packet 48 [1] ≠ dottedReady.packet
      ∧ unused (copyAt dottedReady.packet 48 [1]) 48
      ∧ byteAt (copyAt dottedReady.packet 48 [1]) 48 ≠ 0 := by
  refine ⟨by decide +kernel, by decide +kernel, by decide +kernel, ?_,
    by decide +kernel⟩
  exact Or.inr (Or.inl (by decide +kernel))

end Callbridge.Protocol
