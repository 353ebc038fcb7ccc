/-
What is negotiated survives being echoed. A quality of service is read
back from a dictionary that says it (`Says`) exactly when it is sound for
the codec (`TransportQoS.Sound`), and whatever `selectQoS` selects is
sound. The selected delay is the point nearest to the preferred one in the
interval the remote's bounds make.
-/
import Mathlib.Data.Nat.Dist
import Callbridge.Bluez.Negotiate

namespace Callbridge.Bluez

open Lib
open Lib.Dbus (Variant)

variable {qos bounds properties : Dict} {codec : CodecConfig} {final : Bool}
  {q : TransportQoS} {d : Dict} {raw : Bytes} {preferred : UInt32}

-- == dictionaries

/-- An optional entry takes its default or what is there. -/
theorem optional_eq_ok {ε α : Type} {name : String} {default a : α}
    {variant : Variant → Option α} {test : α → Bool} {e : ε} :
    d.optional name default variant test e = .ok a
      ↔ d.get? name = none ∧ a = default
        ∨ d.read name variant = some a ∧ test a = true := by
  unfold Dict.optional Dict.read
  cases d.get? name with
  | none =>
    constructor
    · intro h
      exact Or.inl ⟨rfl, (Except.ok.inj h).symm⟩
    · rintro (⟨-, rfl⟩ | ⟨h, -⟩)
      · rfl
      · cases h
  | some value => simp

-- == quality of service

/-- A quality of service that fits the codec and the broker's bounds. -/
structure TransportQoS.Sound (q : TransportQoS) (codec : CodecConfig) :
    Prop where
  interval : q.intervalUS = codec.intervalUS
  sdu : q.sdu.toNat = codec.octetsPerFrame
  framing : q.framing ≤ 1
  phy : q.phy &&& 0x02 ≠ 0
  retransmissions : q.retransmissions ≠ 0 ∧ q.retransmissions ≤ 13
  latency : q.latencyMS ≠ 0 ∧ q.latencyMS ≤ 100
  delay : q.presentationDelayUS ≠ 0
    ∧ q.presentationDelayUS ≤ maxPresentationDelay
  targetLatency : 1 ≤ q.targetLatency ∧ q.targetLatency ≤ 3

/-- Both identifiers have been allocated. -/
def TransportQoS.allocated (q : TransportQoS) : Prop :=
  q.cig ≤ 0xef ∧ q.cis ≤ 0xef

/-- The dictionary says this quality of service. -/
structure Says (qos : Dict) (final : Bool) (q : TransportQoS) : Prop where
  cig : qos.identifier "CIG" final .cigInvalid .cigMissing = .ok q.cig
  cis : qos.identifier "CIS" final .cisInvalid .cisMissing = .ok q.cis
  interval : qos.read "Interval" variantUint32 = some q.intervalUS
  sdu : qos.read "SDU" variantUint16 = some q.sdu
  framing : qos.read "Framing" variantByte = some q.framing
  phy : qos.read "PHY" variantByte = some q.phy
  retransmissions :
    qos.read "Retransmissions" variantByte = some q.retransmissions
  latency : qos.read "Latency" variantUint16 = some q.latencyMS
  delay :
    qos.read "PresentationDelay" variantUint32 = some q.presentationDelayUS
  targetLatency :
    qos.read "TargetLatency" variantByte = some q.targetLatency

/-- What `parseConfiguredQoS` accepts, and with what. -/
theorem parseConfiguredQoS_ok :
    parseConfiguredQoS qos codec final = .ok q
      ↔ Says qos final q ∧ q.Sound codec
        ∧ (final = true → q.allocated) := by
  unfold parseConfiguredQoS
  simp only [bind_eq_ok, require_eq_ok, check_eq_ok, pure, Except.pure,
    Except.ok.injEq, delayBound, Bool.and_eq_true, Bool.not_eq_true',
    Bool.and_eq_false_imp, Bool.or_eq_false_iff, decide_eq_false_iff_not,
    decide_eq_true_eq, bne_iff_ne, beq_iff_eq, UInt8.not_lt, gt_iff_lt]
  constructor
  · rintro ⟨cig, hcig, cis, hcis, _, hids, interval, ⟨hinterval, hi⟩, sdu,
      ⟨hsdu, hs⟩, framing, ⟨hframing, hf⟩, phy, ⟨hphy, hp⟩, re,
      ⟨hre, hr⟩, latency, ⟨hlatency, hl⟩, delay, ⟨hdelay, hd⟩, target,
      ⟨htarget, ht⟩, rfl⟩
    exact ⟨⟨hcig, hcis, hinterval, hsdu, hframing, hphy, hre, hlatency,
      hdelay, htarget⟩, ⟨hi, hs, hf, hp, hr, hl, hd, ht⟩, hids⟩
  · rintro ⟨htold, hsound, hids⟩
    exact ⟨_, htold.cig, _, htold.cis, (), hids,
      _, ⟨htold.interval, hsound.interval⟩, _, ⟨htold.sdu, hsound.sdu⟩,
      _, ⟨htold.framing, hsound.framing⟩, _, ⟨htold.phy, hsound.phy⟩,
      _, ⟨htold.retransmissions, hsound.retransmissions⟩,
      _, ⟨htold.latency, hsound.latency⟩, _, ⟨htold.delay, hsound.delay⟩,
      _, ⟨htold.targetLatency, hsound.targetLatency⟩, rfl⟩

/-- What `parseFinalTransportQoS` accepts is sound and allocated. -/
theorem parseFinalTransportQoS_sound {selected : TransportQoS}
    (h : parseFinalTransportQoS qos codec selected = .ok q) :
    q.Sound codec ∧ q.allocated := by
  unfold parseFinalTransportQoS at h
  split at h
  case isTrue =>
    obtain ⟨-, hsound, hids⟩ := parseConfiguredQoS_ok.mp h
    exact ⟨hsound, hids rfl⟩
  case isFalse =>
    obtain ⟨-, h⟩ := ite_error_eq_ok.mp h
    obtain ⟨-, hsound, hids⟩ := parseConfiguredQoS_ok.mp h
    exact ⟨hsound, hids rfl⟩

-- == codecs

/-- A configuration that is read back names a preset. -/
theorem parsePreset_ok {frequency duration : UInt8} {octets : Nat}
    {allocation : UInt32}
    (h : parsePreset frequency duration octets allocation = .ok codec) :
    ∃ preset ∈ conversationalPresets, codec = ⟨preset.sampleRate,
      preset.frameDuration, preset.octets, allocation⟩ := by
  unfold parsePreset at h
  split at h
  case h_1 => cases h
  case h_2 preset hfind =>
    obtain ⟨hoctets, hcodec⟩ := ite_error_eq_ok.mp h
    refine ⟨preset, List.mem_of_find?_eq_some hfind, ?_⟩
    rw [not_not.mp hoctets] at hcodec
    exact (Except.ok.inj hcodec).symm

theorem parseAllocation_one {values : GoMap UInt8 Bytes}
    {allocation : UInt32} (h : parseAllocation values = .ok allocation) :
    oneLocation allocation = true := by
  unfold parseAllocation at h
  split at h
  case h_1 =>
    cases h
    decide
  case h_2 raw _ =>
    obtain ⟨-, h⟩ := ite_error_eq_ok.mp h
    obtain ⟨hone, h⟩ := ite_error_eq_ok.mp h
    rw [← Except.ok.inj h]
    simpa using hone

/-- A codec that `parseConfiguration` read is that of a preset, with one
location. -/
theorem parseConfiguration_preset (h : parseConfiguration raw = .ok codec) :
    ∃ preset ∈ conversationalPresets, ∃ allocation,
      oneLocation allocation = true
      ∧ codec = ⟨preset.sampleRate, preset.frameDuration, preset.octets,
        allocation⟩ := by
  unfold parseConfiguration at h
  split at h
  case h_1 => cases h
  case h_2 values _ =>
    unfold parseValues at h
    split at h
    case h_1 => cases h
    case h_2 frequency _ =>
      obtain ⟨-, h⟩ := ite_error_eq_ok.mp h
      split at h
      case h_1 => cases h
      case h_2 duration _ =>
        obtain ⟨-, h⟩ := ite_error_eq_ok.mp h
        split at h
        case h_1 => cases h
        case h_2 frameLength _ =>
          obtain ⟨-, h⟩ := ite_error_eq_ok.mp h
          obtain ⟨-, h⟩ := ite_error_eq_ok.mp h
          split at h
          case h_1 => cases h
          case h_2 allocation hallocation =>
            obtain ⟨preset, hmem, hcodec⟩ := parsePreset_ok h
            exact ⟨preset, hmem, allocation,
              parseAllocation_one hallocation, hcodec⟩

theorem parseConfiguration_octets (h : parseConfiguration raw = .ok codec) :
    codec.octetsPerFrame < 2 ^ 16 := by
  obtain ⟨preset, hmem, allocation, -, rfl⟩ := parseConfiguration_preset h
  have hall : ∀ p ∈ conversationalPresets, p.octets < 2 ^ 16 := by decide
  exact hall preset hmem

-- == delays

/-- The delay respects the remote's bounds, the preferred ones only where
they are not zero. -/
structure Allowed (bounds : Dict) (d : Nat) : Prop where
  minimum : ∀ v, bounds.read "MinimumDelay" variantDelay = some v →
    v.toNat ≤ d
  maximum : ∀ v, bounds.read "MaximumDelay" variantDelay = some v →
    d ≤ v.toNat
  preferredMinimum : ∀ v,
    bounds.read "PreferredMinimumDelay" variantDelay = some v → v ≠ 0 →
    v.toNat ≤ d
  preferredMaximum : ∀ v,
    bounds.read "PreferredMaximumDelay" variantDelay = some v → v ≠ 0 →
    d ≤ v.toNat

/-- The delay is the allowed one nearest to the preferred. -/
def Nearest (bounds : Dict) (preferred d : Nat) : Prop :=
  Allowed bounds d ∧ ∀ d', Allowed bounds d' → d' ≠ d →
    Nat.dist d preferred < Nat.dist d' preferred

theorem nearest_unbounded (preferred : Nat) :
    Nearest [] preferred preferred := by
  refine ⟨⟨by simp [Dict.read, Dict.get?], by simp [Dict.read, Dict.get?],
    by simp [Dict.read, Dict.get?], by simp [Dict.read, Dict.get?]⟩, ?_⟩
  intro d' _ hne
  rw [Nat.dist_self]
  exact Nat.dist_pos_of_ne hne

/-- The lower end of the interval: above every lower bound, and one of
them unless it is 1. -/
structure Lower (bounds : Dict) (lo : UInt32) : Prop where
  minimum : ∀ v, bounds.read "MinimumDelay" variantDelay = some v →
    v.toNat ≤ lo.toNat
  preferred : ∀ v,
    bounds.read "PreferredMinimumDelay" variantDelay = some v → v ≠ 0 →
    v.toNat ≤ lo.toNat
  reached : lo = 1 ∨ ∀ d, Allowed bounds d → lo.toNat ≤ d
  positive : lo ≠ 0

/-- The upper end, likewise. -/
structure Upper (bounds : Dict) (hi : UInt32) : Prop where
  maximum : ∀ v, bounds.read "MaximumDelay" variantDelay = some v →
    hi.toNat ≤ v.toNat
  preferred : ∀ v,
    bounds.read "PreferredMaximumDelay" variantDelay = some v → v ≠ 0 →
    hi.toNat ≤ v.toNat
  reached : hi = maxPresentationDelay
    ∨ ∀ d, Allowed bounds d → d ≤ hi.toNat
  bounded : hi ≤ maxPresentationDelay

/-- What an optional entry was taken to be is what it reads as. -/
theorem eq_of_read {name : String} {a default v : UInt32} {P : Prop}
    (h : bounds.get? name = none ∧ a = default
      ∨ bounds.read name variantDelay = some a ∧ P)
    (hv : bounds.read name variantDelay = some v) : v = a := by
  rcases h with ⟨hnone, -⟩ | ⟨hread, -⟩
  · rw [Dict.read, hnone] at hv
    cases hv
  · exact Option.some.inj (hv.symm.trans hread)

/-- The minimum, raised to the preferred one. -/
theorem Lower.of_raised {minimum : UInt32}
    (hmin : bounds.get? "MinimumDelay" = none ∧ minimum = 1
      ∨ bounds.read "MinimumDelay" variantDelay = some minimum
        ∧ delayBound minimum = true)
    (hpref : bounds.get? "PreferredMinimumDelay" = none ∧ preferred = 0
      ∨ bounds.read "PreferredMinimumDelay" variantDelay = some preferred
        ∧ decide (preferred ≤ maxPresentationDelay) = true) :
    Lower bounds (if preferred ≠ 0 ∧ preferred > minimum then preferred
      else minimum) := by
  by_cases hraise : preferred ≠ 0 ∧ preferred > minimum
  · rw [if_pos hraise]
    have hlt : minimum.toNat < preferred.toNat :=
      UInt32.lt_iff_toNat_lt.mp hraise.2
    refine ⟨?_, ?_, ?_, hraise.1⟩
    · intro v hv
      rw [eq_of_read hmin hv]
      omega
    · intro v hv _
      rw [eq_of_read hpref hv]
    · rcases hpref with ⟨-, hzero⟩ | ⟨hread, -⟩
      · exact absurd hzero hraise.1
      · exact Or.inr fun d hd => hd.preferredMinimum _ hread hraise.1
  · rw [if_neg hraise]
    refine ⟨?_, ?_, ?_, ?_⟩
    · intro v hv
      rw [eq_of_read hmin hv]
    · intro v hv hne
      rw [eq_of_read hpref hv] at hne ⊢
      have hle : ¬ preferred > minimum := fun hgt => hraise ⟨hne, hgt⟩
      exact UInt32.le_iff_toNat_le.mp (UInt32.not_lt.mp hle)
    · rcases hmin with ⟨-, hone⟩ | ⟨hread, -⟩
      · exact Or.inl hone
      · exact Or.inr fun d hd => hd.minimum _ hread
    · rcases hmin with ⟨-, rfl⟩ | ⟨-, hbound⟩
      · simp
      · simp only [delayBound, Bool.and_eq_true, bne_iff_ne] at hbound
        exact hbound.1

/-- The maximum, lowered to the preferred one. -/
theorem Upper.of_lowered {maximum : UInt32}
    (hmax : bounds.get? "MaximumDelay" = none
        ∧ maximum = maxPresentationDelay
      ∨ bounds.read "MaximumDelay" variantDelay = some maximum
        ∧ delayBound maximum = true)
    (hpref : bounds.get? "PreferredMaximumDelay" = none ∧ preferred = 0
      ∨ bounds.read "PreferredMaximumDelay" variantDelay = some preferred
        ∧ decide (preferred ≤ maxPresentationDelay) = true) :
    Upper bounds (if preferred ≠ 0 ∧ preferred < maximum then preferred
      else maximum) := by
  have hbounded : maximum ≤ maxPresentationDelay := by
    rcases hmax with ⟨-, rfl⟩ | ⟨-, hbound⟩
    · exact UInt32.le_refl _
    · simp only [delayBound, Bool.and_eq_true, decide_eq_true_eq] at hbound
      exact hbound.2
  by_cases hlower : preferred ≠ 0 ∧ preferred < maximum
  · rw [if_pos hlower]
    have hlt : preferred.toNat < maximum.toNat :=
      UInt32.lt_iff_toNat_lt.mp hlower.2
    refine ⟨?_, ?_, ?_, UInt32.le_trans (UInt32.le_of_lt hlower.2) hbounded⟩
    · intro v hv
      rw [eq_of_read hmax hv]
      omega
    · intro v hv _
      rw [eq_of_read hpref hv]
    · rcases hpref with ⟨-, hzero⟩ | ⟨hread, -⟩
      · exact absurd hzero hlower.1
      · exact Or.inr fun d hd => hd.preferredMaximum _ hread hlower.1
  · rw [if_neg hlower]
    refine ⟨?_, ?_, ?_, hbounded⟩
    · intro v hv
      rw [eq_of_read hmax hv]
    · intro v hv hne
      rw [eq_of_read hpref hv] at hne ⊢
      have hle : ¬ preferred < maximum := fun hlt => hlower ⟨hne, hlt⟩
      exact UInt32.le_iff_toNat_le.mp (UInt32.not_lt.mp hle)
    · rcases hmax with ⟨-, hdefault⟩ | ⟨hread, -⟩
      · exact Or.inl hdefault
      · exact Or.inr fun d hd => hd.maximum _ hread

/-- The point of an interval nearest to the preferred one. -/
theorem nearest_of_ends {lo hi : UInt32} (hlo : Lower bounds lo)
    (hhi : Upper bounds hi) (hle : lo ≤ hi) (hpos : preferred ≠ 0)
    (hmax : preferred ≤ maxPresentationDelay) :
    Nearest bounds preferred.toNat (if preferred < lo then lo
      else if preferred > hi then hi else preferred).toNat := by
  have hmax : preferred.toNat ≤ maxPresentationDelay.toNat :=
    UInt32.le_iff_toNat_le.mp hmax
  have hpos : preferred.toNat ≠ 0 := by
    intro h0
    exact hpos (UInt32.toNat_inj.mp h0)
  have hallowed : ∀ d : Nat, lo.toNat ≤ d → d ≤ hi.toNat →
      Allowed bounds d := by
    intro d hlow hhigh
    exact ⟨fun v hv => Nat.le_trans (hlo.minimum v hv) hlow,
      fun v hv => Nat.le_trans hhigh (hhi.maximum v hv),
      fun v hv hne => Nat.le_trans (hlo.preferred v hv hne) hlow,
      fun v hv hne => Nat.le_trans hhigh (hhi.preferred v hv hne)⟩
  -- below the range, above it, or inside
  by_cases hlow : preferred < lo
  · rw [if_pos hlow]
    have hlt : preferred.toNat < lo.toNat := UInt32.lt_iff_toNat_lt.mp hlow
    refine ⟨hallowed _ (Nat.le_refl _) hle, ?_⟩
    intro d hd hne
    have hreach : lo.toNat ≤ d := by
      -- the low end is one of the bounds, or nothing bounds it
      rcases hlo.reached with rfl | hall
      · have hone : (1 : UInt32).toNat = 1 := rfl
        omega
      · exact hall d hd
    unfold Nat.dist
    omega
  · rw [if_neg hlow]
    have hge : lo.toNat ≤ preferred.toNat :=
      UInt32.le_iff_toNat_le.mp (UInt32.not_lt.mp hlow)
    by_cases hhigh : preferred > hi
    · rw [if_pos hhigh]
      have hgt : hi.toNat < preferred.toNat :=
        UInt32.lt_iff_toNat_lt.mp hhigh
      refine ⟨hallowed _ hle (Nat.le_refl _), ?_⟩
      intro d hd hne
      have hreach : d ≤ hi.toNat := by
        rcases hhi.reached with rfl | hall
        · omega
        · exact hall d hd
      unfold Nat.dist
      omega
    · rw [if_neg hhigh]
      have hle' : preferred.toNat ≤ hi.toNat :=
        UInt32.le_iff_toNat_le.mp (UInt32.not_lt.mp hhigh)
      refine ⟨hallowed _ hge hle', ?_⟩
      intro d _ hne
      rw [Nat.dist_self]
      exact Nat.dist_pos_of_ne hne

/-- The clamped delay is within what the broker allows. -/
theorem clamped_bounds {lo hi : UInt32} (hlo : lo ≠ 0)
    (hhi : hi ≤ maxPresentationDelay) (hle : lo ≤ hi) (hpos : preferred ≠ 0)
    (hmax : preferred ≤ maxPresentationDelay) :
    (if preferred < lo then lo else if preferred > hi then hi
      else preferred) ≠ 0
    ∧ (if preferred < lo then lo else if preferred > hi then hi
      else preferred) ≤ maxPresentationDelay := by
  by_cases hlow : preferred < lo
  · rw [if_pos hlow]
    exact ⟨hlo, UInt32.le_trans hle hhi⟩
  · rw [if_neg hlow]
    by_cases hhigh : preferred > hi
    · rw [if_pos hhigh]
      refine ⟨?_, hhi⟩
      rintro rfl
      exact hlo (UInt32.le_antisymm hle UInt32.zero_le)
    · rw [if_neg hhigh]
      exact ⟨hpos, hmax⟩

/-- The delay selected is the nearest that is allowed. -/
theorem selectPresentationDelay_ok {delay : UInt32}
    (h : selectPresentationDelay bounds preferred = .ok delay)
    (hpos : preferred ≠ 0) (hmax : preferred ≤ maxPresentationDelay) :
    Nearest bounds preferred.toNat delay.toNat
      ∧ delay ≠ 0 ∧ delay ≤ maxPresentationDelay := by
  unfold selectPresentationDelay at h
  simp only [bind_eq_ok, optional_eq_ok, check_eq_ok, pure, Except.pure,
    Except.ok.injEq, decide_eq_true_eq] at h
  obtain ⟨minimum, hminimum, maximum, hmaximum, _, _, preferredMinimum,
    hpreferredMinimum, preferredMaximum, hpreferredMaximum, _, hle, rfl⟩ := h
  have hlo := Lower.of_raised hminimum (by simpa using hpreferredMinimum)
  have hhi := Upper.of_lowered hmaximum (by simpa using hpreferredMaximum)
  exact ⟨nearest_of_ends hlo hhi hle hpos hmax,
    clamped_bounds hlo.positive hhi.bounded hle hpos hmax⟩

/-- The bounds the remote sets. -/
def remoteBounds (properties : Dict) : Dict :=
  match properties.get? "QoS" with
  | some (.dict bounds) => bounds
  | _ => []

/-- What a preset asks for is sound for its codec. -/
theorem presetQoS_sound (h : parseConfiguration raw = .ok codec) :
    (presetQoS codec).Sound codec where
  interval := rfl
  sdu := UInt16.toNat_ofNat_of_lt' (parseConfiguration_octets h)
  framing := by simp [presetQoS]
  phy := by simp [presetQoS]
  retransmissions := by simp [presetQoS]
  latency := by
    by_cases h75 : codec.intervalUS = 7500 <;> simp [presetQoS, h75]
  delay := by simp [presetQoS, maxPresentationDelay]
  targetLatency := by simp [presetQoS]

/-- What is selected is sound, and its delay the nearest allowed. -/
theorem selectQoS_ok (hparse : parseConfiguration raw = .ok codec)
    (h : selectQoS properties codec = .ok q) :
    q.Sound codec ∧ q.targetLatency = 2
      ∧ Nearest (remoteBounds properties) 40000
        q.presentationDelayUS.toNat := by
  have hpreset := presetQoS_sound hparse
  unfold selectQoS at h
  split at h
  case h_1 hnone =>
    cases h
    rw [remoteBounds, hnone]
    exact ⟨hpreset, rfl, nearest_unbounded 40000⟩
  case h_2 bounds hbounds =>
    rw [remoteBounds, hbounds]
    unfold TransportQoS.within at h
    simp only [bind_eq_ok, optional_eq_ok, pure, Except.pure,
      Except.ok.injEq, Bool.and_eq_true, bne_iff_ne,
      decide_eq_true_eq] at h
    obtain ⟨framing, hframing, _, _, _, _, re, hre, delay, hdelay, rfl⟩ := h
    obtain ⟨hnearest, hrange⟩ := selectPresentationDelay_ok hdelay
      hpreset.delay.1 hpreset.delay.2
    refine ⟨⟨hpreset.interval, hpreset.sdu, ?_, hpreset.phy, ?_,
      hpreset.latency, hrange, hpreset.targetLatency⟩, rfl, hnearest⟩
    · rcases hframing with ⟨-, rfl⟩ | ⟨-, hle⟩
      · exact hpreset.framing
      · exact hle
    · rcases hre with ⟨-, rfl⟩ | ⟨-, hrange⟩
      · exact hpreset.retransmissions
      · exact hrange
  case h_3 => cases h

-- == echo

/-- The dictionary has the entries of this quality of service, the target
latency left out or not. -/
def Echoed (d : Dict) (q : TransportQoS) : Prop :=
  (∀ name, d.get? name = (qosVariants q).get? name)
    ∨ ∀ name, d.get? name = if name = "TargetLatency" then none
        else (qosVariants q).get? name

/-- A dictionary with the entries of `q` says it. -/
theorem Says.of_entries (h : ∀ name, d.get? name = (qosVariants q).get? name) :
    Says d final q where
  cig := by rw [Dict.identifier, h]; rfl
  cis := by rw [Dict.identifier, h]; rfl
  interval := by rw [Dict.read, h]; rfl
  sdu := by rw [Dict.read, h]; rfl
  framing := by rw [Dict.read, h]; rfl
  phy := by rw [Dict.read, h]; rfl
  retransmissions := by rw [Dict.read, h]; rfl
  latency := by rw [Dict.read, h]; rfl
  delay := by rw [Dict.read, h]; rfl
  targetLatency := by rw [Dict.read, h]; rfl

/-- An echo says what it echoes, once the target latency is there. -/
theorem Echoed.told (h : Echoed d q) (final : Bool) :
    (d.get? "TargetLatency").isSome = true ∧ Says d final q
      ∨ (d.get? "TargetLatency").isSome = false
        ∧ Says (d.withTargetLatency q.targetLatency) final q := by
  rcases h with hfull | hpart
  · refine Or.inl ⟨?_, .of_entries hfull⟩
    rw [hfull]
    rfl
  · refine Or.inr ⟨by rw [hpart]; rfl, .of_entries fun name => ?_⟩
    by_cases hname : name = "TargetLatency"
    · subst hname
      rfl
    · have hget : (d.withTargetLatency q.targetLatency).get? name
          = d.get? name := by
        have hbeq : (name == "TargetLatency") = false :=
          beq_eq_false_iff_ne.mpr hname
        simp [Dict.withTargetLatency, Dict.get?, List.lookup_cons, hbeq]
      rw [hget, hpart, if_neg hname]

/-- An echo is read back as what it says. -/
theorem parsePreliminaryConfiguredQoS_echoed (h : Echoed d q)
    (hsound : q.Sound codec) (ht : q.targetLatency = 2) :
    parsePreliminaryConfiguredQoS d codec = .ok q := by
  unfold parsePreliminaryConfiguredQoS
  rcases h.told false with ⟨hsome, htold⟩ | ⟨hnone, htold⟩
  · rw [if_pos hsome]
    exact parseConfiguredQoS_ok.mpr ⟨htold, hsound, by simp⟩
  · rw [hnone]
    rw [ht] at htold
    exact parseConfiguredQoS_ok.mpr ⟨htold, hsound, by simp⟩

/-- So it is with the identifiers it ends up with. -/
theorem parseFinalTransportQoS_echoed {selected : TransportQoS}
    (h : Echoed d q) (hsound : q.Sound codec) (hids : q.allocated)
    (ht : selected.targetLatency = q.targetLatency) :
    parseFinalTransportQoS d codec selected = .ok q := by
  unfold parseFinalTransportQoS
  rcases h.told true with ⟨hsome, htold⟩ | ⟨hnone, htold⟩
  · rw [if_pos hsome]
    exact parseConfiguredQoS_ok.mpr ⟨htold, hsound, fun _ => hids⟩
  · rw [hnone, ht]
    refine ite_error_eq_ok.mpr ⟨?_, parseConfiguredQoS_ok.mpr
      ⟨htold, hsound, fun _ => hids⟩⟩
    rintro (hlow | hhigh)
    · exact absurd hsound.targetLatency.1 (UInt8.not_le.mpr hlow)
    · exact absurd hsound.targetLatency.2 (UInt8.not_le.mpr hhigh)

/-- The properties BlueZ passes to `SetConfiguration` for what was
selected. -/
structure Echo (echo : Dict) (configuration : Bytes) (q : TransportQoS) :
    Prop where
  configuration : echo.get? "Configuration" = some (.bytes configuration)
  qos : ∃ d, echo.get? "QoS" = some (.dict d) ∧ Echoed d q

/-- An echo configures the transport with what it says. -/
theorem setConfiguration_echo {b : Broker} {path : ObjectPath}
    {direction : Direction} {echo : Dict} {configuration : Bytes}
    (hecho : Echo echo configuration q)
    (hparse : parseConfiguration configuration = .ok codec)
    (hsound : q.Sound codec) (ht : q.targetLatency = 2)
    (hbelow : (b.expectedDevice ++ [0x2f]).isPrefixOf path = true)
    (hleft : b.nextConfig ≠ maxGeneration) :
    ∃ b' es, b.setConfiguration true path direction echo = .ok (b', es)
      ∧ b'.configured.lookup path
        = some ⟨direction, b.nextConfig + 1, codec, q⟩ := by
  obtain ⟨d, hd, hechoed⟩ := hecho.qos
  have hnone : b.configureRefused true path = none := by
    unfold Broker.configureRefused
    simp [hbelow, hleft]
  have hqos : configuredQoS echo codec = .ok q := by
    unfold configuredQoS
    rw [hd]
    simp only [parsePreliminaryConfiguredQoS_echoed hechoed hsound ht]
  refine ⟨(b.configure true path direction codec q).1,
    (b.configure true path direction codec q).2, ?_, ?_⟩
  · have hread : readConfiguration echo = .ok (codec, q) := by
      unfold readConfiguration
      simp only [bind_eq_ok, require_eq_ok, mapError_eq_ok]
      refine ⟨configuration, ⟨?_, trivial⟩, codec, hparse, q, hqos, rfl⟩
      rw [Dict.read, hecho.configuration]
      rfl
    unfold Broker.setConfiguration Broker.serveSetConfiguration
    rw [hread]
    rw [hnone]
    rfl
  · unfold Broker.configure
    rw [hnone]
    rw [GoMap.lookup_insert, if_pos rfl]

/-- Negotiation is closed under echo: what `SelectProperties` answers is
read back as it was selected, provisionally and with allocated
identifiers, and its delay is the nearest the remote allows. Where the
remote allows none, nothing is selected. -/
theorem negotiation_closed_under_echo (properties : Dict) :
    (∀ reply, selectProperties properties = .ok reply →
      ∃ configuration codec q,
        reply.get? "Capabilities" = some (.bytes configuration)
        ∧ reply.get? "QoS" = some (.dict (qosVariants q))
        ∧ parseConfiguration configuration = .ok codec
        ∧ (∀ (b : Broker) (path : ObjectPath) (direction : Direction)
            (echo : Dict), Echo echo configuration q →
            (b.expectedDevice ++ [0x2f]).isPrefixOf path = true →
            b.nextConfig ≠ maxGeneration →
            ∃ b' es,
              b.setConfiguration true path direction echo = .ok (b', es)
              ∧ b'.configured.lookup path
                = some ⟨direction, b.nextConfig + 1, codec, q⟩)
        ∧ (∀ (cig cis : UInt8) (d : Dict), cig ≤ 0xef → cis ≤ 0xef →
            Echoed d { q with cig := cig, cis := cis } →
            parseFinalTransportQoS d codec q
              = .ok { q with cig := cig, cis := cis })
        ∧ Nearest (remoteBounds properties) 40000
            q.presentationDelayUS.toNat)
      ∧ ((∀ d, ¬ Allowed (remoteBounds properties) d) →
        ∃ e, selectProperties properties = .error e) := by
  -- what a reply is made of
  have hselected : ∀ reply, selectProperties properties = .ok reply →
      ∃ configuration codec q,
        reply = [("Capabilities", .bytes configuration),
          ("Metadata", .bytes [0x03, 0x02, 0x02, 0x00]),
          ("QoS", .dict (qosVariants q))]
        ∧ parseConfiguration configuration = .ok codec
        ∧ selectQoS properties codec = .ok q := by
    intro reply h
    unfold selectProperties at h
    simp only [bind_eq_ok, mapError_eq_ok, pure, Except.pure,
      Except.ok.injEq] at h
    obtain ⟨_, _, _, _, configuration, _, codec, hparse, q, hq, rfl⟩ := h
    exact ⟨configuration, codec, q, rfl, hparse, hq⟩
  constructor
  · intro reply h
    obtain ⟨configuration, codec, q, rfl, hparse, hq⟩ := hselected reply h
    obtain ⟨hsound, ht, hnearest⟩ := selectQoS_ok hparse hq
    refine ⟨configuration, codec, q, rfl, rfl, hparse, ?_, ?_, hnearest⟩
    · intro b path direction echo hecho hbelow hleft
      exact setConfiguration_echo hecho hparse hsound ht hbelow hleft
    · intro cig cis d hcig hcis hd
      exact parseFinalTransportQoS_echoed hd
        ⟨hsound.interval, hsound.sdu, hsound.framing, hsound.phy,
          hsound.retransmissions, hsound.latency, hsound.delay,
          hsound.targetLatency⟩ ⟨hcig, hcis⟩ rfl
  · intro hempty
    cases h : selectProperties properties with
    | error e => exact ⟨e, rfl⟩
    | ok reply =>
      obtain ⟨_, _, _, _, hparse, hq⟩ := hselected reply h
      exact absurd (selectQoS_ok hparse hq).2.2.1 (hempty _)

/-- A remote endpoint that takes only the 16 kHz preset of 7.5 ms, at one
location, with a presentation delay of 10 to 30 ms. -/
def sampleOffer : Dict :=
  [("Capabilities", .bytes [0x03, 0x01, 0x04, 0x00, 0x02, 0x02, 0x01,
      0x02, 0x03, 0x01, 0x05, 0x04, 30, 0, 30, 0]),
    ("ChannelAllocation", .uint32 0x20),
    ("QoS", .dict [("Framing", .byte 0), ("PHY", .byte 2),
      ("MaximumLatency", .uint16 8), ("MinimumDelay", .uint32 10000),
      ("MaximumDelay", .uint16 30000)])]

/-- An offer, and its own echo. -/
theorem negotiation_closed_under_echo_sample :
    ∃ reply, selectProperties sampleOffer = .ok reply
      ∧ ∃ configuration codec q,
        reply.get? "Capabilities" = some (.bytes configuration)
        ∧ parseConfiguration configuration = .ok codec
        ∧ Nearest (remoteBounds sampleOffer) 40000
            q.presentationDelayUS.toNat
        ∧ (∃ b' es, (newBroker (ascii "/d") true 1).setConfiguration true
            (ascii "/d/a") .sink [("Configuration", .bytes configuration),
              ("QoS", .dict (qosVariants q))] = .ok (b', es)
          ∧ b'.configured.lookup (ascii "/d/a")
            = some ⟨.sink, 1, codec, q⟩) := by
  have hok : (selectProperties sampleOffer).isOk = true := by
    decide +kernel
  cases h : selectProperties sampleOffer with
  | error e => rw [h] at hok; cases hok
  | ok reply =>
    obtain ⟨configuration, codec, q, hc, -, hparse, hecho, -, hnear⟩ :=
      (negotiation_closed_under_echo sampleOffer).1 reply h
    refine ⟨reply, rfl, configuration, codec, q, hc, hparse, hnear, ?_⟩
    exact hecho (newBroker (ascii "/d") true 1) (ascii "/d/a") .sink _
      ⟨rfl, _, rfl, Or.inl fun _ => rfl⟩ (by decide +kernel) (by decide)

end Callbridge.Bluez
