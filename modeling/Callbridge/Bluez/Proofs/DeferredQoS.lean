/-
Which quality of service `SetConfiguration` takes while the transport is
still being set up.

Everything in a dictionary but the frame size must pass as it would with
the frame size of the codec (`passes_resized`); then the only error the
strict reading can give is the frame size (`parse_mismatch`), which is
what the two exceptions ask for. So the order of the checks never decides.
-/
import Callbridge.Bluez.Proofs.Echo

namespace Callbridge.Bluez

open Lib
open Lib.Dbus (Variant)

variable {qos properties d d' : Dict} {codec : CodecConfig}
  {q : TransportQoS} {s t : UInt16}

-- == the frame size

/-- The dictionary with another frame size. -/
def Dict.withSDU (qos : Dict) (sdu : UInt16) : Dict :=
  ("SDU", .uint16 sdu) :: qos

/-- The dictionary passes the provisional reading. -/
def Passes (qos : Dict) (codec : CodecConfig) : Prop :=
  ∃ q, parsePreliminaryConfiguredQoS qos codec = .ok q

/-- The dictionary as the provisional reading completes it. -/
def Dict.completed (qos : Dict) : Dict :=
  if (qos.get? "TargetLatency").isSome then qos
  else qos.withTargetLatency 2

theorem preliminary_eq (qos : Dict) (codec : CodecConfig) :
    parsePreliminaryConfiguredQoS qos codec
      = parseConfiguredQoS qos.completed codec false := by
  unfold parsePreliminaryConfiguredQoS Dict.completed
  by_cases h : (qos.get? "TargetLatency").isSome = true
  · rw [if_pos h, if_pos h]
  · rw [if_neg h, if_neg h]
    rfl

theorem get_cons (name key : String) (value : Variant) (d : Dict) :
    Dict.get? ((key, value) :: d) name
      = if name = key then some value else d.get? name := by
  unfold Dict.get?
  rw [List.lookup_cons]
  by_cases h : name = key
  · simp [h]
  · simp [h, beq_eq_false_iff_ne.mpr h]

theorem get_completed (qos : Dict) {name : String}
    (h : name ≠ "TargetLatency") :
    qos.completed.get? name = qos.get? name := by
  unfold Dict.completed
  split
  · rfl
  · rw [Dict.withTargetLatency, get_cons, if_neg h]

/-- Another frame size changes nothing else of the completed dictionary. -/
theorem get_completed_withSDU (qos : Dict) (s : UInt16) {name : String}
    (h : name ≠ "SDU") :
    (qos.withSDU s).completed.get? name = qos.completed.get? name := by
  have hget : ∀ name, name ≠ "SDU" →
      (qos.withSDU s).get? name = qos.get? name := by
    intro name hname
    rw [Dict.withSDU, get_cons, if_neg hname]
  unfold Dict.completed
  rw [hget "TargetLatency" (by decide)]
  split
  · exact hget name h
  · unfold Dict.withTargetLatency
    rw [get_cons, get_cons, hget name h]

theorem read_completed_sdu (qos : Dict) :
    qos.completed.read "SDU" variantUint16
      = qos.read "SDU" variantUint16 := by
  unfold Dict.read
  rw [get_completed qos (by decide)]

theorem read_withSDU (qos : Dict) (s : UInt16) :
    (qos.withSDU s).read "SDU" variantUint16 = some s := by
  unfold Dict.read Dict.withSDU
  rfl

/-- Two dictionaries that differ in the frame size say the same of
everything else. -/
theorem Says.resized {final : Bool} (h : Says d final q)
    (hsame : ∀ name, name ≠ "SDU" → d'.get? name = d.get? name)
    (hsdu : d'.read "SDU" variantUint16 = some t) :
    Says d' final { q with sdu := t } where
  cig := by rw [Dict.identifier, hsame _ (by decide)]; exact h.cig
  cis := by rw [Dict.identifier, hsame _ (by decide)]; exact h.cis
  interval := by rw [Dict.read, hsame _ (by decide)]; exact h.interval
  sdu := hsdu
  framing := by rw [Dict.read, hsame _ (by decide)]; exact h.framing
  phy := by rw [Dict.read, hsame _ (by decide)]; exact h.phy
  retransmissions := by
    rw [Dict.read, hsame _ (by decide)]; exact h.retransmissions
  latency := by rw [Dict.read, hsame _ (by decide)]; exact h.latency
  delay := by rw [Dict.read, hsame _ (by decide)]; exact h.delay
  targetLatency := by
    rw [Dict.read, hsame _ (by decide)]; exact h.targetLatency

theorem TransportQoS.Sound.resized (h : q.Sound codec) (t : UInt16) :
    TransportQoS.Sound { q with sdu := t }
      { codec with octetsPerFrame := t.toNat } :=
  ⟨h.interval, rfl, h.framing, h.phy, h.retransmissions, h.latency,
    h.delay, h.targetLatency⟩

theorem passes_iff :
    Passes qos codec ↔ ∃ q, Says qos.completed false q ∧ q.Sound codec := by
  unfold Passes
  simp only [preliminary_eq, parseConfiguredQoS_ok]
  simp

/-- Whether a dictionary passes for the frame size it has does not depend
on what that size is. -/
theorem passes_resized (hs : qos.read "SDU" variantUint16 = some s) :
    Passes qos { codec with octetsPerFrame := s.toNat }
      ↔ Passes (qos.withSDU t)
        { codec with octetsPerFrame := t.toNat } := by
  rw [passes_iff, passes_iff]
  constructor
  · intro h
    obtain ⟨q, hread, hsound⟩ := h
    refine ⟨_, hread.resized (t := t)
      (fun name hname => get_completed_withSDU qos t hname) ?_,
      hsound.resized t⟩
    rw [read_completed_sdu, read_withSDU]
  · intro h
    obtain ⟨q, hread, hsound⟩ := h
    refine ⟨_, hread.resized (t := s)
      (fun name hname => (get_completed_withSDU qos t hname).symm) ?_,
      hsound.resized s⟩
    rw [read_completed_sdu, hs]

/-- A dictionary that would pass with the frame size of the codec fails
for its frame size and nothing else. -/
theorem parse_mismatch (hpass : Passes (qos.withSDU t) codec)
    (hs : qos.read "SDU" variantUint16 = some s)
    (hne : s.toNat ≠ codec.octetsPerFrame) :
    parsePreliminaryConfiguredQoS qos codec = .error .sduMismatch := by
  obtain ⟨q, hread, hsound⟩ := passes_iff.mp hpass
  have hsame : ∀ name, name ≠ "SDU" →
      qos.completed.get? name = (qos.withSDU t).completed.get? name :=
    fun name hname => (get_completed_withSDU qos t hname).symm
  have hthis := hread.resized hsame
    ((read_completed_sdu qos).trans hs)
  have hinterval : require (some q.intervalUS) (· == codec.intervalUS)
      QoSError.intervalMismatch = .ok q.intervalUS :=
    require_eq_ok.mpr ⟨rfl, beq_iff_eq.mpr hsound.interval⟩
  have hsdu : require (some s) (·.toNat == codec.octetsPerFrame)
      QoSError.sduMismatch = .error .sduMismatch := by
    simp [require, hne]
  rw [preliminary_eq]
  unfold parseConfiguredQoS
  rw [hthis.cig, hthis.cis, hthis.interval, hthis.sdu, hinterval, hsdu]
  rfl

-- == the exceptions

/-- What `SetConfiguration` takes: a dictionary that passes with the frame
size of the codec and has that size, the size of another preset of the
same duration, or none where nothing is allocated yet. -/
structure Bounded (qos : Dict) (codec : CodecConfig) : Prop where
  passes : Passes (qos.withSDU (UInt16.ofNat codec.octetsPerFrame)) codec
  sdu : ∃ sdu, qos.read "SDU" variantUint16 = some sdu
    ∧ (sdu.toNat = codec.octetsPerFrame
      ∨ (∃ p ∈ conversationalPresets,
          p.frameDuration = codec.frameDuration ∧ p.octets = sdu.toNat)
      ∨ sdu = 0 ∧ qos.read "CIG" variantByte = some 0xff
        ∧ qos.read "CIS" variantByte = some 0xff)

/-- `passes_resized` at the frame size of a codec that fits. -/
theorem passes_codec (hfits : codec.octetsPerFrame < 2 ^ 16)
    (hs : qos.read "SDU" variantUint16 = some s) :
    Passes qos { codec with octetsPerFrame := s.toNat }
      ↔ Passes (qos.withSDU (UInt16.ofNat codec.octetsPerFrame)) codec := by
  have hsame : { codec with
      octetsPerFrame := (UInt16.ofNat codec.octetsPerFrame).toNat }
        = codec := by
    rw [UInt16.toNat_ofNat_of_lt' hfits]
  rw [passes_resized (t := UInt16.ofNat codec.octetsPerFrame) hs, hsame]

/-- The first exception: the frame size of another preset. -/
theorem stale_iff {e : QoSError} :
    (boundedStaleConfiguredSDU qos codec e).isSome = true
      ↔ e = .sduMismatch
        ∧ ∃ s, qos.read "SDU" variantUint16 = some s
          ∧ (s ≠ 0 ∧ s.toNat ≠ codec.octetsPerFrame)
          ∧ (∃ p ∈ conversationalPresets,
            p.frameDuration = codec.frameDuration ∧ p.octets = s.toNat)
          ∧ Passes qos { codec with octetsPerFrame := s.toNat } := by
  unfold boundedStaleConfiguredSDU Passes
  by_cases he : e = .sduMismatch
  · cases hs : qos.read "SDU" variantUint16 with
    | none => simp
    | some s =>
      have hknown : (conversationalPresets.any fun candidate =>
            candidate.frameDuration == codec.frameDuration
              && candidate.octets == s.toNat) = true
          ↔ ∃ p ∈ conversationalPresets,
            p.frameDuration = codec.frameDuration
              ∧ p.octets = s.toNat := by
        simp
      simp only [Option.some.injEq, exists_eq_left']
      by_cases hown : s = 0 ∨ s.toNat = codec.octetsPerFrame
      · have hno : ¬ (s ≠ 0 ∧ s.toNat ≠ codec.octetsPerFrame) :=
          fun h => hown.elim h.1 h.2
        simp [hno]
      · rw [not_or] at hown
        cases parsePreliminaryConfiguredQoS qos
            { codec with octetsPerFrame := s.toNat } with
        | error e' => simp
        | ok q => simp [he, hown]
  · simp [he]

/-- The second: nothing is allocated yet. -/
theorem unallocated_iff {e : QoSError} :
    (boundedUnallocatedConfiguredQoS qos codec e).isSome = true
      ↔ e = .sduMismatch ∧ qos.read "SDU" variantUint16 = some 0
        ∧ (qos.read "CIG" variantByte = some 0xff
          ∧ qos.read "CIS" variantByte = some 0xff)
        ∧ Passes (qos.withSDU (UInt16.ofNat codec.octetsPerFrame))
          codec := by
  have hselect : selectQoS [] codec = .ok (presetQoS codec) := rfl
  have hdict : ("SDU", Variant.uint16 (presetQoS codec).sdu) :: qos
      = qos.withSDU (UInt16.ofNat codec.octetsPerFrame) := rfl
  unfold boundedUnallocatedConfiguredQoS Passes
  rw [hselect]
  dsimp only
  rw [hdict]
  by_cases he : e = .sduMismatch
  · by_cases hs : qos.read "SDU" variantUint16 = some 0
    · by_cases hcig : qos.read "CIG" variantByte = some 0xff
      · by_cases hcis : qos.read "CIS" variantByte = some 0xff
        · cases parsePreliminaryConfiguredQoS
              (qos.withSDU (UInt16.ofNat codec.octetsPerFrame)) codec with
          | error e' | ok q => simp [he, hs, hcig, hcis]
        · simp [he, hs, hcig, hcis]
      · simp [he, hs, hcig]
    · simp [he, hs]
  · simp [he]

-- == acceptance

variable {raw : Bytes}

/-- A bounded dictionary is taken, and soundly. -/
theorem configuredQoS_bounded (hparse : parseConfiguration raw = .ok codec)
    (hqos : properties.get? "QoS" = some (.dict qos))
    (h : Bounded qos codec) :
    ∃ q, configuredQoS properties codec = .ok q ∧ q.Sound codec := by
  have hfits := parseConfiguration_octets hparse
  obtain ⟨s, hs, hcase⟩ := h.sdu
  unfold configuredQoS
  rw [hqos]
  dsimp only
  by_cases hown : s.toNat = codec.octetsPerFrame
  · have hpass := (passes_codec hfits hs).mpr h.passes
    rw [hown] at hpass
    obtain ⟨q, hq⟩ := hpass
    rw [hq]
    refine ⟨q, rfl, ?_⟩
    rw [preliminary_eq] at hq
    exact (parseConfiguredQoS_ok.mp hq).2.1
  · rw [parse_mismatch h.passes hs hown]
    dsimp only
    rw [if_pos]
    · exact ⟨presetQoS codec, rfl, presetQoS_sound hparse⟩
    · rcases hcase with heq | hknown | ⟨rfl, hids⟩
      · exact absurd heq hown
      · have hne : s ≠ 0 := by
          intro h0
          obtain ⟨p, hp, -, hoctets⟩ := hknown
          have hpos : ∀ p ∈ conversationalPresets, p.octets ≠ 0 := by
            decide
          exact hpos p hp (by rw [hoctets, h0]; rfl)
        exact Or.inl (stale_iff.mpr ⟨rfl, s, hs, ⟨hne, hown⟩, hknown,
          (passes_codec hfits hs).mpr h.passes⟩)
      · exact Or.inr (unallocated_iff.mpr ⟨rfl, hs, hids, h.passes⟩)

/-- Any other is refused. -/
theorem configuredQoS_refused (hparse : parseConfiguration raw = .ok codec)
    (hqos : properties.get? "QoS" = some (.dict qos))
    (h : ¬ Bounded qos codec) :
    ∃ e, configuredQoS properties codec = .error (.qos e) := by
  have hfits := parseConfiguration_octets hparse
  unfold configuredQoS
  rw [hqos]
  dsimp only
  cases hq : parsePreliminaryConfiguredQoS qos codec with
  | ok q =>
    exfalso
    apply h
    rw [preliminary_eq] at hq
    obtain ⟨hread, hsound, -⟩ := parseConfiguredQoS_ok.mp hq
    have hs := hread.sdu
    rw [read_completed_sdu] at hs
    refine ⟨(passes_codec hfits hs).mp ?_, _, hs, Or.inl hsound.sdu⟩
    rw [hsound.sdu]
    exact ⟨q, (preliminary_eq qos codec).trans hq⟩
  | error e =>
    dsimp only
    rw [if_neg]
    · exact ⟨e, rfl⟩
    · intro hexcept
      apply h
      rcases hexcept with hstale | hunallocated
      · obtain ⟨-, s, hs, -, hknown, hpass⟩ := stale_iff.mp hstale
        exact ⟨(passes_codec hfits hs).mp hpass, s, hs,
          Or.inr (Or.inl hknown)⟩
      · obtain ⟨-, hs, hids, hpass⟩ := unallocated_iff.mp hunallocated
        exact ⟨hpass, 0, hs, Or.inr (Or.inr ⟨rfl, hids⟩)⟩

/-- Behind the codec the reading is that of the QoS. -/
theorem readConfiguration_eq {configuration : Bytes}
    (hconfiguration : (properties.read "Configuration" variantBytes).or
      (properties.read "Capabilities" variantBytes) = some configuration)
    (hparse : parseConfiguration configuration = .ok codec) :
    readConfiguration properties
      = (configuredQoS properties codec).map fun q => (codec, q) := by
  unfold readConfiguration
  rw [hconfiguration]
  have hrequire : require (some configuration) (fun _ => true)
      EndpointError.configurationMissing = .ok configuration := rfl
  have hcodec : (Except.ok codec).mapError EndpointError.lc3
      = .ok codec := rfl
  rw [hrequire, ok_bind, hparse, hcodec, ok_bind]
  cases configuredQoS properties codec with
  | error e | ok q => rfl

theorem interval_of_parse (hparse : parseConfiguration raw = .ok codec) :
    codec.intervalUS.toNat * 1000 = codec.frameDuration := by
  obtain ⟨preset, hmem, allocation, -, rfl⟩ :=
    parseConfiguration_preset hparse
  have hall : ∀ p ∈ conversationalPresets,
      (UInt32.ofNat (p.frameDuration / 1000)).toNat * 1000
        = p.frameDuration := by
    decide
  exact hall preset hmem

/-- For a path below the device, `SetConfiguration` refuses a dictionary
exactly when it is not bounded; one that it takes is stored with the frame
size and the interval of the codec, unless the configuration generations
are used up; and whatever it refuses leaves the broker as it was. -/
theorem deferred_qos_bounded {b : Broker} {transport : ObjectPath}
    {direction : Direction} {configuration : Bytes}
    {out : Option EndpointError × Broker × List Event}
    (hconfiguration : (properties.read "Configuration" variantBytes).or
      (properties.read "Capabilities" variantBytes) = some configuration)
    (hparse : parseConfiguration configuration = .ok codec)
    (hqos : properties.get? "QoS" = some (.dict qos))
    (hbelow : (b.expectedDevice ++ [0x2f]).isPrefixOf transport = true)
    (hout : b.serveSetConfiguration true transport direction properties
      = out) :
    ((∀ e, out.1 ≠ some (.qos e)) ↔ Bounded qos codec)
      ∧ (out.1 = none
        ↔ Bounded qos codec ∧ b.nextConfig ≠ maxGeneration)
      ∧ (out.1 = none → ∃ q, out.2.1.configured.lookup transport
            = some ⟨direction, b.nextConfig + 1, codec, q⟩
          ∧ q.sdu.toNat = codec.octetsPerFrame
          ∧ q.intervalUS.toNat * 1000 = codec.frameDuration
          ∧ 1 ≤ q.targetLatency ∧ q.targetLatency ≤ 3)
      ∧ ∀ e, out.1 = some e → out.2.1 = b := by
  subst hout
  unfold Broker.serveSetConfiguration
  rw [readConfiguration_eq hconfiguration hparse]
  by_cases hbounded : Bounded qos codec
  · obtain ⟨q, hq, hsound⟩ := configuredQoS_bounded hparse hqos hbounded
    rw [hq]
    dsimp only [Except.map]
    by_cases hleft : b.nextConfig = maxGeneration
    · have hrefused : b.configureRefused true transport
          = some .generationExhausted := by
        unfold Broker.configureRefused
        simp [hbelow, hleft]
      unfold Broker.configure
      rw [hrefused]
      simp [hbounded, hleft]
    · have hnone : b.configureRefused true transport = none := by
        unfold Broker.configureRefused
        simp [hbelow, hleft]
      unfold Broker.configure
      rw [hnone]
      refine ⟨by simp [hbounded], by simp [hbounded, hleft], fun _ => ?_,
        by simp⟩
      refine ⟨q, ?_, hsound.sdu, ?_, hsound.targetLatency⟩
      · rw [GoMap.lookup_insert, if_pos rfl]
      · rw [hsound.interval, interval_of_parse hparse]
  · obtain ⟨e, he⟩ := configuredQoS_refused hparse hqos hbounded
    rw [he]
    simp [Except.map, hbounded]

/-- BlueZ still gives the frame size of the 24 kHz preset. -/
def staleProperties : Dict :=
  [("Configuration", .bytes (buildConfiguration
      ⟨"32_2", 0x06, 0x20, 0x01, 0x02, 32000, 10000000, 80⟩ 1)),
    ("QoS", .dict (("SDU", .uint16 60) :: qosVariants
      (presetQoS ⟨32000, 10000000, 80, 1⟩)))]

/-- A frame size left over from another preset. -/
theorem deferred_qos_bounded_stale :
    ∃ out, (newBroker (ascii "/d") true 1).serveSetConfiguration true
        (ascii "/d/a") .sink staleProperties = out
      ∧ out.1 = none
      ∧ Bounded (("SDU", .uint16 60) :: qosVariants
          (presetQoS ⟨32000, 10000000, 80, 1⟩)) ⟨32000, 10000000, 80, 1⟩
      ∧ ∃ q, out.2.1.configured.lookup (ascii "/d/a")
            = some ⟨.sink, 1, ⟨32000, 10000000, 80, 1⟩, q⟩
          ∧ q.sdu.toNat = 80 := by
  have hparse : parseConfiguration (buildConfiguration
        ⟨"32_2", 0x06, 0x20, 0x01, 0x02, 32000, 10000000, 80⟩ 1)
      = .ok ⟨32000, 10000000, 80, 1⟩ := by decide
  have hbelow : ((newBroker (ascii "/d") true 1).expectedDevice
      ++ [0x2f]).isPrefixOf (ascii "/d/a") = true := by decide +kernel
  have hout : (newBroker (ascii "/d") true 1).serveSetConfiguration true
      (ascii "/d/a") .sink staleProperties = _ := rfl
  have hall := deferred_qos_bounded rfl hparse rfl hbelow hout
  have hnone : ((newBroker (ascii "/d") true 1).serveSetConfiguration true
      (ascii "/d/a") .sink staleProperties).1 = none := by
    decide +kernel
  obtain ⟨q, hq, hsdu, -⟩ := hall.2.2.1 hnone
  exact ⟨_, rfl, hnone, (hall.2.1.mp hnone).1, q, hq, hsdu⟩

end Callbridge.Bluez
