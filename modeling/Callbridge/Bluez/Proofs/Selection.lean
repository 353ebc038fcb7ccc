/-
The choice of a codec configuration. The capabilities of the remote
endpoint are masks and a range, a configuration is codes and a number; the
table of presets relates them. `Offers` reads the capabilities off their
entries, as the code does (`readCapabilities_iff`), and a configuration
built from a preset is read back as that preset (`parse_build`).
-/
import Callbridge.Bluez.Proofs.Echo
import Callbridge.Bluez.Proofs.Ltv

namespace Callbridge.Bluez

open Lib

variable {entries : List (UInt8 × Bytes)} {values : GoMap UInt8 Bytes}
  {c : Capabilities} {candidate : Preset} {allocation : UInt32}

-- == one location

/-- The allocation has one bit set. -/
def OneBit (allocation : UInt32) : Prop :=
  ∃ i < 32, ∀ j < 32, allocation.toBitVec.getLsbD j = true ↔ j = i

/-- One bit set is a power of two. -/
theorem onesCount32_eq_one :
    onesCount32 allocation = 1 ↔ OneBit allocation := by
  unfold onesCount32
  rw [List.countP_eq_length_filter, List.length_eq_one_iff]
  constructor
  · intro h
    obtain ⟨i, hi⟩ := h
    have hmem : ∀ j, j < 32 ∧ allocation.toBitVec.getLsbD j = true
        ↔ j = i := by
      intro j
      rw [← List.mem_range, ← List.mem_filter, hi, List.mem_singleton]
    refine ⟨i, ((hmem i).mpr rfl).1, fun j hj => ?_⟩
    rw [← hmem j]
    exact ⟨fun hbit => ⟨hj, hbit⟩, fun hboth => hboth.2⟩
  · intro h
    obtain ⟨i, hi, hbits⟩ := h
    refine ⟨i, List.perm_singleton.mp ?_⟩
    refine (List.perm_ext_iff_of_nodup (List.nodup_range.filter _)
      (List.nodup_singleton i)).mpr fun j => ?_
    rw [List.mem_filter, List.mem_range, List.mem_singleton]
    constructor
    · intro hj
      exact (hbits j hj.1).mp hj.2
    · intro hj
      rw [hj]
      exact ⟨hi, (hbits i hi).mpr rfl⟩

theorem oneLocation_iff :
    oneLocation allocation = true ↔ OneBit allocation := by
  rw [← onesCount32_eq_one]
  have hzero : onesCount32 0 = 0 := by decide
  unfold oneLocation
  simp only [Bool.not_eq_true', Bool.or_eq_false_iff, beq_eq_false_iff_ne,
    bne_eq_false_iff_eq]
  constructor
  · exact fun h => h.2
  · intro h
    refine ⟨fun h0 => ?_, h⟩
    rw [h0, hzero] at h
    cases h

-- == capabilities

/-- The entries are those of an endpoint with these capabilities: two
bytes of frequencies, one of durations, one of channel counts with mono
among them, and a range of frame lengths. -/
structure Offers (entries : List (UInt8 × Bytes)) (c : Capabilities) :
    Prop where
  frequency : ∃ low high, (ltvFrequency, [low, high]) ∈ entries
    ∧ c.frequencyMask = uint16 [low, high]
  duration : (ltvDuration, [c.duration]) ∈ entries
  durations : c.duration &&& 0x03 ≠ 0
  mono : ∃ channels, (ltvChannelAllocation, [channels]) ∈ entries
    ∧ channels &&& 0x01 ≠ 0
  frameLength : ∃ low high low' high',
    (ltvFrameLength, [low, high, low', high']) ∈ entries
      ∧ c.minimum = (uint16 [low, high]).toNat
      ∧ c.maximum = (uint16 [low', high']).toNat
  least : 1 ≤ c.minimum
  range : c.minimum ≤ c.maximum

/-- The chain of checks, as one condition on the four entries. -/
theorem readCapabilities_ok :
    readCapabilities values = .ok c
      ↔ ∃ frequency duration channels frameLength,
        values.lookup ltvFrequency = some frequency
        ∧ values.lookup ltvDuration = some duration
        ∧ values.lookup ltvChannelAllocation = some channels
        ∧ values.lookup ltvFrameLength = some frameLength
        ∧ frequency.length = 2
        ∧ (duration.length = 1 ∧ byteAt duration 0 &&& 0x03 ≠ 0)
        ∧ (channels.length = 1 ∧ byteAt channels 0 &&& 0x01 ≠ 0)
        ∧ frameLength.length = 4
        ∧ ((uint16 (slice frameLength 0 2)).toNat ≠ 0
          ∧ (uint16 (slice frameLength 0 2)).toNat
            ≤ (uint16 (slice frameLength 2 4)).toNat)
        ∧ c = ⟨uint16 frequency, byteAt duration 0,
            (uint16 (slice frameLength 0 2)).toNat,
            (uint16 (slice frameLength 2 4)).toNat⟩ := by
  unfold readCapabilities
  cases hf : values.lookup ltvFrequency with
  | none => simp
  | some frequency =>
  cases hd : values.lookup ltvDuration with
  | none =>
    simp only [ite_error_eq_ok, reduceCtorEq, and_false, false_and,
      exists_false]
  | some duration =>
  cases hc : values.lookup ltvChannelAllocation with
  | none =>
    simp only [ite_error_eq_ok, reduceCtorEq, and_false, false_and,
      exists_false]
  | some channels =>
  cases hl : values.lookup ltvFrameLength with
  | none =>
    simp only [ite_error_eq_ok, reduceCtorEq, and_false, false_and,
      exists_false]
  | some frameLength =>
  simp only [ite_error_eq_ok, not_or, not_not, ne_eq, Nat.not_lt,
    gt_iff_lt, Except.ok.injEq, Option.some.injEq, exists_eq_left',
    exists_and_left, eq_comm (a := c)]

/-- The code reads what the entries offer. -/
theorem readCapabilities_iff (h : Entries entries) :
    readCapabilities (collect ∅ entries) = .ok c ↔ Offers entries c := by
  rw [readCapabilities_ok]
  simp only [h.lookup]
  constructor
  · rintro ⟨frequency, duration, channels, frameLength, hf, hd, hc, hl,
      hflen, ⟨hdlen, hdurs⟩, ⟨hclen, hmono⟩, hllen, ⟨hleast, hrange⟩, rfl⟩
    obtain ⟨low, high, rfl⟩ := List.length_eq_two.mp hflen
    obtain ⟨d, rfl⟩ := List.length_eq_one_iff.mp hdlen
    obtain ⟨m, rfl⟩ := List.length_eq_one_iff.mp hclen
    obtain ⟨a, tail, rfl⟩ := List.exists_cons_of_length_eq_add_one hllen
    obtain ⟨b, a', b', rfl⟩ :=
      List.length_eq_three.mp (Nat.succ.inj hllen)
    exact ⟨⟨low, high, hf, rfl⟩, hd, hdurs, ⟨m, hc, hmono⟩,
      ⟨a, b, a', b', hl, rfl, rfl⟩, Nat.pos_of_ne_zero hleast, hrange⟩
  · intro ho
    obtain ⟨low, high, hf, hmask⟩ := ho.frequency
    obtain ⟨m, hc, hmono⟩ := ho.mono
    obtain ⟨a, b, a', b', hl, hmin, hmax⟩ := ho.frameLength
    have hleast := ho.least
    have hrange := ho.range
    rw [hmin] at hleast hrange
    rw [hmax] at hrange
    refine ⟨[low, high], [c.duration], [m], [a, b, a', b'], hf, ho.duration,
      hc, hl, rfl, ⟨rfl, ho.durations⟩, ⟨rfl, hmono⟩, rfl,
      ⟨Nat.ne_of_gt hleast, hrange⟩, ?_⟩
    obtain ⟨mask, d, least, most⟩ := c
    cases hmask
    cases hmin
    cases hmax
    rfl

-- == the round trip

/-- The entries a configuration is built of. -/
def configurationEntries (candidate : Preset) (allocation : UInt32) :
    List (UInt8 × Bytes) :=
  [(ltvFrequency, [candidate.frequencyCode]),
    (ltvDuration, [candidate.durationCode]),
    (ltvChannelAllocation, putUint32 allocation),
    (ltvFrameLength, [UInt8.ofNat candidate.octets,
      UInt8.ofNat (candidate.octets / 256)])]

theorem toUInt8_eq (v : UInt32) : v.toUInt8 = UInt8.ofNat v.toNat := by
  apply UInt8.toNat_inj.mp
  rw [UInt32.toNat_toUInt8, UInt8.toNat_ofNat']

/-- The four bytes of a word, low first. -/
theorem putUint32_eq (v : UInt32) :
    putUint32 v = [v.toUInt8, (v >>> 8).toUInt8, (v >>> 16).toUInt8,
      (v >>> 24).toUInt8] := by
  have h8 : (v >>> 8).toNat = v.toNat / 256 := by
    exact Nat.shiftRight_eq_div_pow _ 8
  have h16 : (v >>> 16).toNat = v.toNat / 256 / 256 := by
    rw [UInt32.toNat_shiftRight, Nat.div_div_eq_div_mul]
    exact Nat.shiftRight_eq_div_pow _ 16
  have h24 : (v >>> 24).toNat = v.toNat / 256 / 256 / 256 := by
    rw [UInt32.toNat_shiftRight, Nat.div_div_eq_div_mul,
      Nat.div_div_eq_div_mul]
    exact Nat.shiftRight_eq_div_pow _ 24
  simp only [toUInt8_eq, h8, h16, h24]
  rfl

/-- What is built is a list of entries. -/
theorem build_isLTV (candidate : Preset) (allocation : UInt32) :
    IsLTV (buildConfiguration candidate allocation)
      (configurationEntries candidate allocation) where
  encoded := by
    unfold configurationEntries
    rw [putUint32_eq]
    rfl
  entries := by
    refine ⟨?_, ?_⟩
    · unfold configurationEntries Holdable
      simp [putUint32]
    · show [ltvFrequency, ltvDuration, ltvChannelAllocation,
        ltvFrameLength].Nodup
      decide
  nonempty := by simp [buildConfiguration]
  bounded := by simp [buildConfiguration]

/-- Every preset of the table is found by its codes and has octets that
fit the two bytes. -/
theorem preset_found (h : candidate ∈ conversationalPresets) :
    candidate.durationCode ≤ 0x01
      ∧ (uint16 [UInt8.ofNat candidate.octets,
          UInt8.ofNat (candidate.octets / 256)]).toNat = candidate.octets
      ∧ conversationalPresets.find? (fun p =>
          candidate.frequencyCode == p.frequencyCode
            && candidate.durationCode == p.durationCode)
        = some candidate := by
  revert candidate
  decide

theorem parseAllocation_put (hone : oneLocation allocation = true)
    (h : values.lookup ltvChannelAllocation = some (putUint32 allocation)) :
    parseAllocation values = .ok allocation := by
  have hlen : (putUint32 allocation).length = 4 := leBytes_length 4 _
  unfold parseAllocation
  rw [h]
  dsimp only
  rw [if_neg (not_not.mpr hlen), uint32_put, hone]
  rfl

theorem parsePreset_found (h : candidate ∈ conversationalPresets) :
    parsePreset candidate.frequencyCode candidate.durationCode
        candidate.octets allocation
      = .ok ⟨candidate.sampleRate, candidate.frameDuration,
          candidate.octets, allocation⟩ := by
  unfold parsePreset
  rw [(preset_found h).2.2]
  simp

/-- A configuration built from a preset is read as that preset. -/
theorem parse_build (h : candidate ∈ conversationalPresets)
    (hone : oneLocation allocation = true) :
    parseConfiguration (buildConfiguration candidate allocation)
      = .ok ⟨candidate.sampleRate, candidate.frameDuration,
          candidate.octets, allocation⟩ := by
  obtain ⟨hduration, hoctets, -⟩ := preset_found h
  have hltv := build_isLTV candidate allocation
  have hin : ∀ e ∈ configurationEntries candidate allocation,
      (collect ∅ (configurationEntries candidate allocation)).lookup e.1
        = some e.2 := fun _ he => hltv.entries.lookup.mpr he
  have hblocks : (collect ∅ (configurationEntries candidate
      allocation)).lookup ltvFrameBlocksPerSDU = none := by
    rw [Option.eq_none_iff_forall_ne_some]
    intro value hvalue
    have hentry := hltv.entries.lookup.mp hvalue
    simp [configurationEntries, ltvFrequency, ltvDuration,
      ltvChannelAllocation, ltvFrameLength, ltvFrameBlocksPerSDU] at hentry
  unfold parseConfiguration
  rw [parseLTV_iff.mpr ⟨_, hltv, rfl⟩]
  dsimp only
  generalize collect ∅ (configurationEntries candidate allocation) = values
    at hin hblocks
  simp only [configurationEntries, List.forall_mem_cons] at hin
  obtain ⟨hfrequency, hdur, hchannels, hframe, -⟩ := hin
  unfold parseValues frameBlocksRefused
  rw [hfrequency, hdur, hframe, hblocks, parseAllocation_put hone hchannels]
  dsimp only
  rw [hoctets, if_neg (by simp), if_neg, if_neg (by simp)]
  · exact parsePreset_found h
  · rw [not_or]
    exact ⟨by simp, UInt8.not_lt.mpr hduration⟩

-- == the choice

/-- The preset is the first of the table that the endpoint supports. -/
def FirstAdmitted (c : Capabilities) (candidate : Preset) : Prop :=
  ∃ before after, conversationalPresets = before ++ candidate :: after
    ∧ c.admits candidate = true ∧ ∀ p ∈ before, ¬ c.admits p = true

theorem find_admits :
    conversationalPresets.find? c.admits = some candidate
      ↔ FirstAdmitted c candidate := by
  rw [List.find?_eq_some_iff_append]
  constructor
  · intro h
    obtain ⟨hyes, before, after, htable, hno⟩ := h
    exact ⟨before, after, htable, hyes, by simpa using hno⟩
  · intro h
    obtain ⟨before, after, htable, hyes, hno⟩ := h
    exact ⟨hyes, before, after, htable, by simpa using hno⟩

/-- What a selection that succeeds has found. -/
structure Selects (capabilities : Bytes) (allocation : UInt32)
    (configuration : Bytes) (candidate : Preset) : Prop where
  one : OneBit allocation
  offered : ∃ entries c, IsLTV capabilities entries ∧ Offers entries c
    ∧ FirstAdmitted c candidate
  built : configuration = buildConfiguration candidate allocation

/-- A selection is the first preset the offer admits. -/
theorem select_iff {capabilities configuration : Bytes} :
    selectConfigurationForAllocation capabilities allocation
        = .ok configuration
      ↔ ∃ candidate,
        Selects capabilities allocation configuration candidate := by
  unfold selectConfigurationForAllocation
  constructor
  · intro h
    obtain ⟨hone, h⟩ := ite_error_eq_ok.mp h
    have hone' : oneLocation allocation = true := by simpa using hone
    cases hltv : parseLTV capabilities with
    | error e =>
      rw [hltv] at h
      cases h
    | ok values =>
      rw [hltv] at h
      cases hread : readCapabilities values with
      | error e =>
        simp only [hread] at h
        cases h
      | ok c =>
        simp only [hread] at h
        cases hfind : conversationalPresets.find? c.admits with
        | none =>
          rw [hfind] at h
          cases h
        | some candidate =>
          rw [hfind] at h
          cases h
          obtain ⟨entries, hisltv, rfl⟩ := parseLTV_iff.mp hltv
          exact ⟨candidate, oneLocation_iff.mp hone',
            ⟨entries, c, hisltv,
              (readCapabilities_iff hisltv.entries).mp hread,
              find_admits.mp hfind⟩, rfl⟩
  · intro h
    obtain ⟨candidate, hone, ⟨entries, c, hltv, hoffers, hfirst⟩, rfl⟩ := h
    rw [oneLocation_iff.mpr hone, parseLTV_iff.mpr ⟨entries, hltv, rfl⟩]
    simp only [(readCapabilities_iff hltv.entries).mpr hoffers,
      find_admits.mpr hfirst]
    rfl

/-- A selection succeeds exactly when the allocation is one location and
the capabilities are well formed and admit a preset; it then builds the
first preset of the table that they admit, and what it builds is read as
that preset. -/
theorem selects_first_admitted (capabilities : Bytes)
    (allocation : UInt32) :
    ((∃ configuration, selectConfigurationForAllocation capabilities
        allocation = .ok configuration)
      ↔ OneBit allocation ∧ ∃ entries c, IsLTV capabilities entries
        ∧ Offers entries c
        ∧ ∃ p ∈ conversationalPresets, c.admits p = true)
      ∧ ∀ configuration, selectConfigurationForAllocation capabilities
          allocation = .ok configuration →
        ∃ candidate,
          Selects capabilities allocation configuration candidate
          ∧ parseConfiguration configuration
            = .ok ⟨candidate.sampleRate, candidate.frameDuration,
                candidate.octets, allocation⟩ := by
  refine ⟨⟨?_, ?_⟩, ?_⟩
  · intro h
    obtain ⟨configuration, h⟩ := h
    obtain ⟨candidate, hone, ⟨entries, c, hltv, hoffers, hfirst⟩, -⟩ :=
      select_iff.mp h
    obtain ⟨before, after, htable, hyes, -⟩ := hfirst
    refine ⟨hone, entries, c, hltv, hoffers, candidate, ?_, hyes⟩
    rw [htable]
    exact List.mem_append_right _ List.mem_cons_self
  · intro h
    obtain ⟨hone, entries, c, hltv, hoffers, p, hp, hyes⟩ := h
    obtain ⟨candidate, hfind⟩ := Option.isSome_iff_exists.mp
      (List.find?_isSome.mpr ⟨p, hp, hyes⟩)
    exact ⟨_, select_iff.mpr ⟨candidate, hone,
      ⟨entries, c, hltv, hoffers, find_admits.mp hfind⟩, rfl⟩⟩
  · intro configuration h
    obtain ⟨candidate, hselects⟩ := select_iff.mp h
    refine ⟨candidate, hselects, ?_⟩
    obtain ⟨_, _, -, -, before, after, htable, -, -⟩ := hselects.offered
    rw [hselects.built]
    apply parse_build _ (oneLocation_iff.mpr hselects.one)
    rw [htable]
    exact List.mem_append_right _ List.mem_cons_self

end Callbridge.Bluez
