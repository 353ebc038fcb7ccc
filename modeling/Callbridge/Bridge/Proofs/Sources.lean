/-
The outbox API is for the machine itself and for the hosts the
configuration names one by one.

`Validate` looks at the base and the length of every allowed prefix, a
request is matched against the prefix as a whole. A prefix whose base is a
loopback address has at least eight bits, so what it contains lies in
127.0.0.0/8. Any other has exactly 32 bits: of the IPv4 prefixes that is a
single address, and an IPv6 prefix contains no IPv4 address at all.
-/
import Callbridge.Bridge.Wake

namespace Callbridge.Config

open Lib Lib.Netip Message

variable {parseIPv6 : Bytes → Option (BitVec 128 × Bytes)} {p : Prefix}
  {c : Settings}

-- == what validation leaves

/-- A prefix passes when it is a loopback prefix of at least eight bits or
any other of exactly 32. -/
theorem checkSource_eq_none (h : checkSource p = none) :
    (p.addr.isLoopback = true ∧ 8 ≤ p.bitCount) ∨ p.bitCount = 32 := by
  unfold checkSource at h
  by_cases hloop : p.addr.isLoopback = true
  · rw [if_pos hloop, ite_some_eq_none] at h
    exact Or.inl ⟨hloop, Int.not_lt.mp h.1⟩
  · rw [if_neg hloop, ite_some_eq_none, not_not] at h
    exact Or.inr h.1

/-- A validated configuration has no prefix that the loop refuses. -/
theorem checkSource_of_validate (h : c.validate parseIPv6 = .ok ())
    (hp : p ∈ c.allowedSources) : checkSource p = none := by
  simp only [Settings.validate, bind_eq_ok] at h
  obtain ⟨-, -, -, -, -, -, -, -, -, -, -, -, -, -, -, -, -, -, -, -, -, -, -,
    -, -, -, -, -, -, -, -, -, -, -, h⟩ := h
  split at h
  · cases h
  case h_2 hnone =>
    exact List.findSome?_eq_none_iff.mp hnone p hp

/-- What `load` returns has been validated, and its sources are what
`prefixes` made of the environment. -/
theorem load_eq_ok {getenv : String → Bytes}
    (h : load parseIPv6 getenv = .ok c) :
    c.validate parseIPv6 = .ok ()
      ∧ prefixes parseIPv6 (env getenv "OUTBOX_ALLOWED_SOURCES"
          (ascii "127.0.0.0/8")) = .ok c.allowedSources := by
  simp only [load, bind_eq_ok] at h
  obtain ⟨_, -, _, -, _, -, _, -, _, -, _, -, sources, hsources, _, -, _, -, _,
    -, _, -, u, hvalid, hc⟩ := h
  cases hc
  exact ⟨hvalid, hsources⟩

-- == written prefixes

/-- A valid IPv4 prefix whose base has no bit behind its length. -/
def Network (p : Prefix) : Prop :=
  ∃ base n, p.addr = .v4 base ∧ p.bits = some n
    ∧ base &&& BitVec.allOnes 32 <<< (32 - n) = base

theorem network_masked {s : Bytes} (h : parsePrefix parseIPv6 s = some p)
    (h4 : p.addr.is4 = true) :
    Network p.masked := by
  obtain ⟨n, hbits⟩ := bits_parsePrefix parseIPv6 h
  obtain ⟨base, haddr⟩ := Addr.is4_iff.mp h4
  have hmasked := Prefix.masked_v4 haddr hbits
  refine ⟨_, n, hmasked.1, hmasked.2, ?_⟩
  rw [BitVec.and_assoc, BitVec.and_self]

/-- Each allowed prefix is a network, and listed once. -/
theorem prefixesFrom_networks {result out : List Prefix}
    {fields : List Bytes} (h : prefixesFrom parseIPv6 result fields = .ok out)
    (hnodup : result.Nodup) (hnet : ∀ p ∈ result, Network p) :
    out.Nodup ∧ ∀ p ∈ out, Network p := by
  induction fields generalizing result with
  | nil =>
    cases h
    exact ⟨hnodup, hnet⟩
  | cons field fields ih =>
    simp only [prefixesFrom] at h
    split at h
    · exact ih h hnodup hnet
    split at h
    · cases h
    case h_2 p hparse =>
      by_cases h4 : p.addr.is4 = true
      · rw [if_neg (by simp [h4])] at h
        split at h
        · exact ih h hnodup hnet
        case isFalse hnew =>
          refine ih h ?_ ?_
          · apply List.nodup_append_comm.mp
            exact List.nodup_cons.mpr ⟨hnew, hnodup⟩
          · intro q hq
            rcases List.mem_append.mp hq with hq | hq
            · exact hnet q hq
            · rw [List.mem_singleton.mp hq]
              exact network_masked hparse h4
      · rw [if_pos (Bool.not_eq_true _ ▸ h4)] at h
        cases h

/-- The sources of a loaded configuration are IPv4 networks, each listed
once. -/
theorem load_networks {getenv : String → Bytes}
    (h : load parseIPv6 getenv = .ok c) :
    c.allowedSources.Nodup ∧ ∀ p ∈ c.allowedSources, Network p :=
  prefixesFrom_networks (load_eq_ok h).2 List.nodup_nil (by simp)

end Callbridge.Config

namespace Callbridge.Bridge

open Lib Lib.Netip

variable {parseIPv6 : Bytes → Option (BitVec 128 × Bytes)}
  {cfg : Config.Settings} {remote : Bytes}

-- == one matching prefix

/-- An IPv4 address in 127.0.0.0/8. -/
def Loopback (a : BitVec 32) : Prop := a >>> 24 = 127#32

/-- A prefix that validation lets pass contains no IPv4 address outside
127.0.0.0/8 but its own. -/
theorem exact_of_contains {a : BitVec 32}
    (hcheck : Config.checkSource p = none) (h : p.contains (.v4 a) = true) :
    Loopback a ∨ p.addr = .v4 a ∧ p.bits = some 32 := by
  obtain ⟨base, n, haddr, hbits, hn, hlead⟩ := Prefix.contains_v4 h
  have hcount : p.bitCount = n := by
    unfold Prefix.bitCount
    rw [hbits]
  rcases Config.checkSource_eq_none hcheck with ⟨hloop, hlong⟩ | hexact
  · rw [haddr, Addr.isLoopback_v4] at hloop
    have heq : a >>> (32 - 8) = base >>> (32 - 8) :=
      leading_eq hlead (by omega)
    exact Or.inl (heq.trans hloop)
  · obtain rfl : n = 32 := by omega
    rw [haddr, eq_of_leading hlead]
    exact Or.inr ⟨rfl, hbits⟩

-- == requests

/-- A source is allowed when it is an IPv4 address that one of the
prefixes contains. -/
theorem sourceAllowed_eq_true
    (h : sourceAllowed parseIPv6 cfg remote = true) :
    ∃ host port a, splitHostPort remote = some (host, port)
      ∧ parseAddr parseIPv6 host = some (.v4 a)
      ∧ ∃ p ∈ cfg.allowedSources, p.contains (.v4 a) = true := by
  unfold sourceAllowed at h
  split at h
  · cases h
  case h_2 host port hsplit =>
    split at h
    · cases h
    case h_2 address hparse =>
      by_cases h4 : address.is4 = true
      · obtain ⟨a, rfl⟩ := Addr.is4_iff.mp h4
        exact ⟨host, port, a, hsplit, hparse, List.any_eq_true.mp h⟩
      · rw [if_pos (Bool.not_eq_true _ ▸ h4)] at h
        cases h

/-- The remote address is an IPv4 address in 127.0.0.0/8 or the one of a
configured prefix of 32 bits. -/
def ExactSource (parseIPv6 : Bytes → Option (BitVec 128 × Bytes))
    (cfg : Config.Settings) (remote : Bytes) : Prop :=
  ∃ host port a, splitHostPort remote = some (host, port)
    ∧ parseAddr parseIPv6 host = some (.v4 a)
    ∧ (Loopback a
      ∨ ∃ p ∈ cfg.allowedSources, p.addr = .v4 a ∧ p.bits = some 32)

/-- What is let in is local, or named in the settings. -/
theorem exactSource_of_allowed (hvalid : cfg.validate parseIPv6 = .ok ())
    (h : sourceAllowed parseIPv6 cfg remote = true) :
    ExactSource parseIPv6 cfg remote := by
  obtain ⟨host, port, a, hsplit, hparse, p, hp, hcontains⟩ :=
    sourceAllowed_eq_true h
  refine ⟨host, port, a, hsplit, hparse, ?_⟩
  rcases exact_of_contains (Config.checkSource_of_validate hvalid hp)
    hcontains with hloop | hexact
  · exact Or.inl hloop
  · exact Or.inr ⟨p, hp, hexact⟩

/-- Whatever a validated bridge does with a request other than refuse it,
the request comes from the machine itself or a host of the list. -/
theorem exactSource_of_served (hvalid : cfg.validate parseIPv6 = .ok ())
    {r : OutboxRequest} (h : outboxHandler parseIPv6 cfg r ≠ .forbidden) :
    ExactSource parseIPv6 cfg r.remoteAddr := by
  by_cases hallowed : sourceAllowed parseIPv6 cfg r.remoteAddr = true
  · exact exactSource_of_allowed hvalid hallowed
  · refine absurd ?_ h
    unfold outboxHandler
    rw [if_pos (Bool.not_eq_true _ ▸ hallowed)]

/-- For every configuration that `Validate` accepts and every remote
address: an allowed source is an IPv4 address in 127.0.0.0/8 or exactly
the address of a configured prefix of 32 bits. -/
theorem allowed_sources_exact
    (parseIPv6 : Bytes → Option (BitVec 128 × Bytes)) (cfg : Config.Settings)
    (hvalid : cfg.validate parseIPv6 = .ok ()) (remote : Bytes)
    (hallowed : sourceAllowed parseIPv6 cfg remote = true) :
    ∃ host port a, splitHostPort remote = some (host, port)
      ∧ parseAddr parseIPv6 host = some (.v4 a)
      ∧ (a >>> 24 = 127#32
        ∨ ∃ p ∈ cfg.allowedSources, p.addr = .v4 a ∧ p.bits = some 32) :=
  exactSource_of_allowed hvalid hallowed

/-- An environment that names a phone, its channel and one host. -/
def roomEnv (name : String) : Bytes :=
  if name = "BT_DEVICE" then ascii "AA:BB:CC:DD:EE:FF"
  else if name = "MAS_CHANNEL" then ascii "5"
  else if name = "OUTBOX_ALLOWED_SOURCES" then ascii "10.0.0.1"
  else []

/-- It loads, the defaults pass, and the host is allowed. -/
theorem allowed_sources_exact_room :
    ∃ cfg : Config.Settings,
      Config.load (fun _ => none) roomEnv = .ok cfg
        ∧ ∃ host port a,
          splitHostPort (ascii "10.0.0.1:50000") = some (host, port)
            ∧ parseAddr (fun _ => none) host = some (.v4 a)
            ∧ (a >>> 24 = 127#32
              ∨ ∃ p ∈ cfg.allowedSources,
                p.addr = .v4 a ∧ p.bits = some 32) := by
  have hload : (Config.load (fun _ => none) roomEnv).toOption.any
      (fun cfg => sourceAllowed (fun _ => none) cfg (ascii "10.0.0.1:50000"))
        = true := by decide +kernel
  cases hcfg : Config.load (fun _ => none) roomEnv with
  | error e =>
    rw [hcfg] at hload
    cases hload
  | ok cfg =>
    rw [hcfg] at hload
    exact ⟨cfg, rfl, allowed_sources_exact (fun _ => none) cfg
      (Config.load_eq_ok hcfg).1 _ hload⟩

end Callbridge.Bridge
