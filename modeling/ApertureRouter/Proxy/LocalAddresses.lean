import ApertureRouter.Lib.Cidr
import ApertureRouter.Proxy.Rebinding

/-!
# Local addresses

Which of the addresses that a host delivers to itself or to its local network the check of a
provider's host (`validate_provider_url_host`, `src/proxy/client.rs`) refuses.

* `IsLocal`: these addresses, as blocks.
* `isBlocked_iff`: the tests of the code are on these blocks. The unspecified addresses are missing,
  and the multicast ones come on top.
* `Network.local_refused_iff`: a URL that leads to a local address is refused exactly if that address
  or another one that the host denotes is not an unspecified one.
-/

namespace ApertureRouter

/-! ## Addresses as numbers -/

/-- The octets one after the other. -/
def Ipv4Addr.bits (v4 : Ipv4Addr) : BitVec (8 + 8 + 8 + 8) :=
  v4.a.toBitVec ++ v4.b.toBitVec ++ v4.c.toBitVec ++ v4.d.toBitVec

/-- The segments one after the other. -/
def Ipv6Addr.bits (v6 : Ipv6Addr) : BitVec (16 + 16 + 16 + 16 + 16 + 16 + 16 + 16) :=
  v6.s0.toBitVec ++ v6.s1.toBitVec ++ v6.s2.toBitVec ++ v6.s3.toBitVec ++ v6.s4.toBitVec ++
    v6.s5.toBitVec ++ v6.s6.toBitVec ++ v6.s7.toBitVec

/-- The blocks of local IPv4 addresses, those of the metadata servers among them. -/
def localV4 : List (Cidr 32) :=
  [⟨(Ipv4Addr.mk 127 0 0 0).bits, 8, by decide⟩, ⟨(Ipv4Addr.mk 0 0 0 0).bits, 32, by decide⟩,
    ⟨(Ipv4Addr.mk 10 0 0 0).bits, 8, by decide⟩, ⟨(Ipv4Addr.mk 172 16 0 0).bits, 12, by decide⟩,
    ⟨(Ipv4Addr.mk 192 168 0 0).bits, 16, by decide⟩,
    ⟨(Ipv4Addr.mk 169 254 0 0).bits, 16, by decide⟩,
    ⟨(Ipv4Addr.mk 169 254 169 254).bits, 32, by decide⟩,
    ⟨(Ipv4Addr.mk 100 100 100 200).bits, 32, by decide⟩]

/-- The blocks of local IPv6 addresses. -/
def localV6 : List (Cidr 128) :=
  [⟨(Ipv6Addr.mk 0 0 0 0 0 0 0 1).bits, 128, by decide⟩,
    ⟨(Ipv6Addr.mk 0 0 0 0 0 0 0 0).bits, 128, by decide⟩,
    ⟨(Ipv6Addr.mk 0xFC00 0 0 0 0 0 0 0).bits, 7, by decide⟩,
    ⟨(Ipv6Addr.mk 0xFE80 0 0 0 0 0 0 0).bits, 10, by decide⟩]

def Ipv4Addr.IsLocal (v4 : Ipv4Addr) : Prop := ∃ block ∈ localV4, block.Contains v4.bits

/-- `v6` is in `::ffff:0:0/96`, with the address `v4` at its end. -/
def Ipv6Addr.Maps (v6 : Ipv6Addr) (v4 : Ipv4Addr) : Prop :=
  v6.bits.toNat = 0xFFFF * 2 ^ 32 + v4.bits.toNat

/-- The host delivers the address to itself or to its local network. -/
def IsLocal : IpAddr → Prop
  | .v4 v4 => v4.IsLocal
  | .v6 v6 => (∃ block ∈ localV6, block.Contains v6.bits) ∨ ∃ v4, v4.IsLocal ∧ v6.Maps v4

/-- `0.0.0.0`, `::` and `::ffff:0.0.0.0`. -/
def IsUnspecified : IpAddr → Prop
  | .v4 v4 => v4 = ⟨0, 0, 0, 0⟩
  | .v6 v6 => v6 = ⟨0, 0, 0, 0, 0, 0, 0, 0⟩ ∨ v6.Maps ⟨0, 0, 0, 0⟩

/-- `ff00::/8`. -/
def IsMulticastV6 : IpAddr → Prop
  | .v4 _ => False
  | .v6 v6 => (Cidr.mk (Ipv6Addr.mk 0xFF00 0 0 0 0 0 0 0).bits 8 (by decide)).Contains v6.bits

/-! ## The tests of the code -/

namespace Ipv4Addr

variable {v4 base : Ipv4Addr}

theorem bits_inj : v4.bits = base.bits ↔ v4 = base := by
  cases v4
  cases base
  unfold bits
  rw [Cidr.append_inj, Cidr.append_inj, Cidr.append_inj, UInt8.toBitVec_inj, UInt8.toBitVec_inj,
    UInt8.toBitVec_inj, UInt8.toBitVec_inj, and_assoc, and_assoc, mk.injEq]

/-- A block of the first octet. -/
theorem contains_octet : (Cidr.mk base.bits 8 (by decide)).Contains v4.bits ↔ v4.a = base.a := by
  unfold bits
  rw [Cidr.contains_append (by decide), Cidr.contains_append (by decide),
    Cidr.contains_append (by decide), Cidr.contains_whole, UInt8.toBitVec_inj]

/-- A block within the first two octets. -/
theorem contains_octets {len : Nat} (hlen : len ≤ 16) :
    (Cidr.mk base.bits len (by omega)).Contains v4.bits ↔
      (Cidr.mk (base.a.toBitVec ++ base.b.toBitVec) len hlen).Contains
        (v4.a.toBitVec ++ v4.b.toBitVec) := by
  unfold bits
  rw [Cidr.contains_append (by omega), Cidr.contains_append hlen]

theorem contains_two_octets :
    (Cidr.mk base.bits 16 (by decide)).Contains v4.bits ↔ v4.a = base.a ∧ v4.b = base.b := by
  rw [contains_octets (by decide), Cidr.contains_whole, Cidr.append_inj, UInt8.toBitVec_inj,
    UInt8.toBitVec_inj]

/-- `172.16.0.0/12`. -/
theorem contains_private : (Cidr.mk (Ipv4Addr.mk 172 16 0 0).bits 12 (by decide)).Contains v4.bits ↔
    v4.a = 172 ∧ 16 ≤ v4.b ∧ v4.b ≤ 31 := by
  have hb := v4.b.toNat_lt
  rw [contains_octets (by decide), Cidr.contains_iff_div, ← UInt8.toNat_inj,
    UInt8.le_iff_toNat_le, UInt8.le_iff_toNat_le]
  dsimp only
  rw [Cidr.toNat_append, Cidr.toNat_append]
  show (v4.a.toNat * 256 + v4.b.toNat) / 16 = (172 * 256 + 16) / 16 ↔
    v4.a.toNat = 172 ∧ 16 ≤ v4.b.toNat ∧ v4.b.toNat ≤ 31
  omega

theorem contains_addr : (Cidr.mk base.bits 32 (by decide)).Contains v4.bits ↔ v4 = base := by
  rw [← bits_inj]
  exact Cidr.contains_whole

/-- The blocks are those of the code, and `0.0.0.0`. -/
theorem isLocal_iff :
    v4.IsLocal ↔ v4 = ⟨0, 0, 0, 0⟩ ∨ isInternalV4 false v4 = true ∨ isMetadataV4 v4 = true := by
  simp only [IsLocal, localV4, List.mem_cons, List.not_mem_nil, or_false, exists_eq_or_imp,
    exists_eq_left]
  rw [contains_octet, contains_addr, contains_octet, contains_private, contains_two_octets,
    contains_two_octets, contains_addr, contains_addr]
  simp only [isInternalV4, isMetadataV4, isPrivate, isLoopback, isLinkLocal, Bool.or_eq_true,
    Bool.and_eq_true, beq_iff_eq, decide_eq_true_eq, Bool.false_and, Bool.false_eq_true, or_false]
  tauto

/-- The number of an address. -/
theorem bits_toNat : v4.bits.toNat =
    ((v4.a.toNat * 256 + v4.b.toNat) * 256 + v4.c.toNat) * 256 + v4.d.toNat := by
  unfold bits
  rw [Cidr.toNat_append, Cidr.toNat_append, Cidr.toNat_append]
  rfl

end Ipv4Addr

namespace Ipv6Addr

variable {v6 base : Ipv6Addr}

theorem bits_inj : v6.bits = base.bits ↔ v6 = base := by
  cases v6
  cases base
  unfold bits
  simp only [Cidr.append_inj, UInt16.toBitVec_inj, and_assoc, mk.injEq]

/-- A block within the first segment. -/
theorem contains_segment {len : Nat} (hlen : len ≤ 16) :
    (Cidr.mk base.bits len (by omega)).Contains v6.bits ↔
      (Cidr.mk base.s0.toBitVec len hlen).Contains v6.s0.toBitVec := by
  unfold bits
  rw [Cidr.contains_append (by omega), Cidr.contains_append (by omega),
    Cidr.contains_append (by omega), Cidr.contains_append (by omega),
    Cidr.contains_append (by omega), Cidr.contains_append (by omega), Cidr.contains_append hlen]

theorem contains_addr : (Cidr.mk base.bits 128 (by decide)).Contains v6.bits ↔ v6 = base := by
  rw [← bits_inj]
  exact Cidr.contains_whole

theorem contains_uniqueLocal :
    (Cidr.mk (Ipv6Addr.mk 0xFC00 0 0 0 0 0 0 0).bits 7 (by decide)).Contains v6.bits ↔
      v6.isUniqueLocal = true := by
  rw [contains_segment (by decide), Cidr.contains_iff_mask, isUniqueLocal, beq_iff_eq,
    ← UInt16.toBitVec_inj, UInt16.toBitVec_and]
  rfl

theorem contains_linkLocal :
    (Cidr.mk (Ipv6Addr.mk 0xFE80 0 0 0 0 0 0 0).bits 10 (by decide)).Contains v6.bits ↔
      v6.isUnicastLinkLocal = true := by
  rw [contains_segment (by decide), Cidr.contains_iff_mask, isUnicastLinkLocal, beq_iff_eq,
    ← UInt16.toBitVec_inj, UInt16.toBitVec_and]
  rfl

theorem contains_multicast :
    (Cidr.mk (Ipv6Addr.mk 0xFF00 0 0 0 0 0 0 0).bits 8 (by decide)).Contains v6.bits ↔
      v6.isMulticast = true := by
  rw [contains_segment (by decide), isMulticast, beq_iff_eq, ← UInt16.toBitVec_inj,
    UInt16.toBitVec_shiftRight]
  rfl

theorem bits_toNat : v6.bits.toNat =
    ((((((v6.s0.toNat * 65536 + v6.s1.toNat) * 65536 + v6.s2.toNat) * 65536 + v6.s3.toNat) * 65536 +
      v6.s4.toNat) * 65536 + v6.s5.toNat) * 65536 + v6.s6.toNat) * 65536 + v6.s7.toNat := by
  unfold bits
  simp only [Cidr.toNat_append]
  rfl

theorem maps_iff {v4 : Ipv4Addr} : v6.Maps v4 ↔
    (v6.s0 = 0 ∧ v6.s1 = 0 ∧ v6.s2 = 0 ∧ v6.s3 = 0 ∧ v6.s4 = 0 ∧ v6.s5 = 0xFFFF) ∧
      v6.s6.toNat = v4.a.toNat * 256 + v4.b.toNat ∧
      v6.s7.toNat = v4.c.toNat * 256 + v4.d.toNat := by
  have ha := v4.a.toNat_lt
  have hb := v4.b.toNat_lt
  have hc := v4.c.toNat_lt
  have hd := v4.d.toNat_lt
  have h1 := v6.s1.toNat_lt
  have h2 := v6.s2.toNat_lt
  have h3 := v6.s3.toNat_lt
  have h4 := v6.s4.toNat_lt
  have h5 := v6.s5.toNat_lt
  have h6 := v6.s6.toNat_lt
  have h7 := v6.s7.toNat_lt
  rw [Maps, bits_toNat, Ipv4Addr.bits_toNat]
  simp only [← UInt16.toNat_inj, show (0 : UInt16).toNat = 0 from rfl,
    show (0xFFFF : UInt16).toNat = 65535 from rfl]
  omega

/-- `to_ipv4_mapped` finds the address that is mapped. -/
theorem toIpv4Mapped_iff {v4 : Ipv4Addr} : v6.toIpv4Mapped = some v4 ↔ v6.Maps v4 := by
  have hocts : (⟨(v6.s6 >>> 8).toUInt8, v6.s6.toUInt8, (v6.s7 >>> 8).toUInt8, v6.s7.toUInt8⟩ :
      Ipv4Addr) = v4 ↔ v6.s6.toNat = v4.a.toNat * 256 + v4.b.toNat ∧
        v6.s7.toNat = v4.c.toNat * 256 + v4.d.toNat := by
    have ha := v4.a.toNat_lt
    have hb := v4.b.toNat_lt
    have hc := v4.c.toNat_lt
    have hd := v4.d.toNat_lt
    have h6 := v6.s6.toNat_lt
    have h7 := v6.s7.toNat_lt
    have hshift : ∀ s : UInt16, (s >>> 8).toNat = s.toNat / 256 := fun s => by
      rw [UInt16.toNat_shiftRight, Nat.shiftRight_eq_div_pow]
      rfl
    cases v4
    simp only [Ipv4Addr.mk.injEq, ← UInt8.toNat_inj, UInt16.toNat_toUInt8, hshift] at *
    omega
  rw [maps_iff, toIpv4Mapped]
  split
  · next hzeros => rw [Option.some_inj, hocts, and_iff_right hzeros]
  · next hzeros => exact iff_of_false nofun fun h => hzeros h.1

/-- The blocks are those of the code, and `::`. -/
theorem isLocal_iff : IsLocal (.v6 v6) ↔
    (v6 = ⟨0, 0, 0, 0, 0, 0, 0, 0⟩ ∨ v6.isLoopback = true ∨ v6.isUniqueLocal = true ∨
      v6.isUnicastLinkLocal = true) ∨ ∃ v4, v4.IsLocal ∧ v6.toIpv4Mapped = some v4 := by
  simp only [IsLocal, localV6, List.mem_cons, List.not_mem_nil, or_false, exists_eq_or_imp,
    exists_eq_left, toIpv4Mapped_iff]
  rw [contains_addr, contains_addr, contains_uniqueLocal, contains_linkLocal, isLoopback,
    beq_iff_eq]
  tauto

/-- A mapped address is in none of the blocks. -/
theorem not_blocked_of_maps {v4 : Ipv4Addr} (h : v6.Maps v4) :
    ¬ (v6 = ⟨0, 0, 0, 0, 0, 0, 0, 0⟩ ∨ v6.isLoopback = true ∨ v6.isUniqueLocal = true ∨
      v6.isUnicastLinkLocal = true) ∧ v6.isMulticast = false := by
  obtain ⟨⟨h0, -, -, -, -, h5⟩, -⟩ := maps_iff.mp h
  have hne : ∀ addr : Ipv6Addr, addr.s5 = 0 → v6 ≠ addr := by
    rintro _ hzero rfl
    rw [h5] at hzero
    revert hzero
    decide
  simp only [isLoopback, isUniqueLocal, isUnicastLinkLocal, isMulticast, h0, beq_iff_eq]
  refine ⟨?_, by decide⟩
  rintro (h | h | h | h)
  · exact hne _ rfl h
  · exact hne _ rfl h
  · revert h
    decide
  · revert h
    decide

end Ipv6Addr

/-- Of the IPv4 addresses, `0.0.0.0` is missing. -/
theorem isBlocked_v4_iff (v4 : Ipv4Addr) :
    isBlocked (.v4 v4) = true ↔ v4.IsLocal ∧ v4 ≠ ⟨0, 0, 0, 0⟩ := by
  have hzero : isBlocked (.v4 ⟨0, 0, 0, 0⟩) = false := by decide
  rw [Ipv4Addr.isLocal_iff]
  constructor
  · intro h
    refine ⟨.inr (Bool.or_eq_true_iff.mp h), ?_⟩
    rintro rfl
    rw [hzero] at h
    cases h
  · rintro ⟨h | h, hne⟩
    · exact absurd h hne
    · exact Bool.or_eq_true_iff.mpr h

/-- An address is tested as the one that it maps. -/
theorem isBlocked_of_maps {v6 : Ipv6Addr} {v4 : Ipv4Addr} (h : v6.Maps v4) :
    isBlocked (.v6 v6) = isBlocked (.v4 v4) := by
  have hmapped := Ipv6Addr.toIpv4Mapped_iff.mpr h
  simp only [isBlocked, isInternalIpStrict, isInternalIpImpl, isMetadataIp, hmapped]

/-- The tests of the code are on the local addresses, less the unspecified and with the multicast
ones. -/
theorem isBlocked_iff (ip : IpAddr) :
    isBlocked ip = true ↔ IsLocal ip ∧ ¬ IsUnspecified ip ∨ IsMulticastV6 ip := by
  cases ip with
  | v4 v4 => exact (isBlocked_v4_iff v4).trans (iff_of_eq (or_false _)).symm
  | v6 v6 =>
    rw [Ipv6Addr.isLocal_iff, IsUnspecified, IsMulticastV6, Ipv6Addr.contains_multicast]
    cases hmapped : v6.toIpv4Mapped with
    | some v4 =>
      have hmaps := Ipv6Addr.toIpv4Mapped_iff.mp hmapped
      obtain ⟨hblocks, hmulti⟩ := Ipv6Addr.not_blocked_of_maps hmaps
      have hzero : v6.Maps ⟨0, 0, 0, 0⟩ ↔ v4 = ⟨0, 0, 0, 0⟩ := by
        rw [← Ipv6Addr.toIpv4Mapped_iff, hmapped, Option.some_inj]
      rw [isBlocked_of_maps hmaps, isBlocked_v4_iff, hzero, hmulti]
      simp only [Option.some_inj, exists_eq_right']
      tauto
    | none =>
      have hzero : ¬ v6.Maps ⟨0, 0, 0, 0⟩ := by
        rw [← Ipv6Addr.toIpv4Mapped_iff, hmapped]
        exact nofun
      have hsplit : isBlocked (.v6 v6) = true ↔ v6.isLoopback = true ∨ v6.isUniqueLocal = true ∨
          v6.isUnicastLinkLocal = true ∨ v6.isMulticast = true := by
        simp only [isBlocked, isInternalIpStrict, isInternalIpImpl, isMetadataIp, hmapped,
          Bool.or_false, Bool.or_eq_true, or_assoc]
      by_cases hunspecified : v6 = ⟨0, 0, 0, 0, 0, 0, 0, 0⟩
      · subst hunspecified
        exact iff_of_false (by decide) fun h => h.elim (fun hlocal => hlocal.2 (.inl rfl))
          (by decide)
      · rw [hsplit]
        simp only [hunspecified, hzero, reduceCtorEq, false_or, and_false, exists_false, or_false,
          not_false_eq_true, and_true, or_assoc]

theorem IsUnspecified.isLocal {ip : IpAddr} (h : IsUnspecified ip) : IsLocal ip := by
  have hzero : (Ipv4Addr.mk 0 0 0 0).IsLocal := Ipv4Addr.isLocal_iff.mpr (.inl rfl)
  cases ip with
  | v4 v4 =>
    obtain rfl : v4 = _ := h
    exact hzero
  | v6 v6 =>
    rcases h with h | h
    · exact Ipv6Addr.isLocal_iff.mpr (.inl (.inl h))
    · exact .inr ⟨_, hzero, h⟩

/-! ## The check of a provider's host -/

/-- The host has the name of a metadata server. -/
def ParsedUrl.namesMetadata (url : ParsedUrl) : Bool := url.host.any Host.isMetadataEndpoint

namespace Network

variable (net : Network) (url : ParsedUrl)

/-- The addresses that the host of a URL denotes at the time of the check. -/
def denoted : List IpAddr :=
  match url.host with
  | none => []
  | some host => ((net.lookup host 0).toOption).getD []

/-- The host of the URL, if there is one, is not the name of a metadata server, and it denotes
addresses, of which none is blocked. -/
def Reaches : Prop :=
  url.host.isSome → url.namesMetadata = false ∧ net.denoted url ≠ [] ∧
    ∀ ip ∈ net.denoted url, isBlocked ip = false

/-- The lookup of a host that is no IPv4 address. -/
theorem validateResolvedIps_iff {scheme : String} {host : Host} (hparse : host.parseIp = none) :
    net.validateResolvedIps host = true ↔ net.denoted ⟨scheme, some host⟩ ≠ [] ∧
      ∀ ip ∈ net.denoted ⟨scheme, some host⟩, isBlocked ip = false := by
  simp only [validateResolvedIps, hparse, denoted, Option.isSome_none, Bool.false_or]
  cases net.lookup host 0 with
  | error e => exact iff_of_false Bool.false_ne_true fun h => h.1 rfl
  | ok addrs =>
    show (!addrs.isEmpty && addrs.all fun ip => !isInternalIpStrict ip && !isMetadataIp ip) = true ↔
      addrs ≠ [] ∧ ∀ ip ∈ addrs, isBlocked ip = false
    simp only [Bool.and_eq_true, Bool.not_eq_true', List.isEmpty_eq_false_iff, List.all_eq_true,
      isBlocked, Bool.or_eq_false_iff]

/-- What the check accepts. -/
theorem validateProviderUrlHost_iff : net.validateProviderUrlHost url = true ↔ net.Reaches url := by
  obtain ⟨scheme, _ | host⟩ := url
  · refine iff_of_true rfl fun h => ?_
    cases h
  simp only [validateProviderUrlHost, Reaches, ParsedUrl.namesMetadata, Option.any_some,
    Option.isSome_some, forall_const]
  cases hmeta : host.isMetadataEndpoint with
  | true => exact iff_of_false Bool.false_ne_true fun h => Bool.false_ne_true h.1.symm
  | false =>
    rw [if_neg Bool.false_ne_true, and_iff_right rfl]
    cases host with
    | domain name => exact net.validateResolvedIps_iff rfl
    | v6 addr => exact net.validateResolvedIps_iff rfl
    | v4 addr =>
      have hdenoted : net.denoted ⟨scheme, some (.v4 addr)⟩ = [.v4 addr] := rfl
      rw [hdenoted, and_iff_right (List.cons_ne_nil _ _), List.forall_mem_singleton]
      show (!isInternalIpStrict (.v4 addr)) = true ↔ _
      rw [Bool.not_eq_true']
      exact ⟨isBlocked_eq_false hmeta, fun h => (Bool.or_eq_false_iff.mp h).1⟩

/-- With an address to look at, the check refuses the names of the metadata servers and the blocked
addresses. -/
theorem validateProviderUrlHost_eq_false (hdenoted : net.denoted url ≠ []) :
    net.validateProviderUrlHost url = false ↔
      url.namesMetadata = true ∨ ∃ ip ∈ net.denoted url, isBlocked ip = true := by
  have hhost : url.host.isSome := by
    cases hhost : url.host with
    | none => exact absurd (by rw [denoted, hhost]) hdenoted
    | some host => rfl
  rw [← Bool.not_eq_true, validateProviderUrlHost_iff, Reaches, forall_prop_of_true hhost,
    and_iff_right hdenoted, not_and_or, Bool.not_eq_false]
  simp only [not_forall, Bool.not_eq_false, exists_prop]

/-- A URL that leads to a local address is refused. -/
def RefusesLocal : Prop :=
  (∃ ip ∈ net.denoted url, IsLocal ip) → net.validateProviderUrlHost url = false

/-- Every URL that leads to a local address is refused, exactly if those that lead to an unspecified
one are: for the name of a metadata server, another local address, or a multicast one. -/
theorem local_refused_iff : net.RefusesLocal url ↔
    ((∃ ip ∈ net.denoted url, IsUnspecified ip) → url.namesMetadata = true ∨
      ∃ ip ∈ net.denoted url, IsLocal ip ∧ ¬ IsUnspecified ip ∨ IsMulticastV6 ip) := by
  have hrefused := net.validateProviderUrlHost_eq_false url
  simp only [isBlocked_iff] at hrefused
  constructor
  · rintro h ⟨ip, hmem, hip⟩
    exact (hrefused (List.ne_nil_of_mem hmem)).mp (h ⟨ip, hmem, hip.isLocal⟩)
  · rintro h ⟨ip, hmem, hip⟩
    refine (hrefused (List.ne_nil_of_mem hmem)).mpr ?_
    by_cases hunspecified : IsUnspecified ip
    · exact h ⟨ip, hmem, hunspecified⟩
    · exact .inr ⟨ip, hmem, .inl ⟨hip, hunspecified⟩⟩

end Network

/-- `http://0.0.0.0`. -/
def unspecifiedUrl : ParsedUrl := ⟨"http", some (.v4 ⟨0, 0, 0, 0⟩)⟩

theorem unspecifiedUrl_accepted : IsLocal (.v4 ⟨0, 0, 0, 0⟩) ∧
    rebound.validateProviderUrlHost unspecifiedUrl = true ∧
    ¬ rebound.RefusesLocal unspecifiedUrl := by
  have hlocal : IsLocal (.v4 ⟨0, 0, 0, 0⟩) := IsUnspecified.isLocal rfl
  refine ⟨hlocal, rfl, fun h => ?_⟩
  have hrefused := h ⟨_, List.mem_singleton_self _, hlocal⟩
  revert hrefused
  decide

end ApertureRouter
