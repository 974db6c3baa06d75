import Mathlib.Data.List.Basic

/-!
# Addresses that are not for providers

The checks of `src/security/mod.rs` and `is_metadata_ip` (`src/proxy/client.rs`) on the addresses
and names that a URL leads to. The ranges of `std::net` are on the octets of an IPv4 address and on
the segments of an IPv6 address. An IPv6 address that maps an IPv4 one is checked as that one.
-/

namespace ApertureRouter

structure Ipv4Addr where
  a : UInt8
  b : UInt8
  c : UInt8
  d : UInt8
  deriving DecidableEq, Repr

/-- An IPv6 address by its segments. -/
structure Ipv6Addr where
  s0 : UInt16
  s1 : UInt16
  s2 : UInt16
  s3 : UInt16
  s4 : UInt16
  s5 : UInt16
  s6 : UInt16
  s7 : UInt16
  deriving DecidableEq, Repr

inductive IpAddr where
  | v4 (addr : Ipv4Addr)
  | v6 (addr : Ipv6Addr)
  deriving DecidableEq, Repr

namespace Ipv4Addr

variable (v4 : Ipv4Addr)

/-- `10.0.0.0/8`, `172.16.0.0/12` and `192.168.0.0/16`. -/
def isPrivate : Bool :=
  v4.a == 10 || (v4.a == 172 && 16 ≤ v4.b && v4.b ≤ 31) || (v4.a == 192 && v4.b == 168)

/-- `127.0.0.0/8`. -/
def isLoopback : Bool := v4.a == 127

/-- `169.254.0.0/16`. -/
def isLinkLocal : Bool := v4.a == 169 && v4.b == 254

/-- The decimal text. -/
def text : String :=
  toString v4.a.toNat ++ "." ++ toString v4.b.toNat ++ "." ++ toString v4.c.toNat ++ "." ++
    toString v4.d.toNat

end Ipv4Addr

namespace Ipv6Addr

variable (v6 : Ipv6Addr)

/-- `to_ipv4_mapped`: the IPv4 address in `::ffff:0:0/96`. -/
def toIpv4Mapped : Option Ipv4Addr :=
  if v6.s0 = 0 ∧ v6.s1 = 0 ∧ v6.s2 = 0 ∧ v6.s3 = 0 ∧ v6.s4 = 0 ∧ v6.s5 = 0xFFFF then
    some ⟨(v6.s6 >>> 8).toUInt8, v6.s6.toUInt8, (v6.s7 >>> 8).toUInt8, v6.s7.toUInt8⟩
  else none

/-- `::1`. -/
def isLoopback : Bool := v6 == ⟨0, 0, 0, 0, 0, 0, 0, 1⟩

/-- `fc00::/7`. -/
def isUniqueLocal : Bool := v6.s0 &&& 0xFE00 == 0xFC00

/-- `fe80::/10`. -/
def isUnicastLinkLocal : Bool := v6.s0 &&& 0xFFC0 == 0xFE80

/-- `ff00::/8`. -/
def isMulticast : Bool := v6.s0 >>> 8 == 0xFF

end Ipv6Addr

/-- `is_internal_ip_impl` of an IPv4 address. -/
def isInternalV4 (blockCgn : Bool) (v4 : Ipv4Addr) : Bool :=
  v4.isPrivate || v4.isLoopback || v4.isLinkLocal ||
    (blockCgn && v4.a == 100 && 64 ≤ v4.b && v4.b ≤ 127)

/-- `is_internal_ip_impl`. -/
def isInternalIpImpl (blockCgn : Bool) : IpAddr → Bool
  | .v4 v4 => isInternalV4 blockCgn v4
  | .v6 v6 =>
    match v6.toIpv4Mapped with
    | some v4 => isInternalV4 blockCgn v4
    | none => v6.isLoopback || v6.isUniqueLocal || v6.isUnicastLinkLocal || v6.isMulticast

/-- `is_internal_ip_strict`: the range `100.64.0.0/10` is allowed. -/
def isInternalIpStrict (ip : IpAddr) : Bool := isInternalIpImpl false ip

def isMetadataV4 (v4 : Ipv4Addr) : Bool :=
  v4 == ⟨169, 254, 169, 254⟩ || v4 == ⟨100, 100, 100, 200⟩

/-- `is_metadata_ip`. -/
def isMetadataIp : IpAddr → Bool
  | .v4 v4 => isMetadataV4 v4
  | .v6 v6 =>
    match v6.toIpv4Mapped with
    | some v4 => isMetadataV4 v4
    | none => false

/-- `is_metadata_endpoint`. -/
def isMetadataEndpoint (host : String) : Bool :=
  host == "169.254.169.254" || host == "[::ffff:169.254.169.254]" || host == "100.100.100.200" ||
    host == "metadata.google.internal" || host == "metadata.azure.com"

/-- The address is not for providers. -/
def isBlocked (ip : IpAddr) : Bool := isInternalIpStrict ip || isMetadataIp ip

end ApertureRouter
