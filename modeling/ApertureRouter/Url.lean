import Mathlib.Data.List.Infix
import Mathlib.Data.List.MinMax
import ApertureRouter.IpText
import ApertureRouter.Lib.Text

/-!
# URLs and their hosts

A URL as `Url::parse` reads it, and the checks of `src/security/mod.rs` on the text of its host.
`host_str` writes an IPv4 address in decimal, and an IPv6 one in brackets and in hexadecimal, without
its longest run of zeros. So the checks read an IPv4 address off the text (`parseIp_eq`), and no IPv6
address: the text does not parse and is none of the texts they compare with
(`isMetadataEndpoint_eq`).
-/

namespace ApertureRouter

/-- The host of a URL. -/
inductive Host where
  | domain (name : String)
  | v4 (addr : Ipv4Addr)
  | v6 (addr : Ipv6Addr)

/-- A URL as `Url::parse` reads it. -/
structure ParsedUrl where
  scheme : String
  host : Option Host

/-- `Url::parse`, or its error. -/
abbrev UrlParser := String → Except String ParsedUrl

/-- `is_metadata_endpoint` of `host_str`, which writes an IPv6 address in hexadecimal. -/
def Host.isMetadataEndpoint : Host → Bool
  | domain name => ApertureRouter.isMetadataEndpoint name
  | v4 addr => ApertureRouter.isMetadataEndpoint addr.text
  | v6 _ => false

/-- `host.parse::<IpAddr>()`: in brackets an IPv6 address does not parse. -/
def Host.parseIp : Host → Option IpAddr
  | v4 addr => some (.v4 addr)
  | domain _ | v6 _ => none

/-- The address of an address literal. -/
def Host.literal : Host → Option IpAddr
  | v4 addr => some (.v4 addr)
  | v6 addr => some (.v6 addr)
  | domain _ => none

/-! ## The text of a host -/

namespace Ipv6Addr

def segments (v6 : Ipv6Addr) : List UInt16 :=
  [v6.s0, v6.s1, v6.s2, v6.s3, v6.s4, v6.s5, v6.s6, v6.s7]

/-- The place and the length of the first of the longest runs of zeros, if it is longer than one. -/
def longestZeroSequence (segments : List UInt16) : Option (Nat × Nat) :=
  (((List.range segments.length).map fun i =>
    (i, ((segments.drop i).takeWhile (· == 0)).length)).argmax (·.2)).filter fun run =>
      decide (2 ≤ run.2)

/-- Groups in hexadecimal, with colons between them. -/
def groupsText : List UInt16 → List Char
  | [] => []
  | [group] => Nat.toDigits 16 group.toNat
  | group :: groups => Nat.toDigits 16 group.toNat ++ ':' :: groupsText groups

/-- The text without brackets. -/
def text (v6 : Ipv6Addr) : List Char :=
  match longestZeroSequence v6.segments with
  | some (start, len) =>
    groupsText (v6.segments.take start) ++ [':', ':'] ++ groupsText (v6.segments.drop (start + len))
  | none => groupsText v6.segments

example : text ⟨0, 0, 0, 0, 0, 0xFFFF, 0xA9FE, 0xA9FE⟩ = "::ffff:a9fe:a9fe".toList := by
  decide +kernel

theorem dot_notMem_toDigits (n : Nat) : '.' ∉ Nat.toDigits 16 n := by
  induction n using Nat.strongRecOn with
  | ind n ih =>
    have hdigit : ∀ d < 16, '.' ≠ Nat.digitChar d := by decide
    rw [Nat.toDigits_eq_if (by decide)]
    split
    · rename_i hlt
      exact fun h => hdigit n hlt (List.mem_singleton.mp h)
    · rw [List.mem_append, not_or]
      exact ⟨ih (n / 16) (by omega), fun h =>
        hdigit _ (Nat.mod_lt n (by decide)) (List.mem_singleton.mp h)⟩

theorem dot_notMem_groupsText (groups : List UInt16) : '.' ∉ groupsText groups := by
  fun_induction groupsText groups with
  | case1 => exact List.not_mem_nil
  | case2 group => exact dot_notMem_toDigits _
  | case3 group groups hne ih =>
    rw [List.mem_append, not_or]
    refine ⟨dot_notMem_toDigits _, fun hmem => ?_⟩
    rcases List.mem_cons.mp hmem with h | h
    · cases h
    · exact ih h

theorem dot_notMem_text (v6 : Ipv6Addr) : '.' ∉ v6.text := by
  unfold text
  split
  · rw [List.mem_append, List.mem_append, not_or, not_or]
    exact ⟨⟨dot_notMem_groupsText _, by decide⟩, dot_notMem_groupsText _⟩
  · exact dot_notMem_groupsText _

end Ipv6Addr

namespace Host

/-- `host_str`. -/
def str : Host → String
  | domain name => name
  | v4 addr => addr.text
  | v6 addr => String.ofList ('[' :: addr.text ++ [']'])

theorem str_v6_toList (addr : Ipv6Addr) : (v6 addr).str.toList = '[' :: addr.text ++ [']'] :=
  String.toList_ofList

theorem dot_notMem_str (addr : Ipv6Addr) : '.' ∉ (v6 addr).str.toList := by
  rw [str_v6_toList, List.mem_append, List.mem_cons, not_or, not_or]
  exact ⟨⟨by decide, addr.dot_notMem_text⟩, by decide⟩

end Host

/-! ## Checks of a text -/

/-- Every text that is a metadata endpoint has a dot. -/
theorem dot_mem_of_isMetadataEndpoint {host : String} (h : isMetadataEndpoint host = true) :
    '.' ∈ host.toList := by
  simp only [isMetadataEndpoint, Bool.or_eq_true, beq_iff_eq] at h
  rcases h with (((rfl | rfl) | rfl) | rfl) | rfl <;> decide

theorem Host.isMetadataEndpoint_eq (host : Host) :
    ApertureRouter.isMetadataEndpoint host.str = host.isMetadataEndpoint := by
  cases host with
  | domain name => rfl
  | v4 addr => rfl
  | v6 addr =>
    exact Bool.eq_false_iff.mpr fun h => dot_notMem_str addr (dot_mem_of_isMetadataEndpoint h)

/-- No other text of an IPv4 address is a metadata endpoint. -/
theorem isMetadataEndpoint_text (addr : Ipv4Addr) :
    isMetadataEndpoint addr.text = isMetadataV4 addr := by
  have hparse : ∀ text, addr.text = text → parseIpAddr text.toList = some (.v4 addr) := by
    rintro _ rfl
    exact parseIpAddr_text addr
  rw [Bool.eq_iff_iff]
  simp only [isMetadataEndpoint, isMetadataV4, Bool.or_eq_true, beq_iff_eq]
  constructor
  · rintro ((((h | h) | h) | h) | h)
    · refine .inl ?_
      have haddr := (hparse _ h).symm.trans
        (show _ = some (.v4 ⟨169, 254, 169, 254⟩) by decide +kernel)
      simpa only [Option.some_inj, IpAddr.v4.injEq] using haddr
    · exact nomatch (hparse _ h).symm.trans (show _ = none by decide +kernel)
    · refine .inr ?_
      have haddr := (hparse _ h).symm.trans
        (show _ = some (.v4 ⟨100, 100, 100, 200⟩) by decide +kernel)
      simpa only [Option.some_inj, IpAddr.v4.injEq] using haddr
    · exact nomatch (hparse _ h).symm.trans (show _ = none by decide +kernel)
    · exact nomatch (hparse _ h).symm.trans (show _ = none by decide +kernel)
  · rintro (rfl | rfl) <;> decide

/-- The text of an address literal parses if it is an IPv4 one. -/
theorem Host.parseIp_eq {host : Host} (h : host.literal.isSome) :
    parseIpAddr host.str.toList = host.parseIp := by
  cases host with
  | domain name => cases h
  | v4 addr => exact parseIpAddr_text addr
  | v6 addr =>
    rw [str_v6_toList]
    exact parseIpAddr_bracket _

/-- `is_blocked_host`. -/
def isBlockedHost (host : String) : Bool :=
  let normalized := Text.stripSuffix '.' host.toList
  isMetadataEndpoint (String.ofList normalized) ||
    (".internal".toList.isSuffixOf normalized && decide ("metadata".toList <:+: normalized)) ||
    ("metadata.".toList.isPrefixOf normalized && decide (".svc.".toList <:+: normalized))

/-- `is_internal_ip`: the range `100.64.0.0/10` is blocked. -/
def isInternalIp (host : String) : Bool :=
  ((parseIpAddr host.toList).map (isInternalIpImpl true)).getD false

/-- `is_internal_ip_strict_host`. -/
def isInternalIpStrictHost (host : String) : Bool :=
  ((parseIpAddr host.toList).map (isInternalIpImpl false)).getD false

/-- A text without dots is let through. -/
theorem isBlockedHost_of_dot_notMem {host : String} (h : '.' ∉ host.toList) :
    isBlockedHost host = false := by
  have hstrip : Text.stripSuffix '.' host.toList = host.toList := Text.stripSuffix_of_notMem h
  unfold isBlockedHost
  dsimp only
  rw [hstrip, String.ofList_toList, Bool.or_eq_false_iff, Bool.or_eq_false_iff]
  refine ⟨⟨?_, ?_⟩, ?_⟩
  · exact Bool.eq_false_iff.mpr fun hmeta => h (dot_mem_of_isMetadataEndpoint hmeta)
  · refine Bool.and_eq_false_iff.mpr (.inl (Bool.eq_false_iff.mpr fun hsuffix => h ?_))
    exact (List.isSuffixOf_iff_suffix.mp hsuffix).subset (by decide)
  · refine Bool.and_eq_false_iff.mpr (.inl (Bool.eq_false_iff.mpr fun hprefix => h ?_))
    exact (List.isPrefixOf_iff_prefix.mp hprefix).subset (by decide)

end ApertureRouter
