import ApertureRouter.Config
import ApertureRouter.Proxy.LocalAddresses

/-!
# One policy, three checks

A host is checked when a configuration is loaded (`Config::validate`), when a user enters a URL
(`validate_url`, `src/cli/security.rs`), and for each request to a provider
(`validate_provider_url_host`). The first two look at the text of the host. It has brackets around an
IPv6 address, so that address is not read (`parseIpAddr_bracket`). The last one has it looked up.

* `blockedBaseUrl_eq`, `validateUrl_v4`: an IPv4 address is refused everywhere, in any notation.
* `blockedBaseUrl_v6`, `validateUrl_v6`: every IPv6 address is accepted by the first two.
* `policies_agree_iff`: so the three agree on an address exactly if it is no blocked IPv6 address.
-/

namespace ApertureRouter

/-- `validate_url`: the error is the text for the user. -/
def validateUrl (parse : UrlParser) (text : String) : Except String ParsedUrl :=
  match parse (String.ofList (Text.trim text.toList)) with
  | .error e => .error ("Invalid URL: " ++ e)
  | .ok url =>
    if url.scheme ≠ "http" ∧ url.scheme ≠ "https" then
      .error ("Invalid scheme '" ++ url.scheme ++ "': only http and https are allowed")
    else
      match url.host with
      | none => .ok url
      | some host => if isBlockedHost host.str then .error ("Blocked host: " ++ host.str) else .ok url

/-- The host of an address literal. -/
def Host.ofAddr : IpAddr → Host
  | .v4 addr => v4 addr
  | .v6 addr => v6 addr

section

variable {parse : UrlParser} {scheme base text : String}

/-! ## At load time -/

theorem blockedBaseUrl_v4 {addr : Ipv4Addr} (hbase : parse base = .ok ⟨scheme, some (.v4 addr)⟩) :
    Config.blockedBaseUrl parse base = isBlocked (.v4 addr) := by
  rw [Config.blockedBaseUrl, hbase]
  show (isInternalIpStrictHost addr.text || isMetadataEndpoint addr.text) = _
  rw [isInternalIpStrictHost, parseIpAddr_text, isMetadataEndpoint_text]
  rfl

theorem blockedBaseUrl_v6 {addr : Ipv6Addr} (hbase : parse base = .ok ⟨scheme, some (.v6 addr)⟩) :
    Config.blockedBaseUrl parse base = false := by
  rw [Config.blockedBaseUrl, hbase]
  show (isInternalIpStrictHost (Host.v6 addr).str || isMetadataEndpoint (Host.v6 addr).str) = false
  rw [isInternalIpStrictHost, Host.parseIp_eq rfl, Host.isMetadataEndpoint_eq]
  rfl

/-! ## For each request -/

/-- An address is its own lookup. -/
theorem validateProviderUrlHost_ofAddr (net : Network) (ip : IpAddr) :
    net.validateProviderUrlHost ⟨scheme, some (.ofAddr ip)⟩ = !isBlocked ip := by
  have hdenoted : net.denoted ⟨scheme, some (.ofAddr ip)⟩ = [ip] := by cases ip <;> rfl
  have hnamed : (Host.ofAddr ip).isMetadataEndpoint = true → isBlocked ip = true := by
    cases ip with
    | v4 addr =>
      intro h
      rw [isBlocked, Bool.or_eq_true_iff]
      exact .inr ((isMetadataEndpoint_text addr).symm.trans h)
    | v6 addr =>
      intro h
      cases h
  have hrefused := net.validateProviderUrlHost_eq_false ⟨scheme, some (.ofAddr ip)⟩
    (by rw [hdenoted]; exact List.cons_ne_nil _ _)
  rw [hdenoted] at hrefused
  rw [← Bool.not_inj_iff, Bool.not_not, Bool.eq_iff_iff, Bool.not_eq_true', hrefused]
  simp only [List.mem_singleton, exists_eq_left]
  exact ⟨fun h => h.elim hnamed id, .inr⟩

/-! ## In the dialog -/

/-- An IPv4 address of a metadata server is refused. -/
theorem validateUrl_v4 {addr : Ipv4Addr} (hmeta : isMetadataIp (.v4 addr) = true)
    (htext : parse (String.ofList (Text.trim text.toList)) = .ok ⟨scheme, some (.v4 addr)⟩) :
    ∃ e, validateUrl parse text = .error e := by
  have hblocked : isBlockedHost (Host.v4 addr).str = true := by
    rcases Bool.or_eq_true_iff.mp hmeta with h | h
    all_goals
      obtain rfl := eq_of_beq h
      decide +kernel
  rw [validateUrl, htext]
  dsimp only
  rw [if_pos hblocked]
  split <;> exact ⟨_, rfl⟩

/-- An IPv6 address is accepted. -/
theorem validateUrl_v6 {addr : Ipv6Addr} (hscheme : scheme = "http" ∨ scheme = "https")
    (htext : parse (String.ofList (Text.trim text.toList)) = .ok ⟨scheme, some (.v6 addr)⟩) :
    validateUrl parse text = .ok ⟨scheme, some (.v6 addr)⟩ := by
  rw [validateUrl, htext]
  dsimp only
  rw [if_neg (by rintro ⟨hhttp, hhttps⟩; exact hscheme.elim hhttp hhttps), if_neg]
  rw [isBlockedHost_of_dot_notMem (Host.dot_notMem_str addr)]
  exact Bool.false_ne_true

/-! ## The three checks -/

/-- On an address, the checks agree exactly if it is no blocked IPv6 address: then the configuration
is accepted if the requests are, and no URL with the address of a metadata server can be entered. -/
theorem policies_agree_iff (net : Network) {ip : IpAddr}
    (hbase : parse base = .ok ⟨scheme, some (.ofAddr ip)⟩)
    (htext : parse (String.ofList (Text.trim text.toList)) = .ok ⟨scheme, some (.ofAddr ip)⟩) :
    ((Config.blockedBaseUrl parse base = false ↔
          net.validateProviderUrlHost ⟨scheme, some (.ofAddr ip)⟩ = true) ∧
        (isMetadataIp ip = true → ∃ e, validateUrl parse text = .error e)) ↔
      ∀ addr, ip = .v6 addr → isBlocked ip = false := by
  rw [validateProviderUrlHost_ofAddr, Bool.not_eq_true']
  cases ip with
  | v4 addr =>
    refine iff_of_true ⟨?_, fun hmeta => validateUrl_v4 hmeta htext⟩ fun _ h => nomatch h
    rw [blockedBaseUrl_v4 hbase]
  | v6 addr =>
    rw [blockedBaseUrl_v6 hbase]
    constructor
    · exact fun h _ _ => h.1.mp rfl
    · intro h
      have haccepted := h addr rfl
      refine ⟨iff_of_true rfl haccepted, fun hmeta => ?_⟩
      rw [isBlocked, hmeta, Bool.or_true] at haccepted
      cases haccepted

end

/-- `::1`. -/
def loopbackV6 : Ipv6Addr := ⟨0, 0, 0, 0, 0, 0, 0, 1⟩

/-- `::ffff:169.254.169.254`. -/
def metadataV6 : Ipv6Addr := ⟨0, 0, 0, 0, 0, 0xFFFF, 0xA9FE, 0xA9FE⟩

/-- `Url::parse` on two URLs. -/
def sampleUrls (text : String) : Except String ParsedUrl :=
  if text = "http://[::1]:11434" then .ok ⟨"http", some (.v6 loopbackV6)⟩
  else if text = "http://[::ffff:169.254.169.254]/" then .ok ⟨"http", some (.v6 metadataV6)⟩
  else .error "relative URL without a base"

theorem policies_agree_iff_loopbackV6 :
    ¬ ((Config.blockedBaseUrl sampleUrls "http://[::1]:11434" = false ↔
          rebound.validateProviderUrlHost ⟨"http", some (.ofAddr (.v6 loopbackV6))⟩ = true) ∧
        (isMetadataIp (.v6 loopbackV6) = true →
          ∃ e, validateUrl sampleUrls "http://[::1]:11434" = .error e)) := by
  have htrim : String.ofList (Text.trim "http://[::1]:11434".toList) = "http://[::1]:11434" := by
    decide +kernel
  rw [policies_agree_iff rebound rfl (by rw [htrim]; rfl)]
  intro h
  have hblocked := h _ rfl
  revert hblocked
  decide

/-- A loopback address is accepted at load time only, and the address of a metadata server can be
entered. -/
theorem literals_disagree :
    (Config.blockedBaseUrl sampleUrls "http://[::1]:11434" = false ∧
      sampleUrls "http://[::1]:11434" = .ok ⟨"http", some (.v6 loopbackV6)⟩ ∧
      rebound.validateProviderUrlHost ⟨"http", some (.v6 loopbackV6)⟩ = false) ∧
    isMetadataIp (.v6 metadataV6) = true ∧
      validateUrl sampleUrls "http://[::ffff:169.254.169.254]/" =
        .ok ⟨"http", some (.v6 metadataV6)⟩ := by
  have htrim : String.ofList (Text.trim "http://[::ffff:169.254.169.254]/".toList) =
      "http://[::ffff:169.254.169.254]/" := by
    decide +kernel
  refine ⟨⟨blockedBaseUrl_v6 rfl, rfl, by decide⟩, by decide, validateUrl_v6 (.inl rfl) ?_⟩
  rw [htrim]
  rfl

end ApertureRouter
