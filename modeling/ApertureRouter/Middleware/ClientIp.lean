import ApertureRouter.IpText
import ApertureRouter.Lib.Text

/-!
# The address of a client

`extract_client_ip` (`src/middleware/auth.rs`) takes the address of the connection, and for a
connection of a trusted proxy the first address in the header `X-Forwarded-For`. The documented proxy
sets this header to what the client has sent, and appends the address of its own peer
(`proxyAddXForwardedFor`). So the address that counts is the client's own choice.

* `extractClientIp_viaProxy`: only what the client has sent decides.
* `client_ip_fixed_iff`: two values lead to one address exactly if they begin with the same.
* `extractClientIp_chosen`: every IPv4 address can be had.
-/

namespace ApertureRouter

/-! ## Requests -/

/-- The bytes of a header. -/
abbrev HeaderValue := List UInt8

/-- `HeaderMap`: the headers under their names in lower case. -/
abbrev HeaderMap := List (String × HeaderValue)

/-- The part of a request that the middleware reads. `peer` is its `ConnectInfo`. -/
structure Request where
  peer : Option IpAddr
  headers : HeaderMap

/-- `HeaderMap::get`: the first header of the name. -/
def HeaderMap.get (headers : HeaderMap) (name : String) : Option HeaderValue :=
  (headers.find? (·.1 == name)).map (·.2)

/-- `HeaderMap::insert`: the only header of the name. -/
def HeaderMap.insert (headers : HeaderMap) (name : String) (value : HeaderValue) : HeaderMap :=
  (name, value) :: headers.filter (·.1 != name)

theorem HeaderMap.get_insert (headers : HeaderMap) (name : String) (value : HeaderValue) :
    (headers.insert name value).get name = some value := by
  simp [insert, get]

/-- A printable character of ASCII, or a tab. -/
def isVisibleAscii (b : UInt8) : Bool := (32 ≤ b && b < 127) || b == 9

/-- `HeaderValue::to_str`. -/
def HeaderValue.toStr (value : HeaderValue) : Option (List Char) :=
  if value.all isVisibleAscii then some (value.map fun b => Char.ofNat b.toNat) else none

/-- The text of ASCII characters as a header. -/
def HeaderValue.ofStr (s : String) : HeaderValue := s.toList.map fun c => UInt8.ofNat c.toNat

/-- A header that can be read. -/
abbrev ReadableValue := {value : HeaderValue // value.all isVisibleAscii = true}

/-- `StatusCode::INTERNAL_SERVER_ERROR`. -/
def internalServerError : Nat := 500

/-- What comes before the first `,`, read as an address. -/
def firstIp (forwarded : List Char) : Option IpAddr :=
  parseIpAddr (Text.trim (forwarded.takeWhile (· ≠ ',')))

/-- `extract_client_ip`. -/
def extractClientIp (request : Request) (trustedProxies : List IpAddr) : Except Nat IpAddr :=
  match request.peer with
  | none => .error internalServerError
  | some peerIp =>
    if peerIp ∈ trustedProxies then
      match ((request.headers.get "x-forwarded-for").bind HeaderValue.toStr).bind firstIp with
      | some ip => .ok ip
      | none => .ok peerIp
    else .ok peerIp

/-! ## Behind a proxy -/

/-- `$proxy_add_x_forwarded_for`: the header of the client, and the address that it connects from. -/
def proxyAddXForwardedFor (sent : Option HeaderValue) (remoteAddr : ReadableValue) : HeaderValue :=
  match sent with
  | none => remoteAddr
  | some value => value ++ HeaderValue.ofStr ", " ++ remoteAddr

/-- What the router gets of a request from a proxy that sets the header. -/
def viaProxy (proxy : IpAddr) (remoteAddr : ReadableValue) (headers : HeaderMap) : Request where
  peer := some proxy
  headers := headers.insert "x-forwarded-for"
    (proxyAddXForwardedFor (headers.get "x-forwarded-for") remoteAddr)

/-- A client's request with the header. -/
def HeaderMap.forwardedFor (headers : HeaderMap) (sent : HeaderValue) : HeaderMap :=
  headers.insert "x-forwarded-for" sent

/-- The address that the header of a client begins with. -/
def HeaderValue.claimedIp (sent : HeaderValue) : Option IpAddr := sent.toStr.bind firstIp

section

variable {proxy : IpAddr} {trustedProxies : List IpAddr} {remoteAddr : ReadableValue}
  {headers : HeaderMap}

/-- What is appended comes after the first `,`. -/
theorem firstIp_append (s t : List Char) : firstIp (s ++ ',' :: t) = firstIp s := by
  have htake : (s ++ ',' :: t).takeWhile (· ≠ ',') = s.takeWhile (· ≠ ',') := by
    induction s with
    | nil => rfl
    | cons c s ih => rw [List.cons_append, List.takeWhile_cons, List.takeWhile_cons, ih]
  rw [firstIp, firstIp, htake]

theorem claimedIp_proxyAdd (sent : HeaderValue) :
    (proxyAddXForwardedFor (some sent) remoteAddr).claimedIp = sent.claimedIp := by
  obtain ⟨remoteAddr, hremote⟩ := remoteAddr
  unfold proxyAddXForwardedFor HeaderValue.claimedIp HeaderValue.toStr
  dsimp only
  rw [List.all_append, List.all_append, hremote, Bool.and_true]
  by_cases hsent : sent.all isVisibleAscii = true
  · rw [hsent, if_pos (by decide), if_pos rfl, List.map_append, List.map_append, List.append_assoc]
    exact firstIp_append _ _
  · rw [Bool.eq_false_iff.mpr hsent]
    rfl

/-- Only what the client has sent decides. -/
theorem extractClientIp_viaProxy (htrusted : proxy ∈ trustedProxies) (sent : HeaderValue) :
    extractClientIp (viaProxy proxy remoteAddr (headers.forwardedFor sent)) trustedProxies =
      .ok (sent.claimedIp.getD proxy) := by
  unfold extractClientIp viaProxy HeaderMap.forwardedFor
  dsimp only
  rw [if_pos htrusted, HeaderMap.get_insert, HeaderMap.get_insert, Option.bind_some]
  have hclaimed : (proxyAddXForwardedFor (some sent) remoteAddr).claimedIp = sent.claimedIp :=
    claimedIp_proxyAdd sent
  unfold HeaderValue.claimedIp at hclaimed
  rw [hclaimed, HeaderValue.claimedIp]
  cases sent.toStr.bind firstIp <;> rfl

/-- Without trust the header does not count. -/
theorem extractClientIp_untrusted (h : proxy ∉ trustedProxies) (headers : HeaderMap) :
    extractClientIp ⟨some proxy, headers⟩ trustedProxies = .ok proxy :=
  if_neg h

/-- Every IPv4 address can be claimed. -/
theorem claimedIp_text (addr : Ipv4Addr) :
    (HeaderValue.ofStr addr.text).claimedIp = some (.v4 addr) := by
  have hrange := IpText.text_range addr
  have hbyte : ∀ c ∈ addr.text.toList, (UInt8.ofNat c.toNat).toNat = c.toNat := by
    intro c hc
    have := hrange c hc
    rw [UInt8.toNat_ofNat', Nat.mod_eq_of_lt (by omega)]
  have hread : (HeaderValue.ofStr addr.text).toStr = some addr.text.toList := by
    unfold HeaderValue.toStr HeaderValue.ofStr
    rw [if_pos, List.map_map, Option.some_inj]
    · refine (List.map_congr_left fun c hc => ?_).trans (List.map_id _)
      show Char.ofNat (UInt8.ofNat c.toNat).toNat = c
      rw [hbyte c hc, Char.ofNat_toNat]
    · rw [List.all_map, List.all_eq_true]
      intro c hc
      have := hrange c hc
      have hc := hbyte c hc
      show isVisibleAscii (UInt8.ofNat c.toNat) = true
      simp only [isVisibleAscii, Bool.or_eq_true, Bool.and_eq_true, decide_eq_true_eq,
        UInt8.le_iff_toNat_le, UInt8.lt_iff_toNat_lt, hc]
      exact .inl ⟨Nat.le_trans (by decide) this.1, Nat.lt_of_le_of_lt this.2 (by decide)⟩
  have hcomma : addr.text.toList.takeWhile (· ≠ ',') = addr.text.toList := by
    refine List.takeWhile_eq_self_iff.mpr fun c hc => decide_eq_true ?_
    rintro rfl
    exact absurd (hrange _ hc) (by decide)
  have htrim : Text.trim addr.text.toList = addr.text.toList := by
    refine Text.trim_eq_self fun c hc => ?_
    have := hrange c hc
    simp only [Text.isWhitespace, Bool.or_eq_false_iff, Bool.and_eq_false_iff, beq_eq_false_iff_ne,
      decide_eq_false_iff_not]
    omega
  rw [HeaderValue.claimedIp, hread, Option.bind_some, firstIp, hcomma, htrim, parseIpAddr_text]

/-- So a client can have itself counted as another one. -/
theorem extractClientIp_chosen (htrusted : proxy ∈ trustedProxies) (addr : Ipv4Addr) :
    extractClientIp (viaProxy proxy remoteAddr (headers.forwardedFor (.ofStr addr.text)))
      trustedProxies = .ok (.v4 addr) := by
  rw [extractClientIp_viaProxy htrusted, claimedIp_text]
  rfl

end

/-- **The choice of the client.** Two values of the header that a client sends lead to one address
exactly if they begin with the same, where the address of the proxy stands for none. -/
theorem client_ip_fixed_iff (proxy : IpAddr) (trustedProxies : List IpAddr)
    (remoteAddr : ReadableValue) (headers : HeaderMap) (sent sent' : HeaderValue) :
    extractClientIp (viaProxy proxy remoteAddr (headers.forwardedFor sent)) trustedProxies =
        extractClientIp (viaProxy proxy remoteAddr (headers.forwardedFor sent')) trustedProxies ↔
      (proxy ∈ trustedProxies → sent.claimedIp.getD proxy = sent'.claimedIp.getD proxy) := by
  by_cases htrusted : proxy ∈ trustedProxies
  · rw [extractClientIp_viaProxy htrusted, extractClientIp_viaProxy htrusted, Except.ok.injEq,
      forall_prop_of_true htrusted]
  · refine iff_of_true ?_ fun h => absurd h htrusted
    exact (extractClientIp_untrusted htrusted _).trans (extractClientIp_untrusted htrusted _).symm

/-- The address of the client, as the proxy appends it. -/
def sampleRemote : ReadableValue := ⟨.ofStr "198.51.100.7", by decide +kernel⟩

theorem client_ip_not_fixed :
    extractClientIp (viaProxy (.v4 ⟨127, 0, 0, 1⟩) sampleRemote
        (HeaderMap.forwardedFor [] (.ofStr "192.0.2.1"))) [.v4 ⟨127, 0, 0, 1⟩] =
      .ok (.v4 ⟨192, 0, 2, 1⟩) ∧
    extractClientIp (viaProxy (.v4 ⟨127, 0, 0, 1⟩) sampleRemote
        (HeaderMap.forwardedFor [] (.ofStr "192.0.2.2"))) [.v4 ⟨127, 0, 0, 1⟩] =
      .ok (.v4 ⟨192, 0, 2, 2⟩) := by
  decide +kernel

end ApertureRouter
