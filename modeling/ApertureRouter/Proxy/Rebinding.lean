import ApertureRouter.Proxy.Client
import ApertureRouter.Url

/-!
# Where the requests to a provider go

`forward_request_to_url`, its `_raw` variant and `forward_request_stream_to_url`
(`src/proxy/client.rs`) check the addresses of the host before they send
(`validate_provider_url_host`). The HTTP client looks the host up again for each send, and
`send_with_429_retry` sends up to `retry_attempts + 1` times.

* `Network`: the answers of the name server, one for each lookup, and the upstream's replies.
* `sendWith429Retry_getElem?`: when there is an `n`-th send, and where it goes.
* `never_blocked_iff`: no request goes to a blocked address, whichever address of an answer the
  client connects to, exactly if the check refuses the host or none of the answers that the sends
  get holds such an address.
* `guarded_of_constant`: so it is while the name server does not change its answer.
* `forwardRequestToUrlRaw_returns`: seen from a route, all sends are the one query of `Calls`.
-/

namespace ApertureRouter

/-! ## The network -/

/-- The addresses of a host, or no answer. -/
abbrev Answer := Except Unit (List IpAddr)

/-- A response, and its header `x-ratelimit-remaining`. The header `Retry-After` only sets how long
the next send waits. -/
structure HttpReply where
  response : UpstreamResponse
  rateLimitRemaining : Option String

/-- What the network does in the course of one request. -/
structure Network where
  /-- The answer to the `n`-th lookup. -/
  answer : Nat → Answer
  /-- The place in the answer of the address that the client connects to for the `n`-th send. -/
  connects : Nat → Nat
  /-- The reply to the `n`-th send, or an error of the transport. -/
  reply : Nat → Except Unit HttpReply
  /-- The number of sends before the timeout of a stream, if it strikes. -/
  timeout : Option Nat

/-- The addresses that requests were sent to, and what is returned. -/
structure Sends (α : Type) where
  addrs : List IpAddr
  result : Except Unit α

/-! ## The checks -/

/-- The `429` is retried: `x-ratelimit-remaining` does not say that the quota is exhausted. -/
def HttpReply.retried (reply : HttpReply) : Bool :=
  reply.response.status == 429 &&
    !(reply.rateLimitRemaining.map fun v => Text.trim v.toList == ['0']).getD false

namespace Network

variable (net : Network)

/-- A lookup. An address is its own answer. -/
def lookup : Host → Nat → Answer
  | .domain _, n => net.answer n
  | .v4 addr, _ => .ok [.v4 addr]
  | .v6 addr, _ => .ok [.v6 addr]

/-- `validate_resolved_ips`: one lookup, which must have an answer without a blocked address. -/
def validateResolvedIps (host : Host) : Bool :=
  host.parseIp.isSome ||
    match net.lookup host 0 with
    | .ok addrs => !addrs.isEmpty && addrs.all fun ip => !isInternalIpStrict ip && !isMetadataIp ip
    | .error _ => false

/-- `validate_provider_url_host`. -/
def validateProviderUrlHost (url : ParsedUrl) : Bool :=
  match url.host with
  | none => true
  | some host =>
    if host.isMetadataEndpoint then false
    else
      match host.parseIp with
      | some ip => !isInternalIpStrict ip
      | none => net.validateResolvedIps host

/-- The check of the scheme, and of the host. -/
def admits (url : ParsedUrl) : Bool :=
  (url.scheme == "https" || url.scheme == "http") && net.validateProviderUrlHost url

/-! ## The sends -/

/-- The address that the `n`-th send goes to. It has its own lookup, after the one of the check. -/
def connected (host : Host) (n : Nat) : Option IpAddr :=
  match net.lookup host (n + 1) with
  | .ok addrs => addrs[net.connects n]?
  | .error _ => none

/-- `send_with_429_retry`, from the `n`-th send on, with what is left of the retries. -/
def sendWith429Retry (host : Host) (left n : Nat) : Sends UpstreamResponse :=
  match net.connected host n with
  | none => ⟨[], .error ()⟩
  | some ip =>
    match net.reply n with
    | .error _ => ⟨[ip], .error ()⟩
    | .ok reply =>
      match left with
      | 0 => ⟨[ip], .ok reply.response⟩
      | left + 1 =>
        if reply.retried then
          let rest := sendWith429Retry host left (n + 1)
          ⟨ip :: rest.addrs, rest.result⟩
        else ⟨[ip], .ok reply.response⟩

/-- Sends, if the URL is admitted. -/
def sendChecked (url : ParsedUrl) (retryAttempts : Nat) : Sends UpstreamResponse :=
  match net.admits url, url.host with
  | true, some host => net.sendWith429Retry host retryAttempts 0
  | _, _ => ⟨[], .error ()⟩

/-- `forward_request_to_url`. -/
def forwardRequestToUrl (url : ParsedUrl) (retryAttempts : Nat) : Sends UpstreamResponse :=
  let sends := net.sendChecked url retryAttempts
  ⟨sends.addrs, successOnly sends.result⟩

/-- `forward_request_to_url_raw`. -/
def forwardRequestToUrlRaw (url : ParsedUrl) (retryAttempts : Nat) : Sends UpstreamResponse :=
  net.sendChecked url retryAttempts

/-- `forward_request_stream_to_url`. Its timeout can strike between two sends. -/
def forwardRequestStreamToUrl (url : ParsedUrl) (retryAttempts : Nat) :
    Sends (List (Except String (List Char))) :=
  let sends := net.sendChecked url retryAttempts
  match net.timeout with
  | none => ⟨sends.addrs, (successOnly sends.result).map (·.chunks)⟩
  | some n => ⟨sends.addrs.take n, .error ()⟩

/-! ## Where the sends go -/

/-- There is another send after the `n`-th one. -/
def GoesOn (host : Host) (n : Nat) : Prop :=
  (net.connected host n).isSome ∧ ∃ reply, net.reply n = .ok reply ∧ reply.retried = true

theorem sendWith429Retry_zero (host : Host) (left n : Nat) :
    (net.sendWith429Retry host left n).addrs[0]? = net.connected host n := by
  rw [sendWith429Retry.eq_def]
  cases net.connected host n with
  | none => rfl
  | some ip =>
    cases net.reply n with
    | error e => rfl
    | ok reply =>
      cases left with
      | zero => rfl
      | succ left =>
        dsimp only
        split <;> rfl

/-- There is a send after the first one only if it is retried. -/
theorem sendWith429Retry_succ (host : Host) (left n k : Nat) (ip : IpAddr) :
    (net.sendWith429Retry host left n).addrs[k + 1]? = some ip ↔
      ∃ left', left = left' + 1 ∧ net.GoesOn host n ∧
        (net.sendWith429Retry host left' (n + 1)).addrs[k]? = some ip := by
  rw [sendWith429Retry.eq_def, GoesOn]
  cases net.connected host n with
  | none => simp
  | some ip' =>
    cases net.reply n with
    | error e => simp
    | ok reply =>
      cases left with
      | zero => simp
      | succ left =>
        cases hretried : reply.retried <;> simp [hretried]

/-- The `k`-th of the sends is made if all before it are retried. It goes to its own answer. -/
theorem sendWith429Retry_getElem? (host : Host) (left n k : Nat) (ip : IpAddr) :
    (net.sendWith429Retry host left n).addrs[k]? = some ip ↔
      k ≤ left ∧ (∀ m < k, net.GoesOn host (n + m)) ∧ net.connected host (n + k) = some ip := by
  induction k generalizing left n with
  | zero =>
    rw [sendWith429Retry_zero]
    simp
  | succ k ih =>
    rw [sendWith429Retry_succ]
    constructor
    · rintro ⟨left', rfl, hfirst, hrest⟩
      obtain ⟨hle, hgo, hip⟩ := (ih left' (n + 1)).mp hrest
      refine ⟨by omega, fun m hm => ?_, ?_⟩
      · cases m with
        | zero => exact hfirst
        | succ m =>
          rw [show n + (m + 1) = n + 1 + m by omega]
          exact hgo m (by omega)
      · rwa [show n + (k + 1) = n + 1 + k by omega]
    · rintro ⟨hle, hgo, hip⟩
      refine ⟨left - 1, by omega, hgo 0 (by omega), (ih (left - 1) (n + 1)).mpr ⟨by omega, ?_, ?_⟩⟩
      · intro m hm
        rw [show n + 1 + m = n + (m + 1) by omega]
        exact hgo (m + 1) (by omega)
      · rwa [show n + 1 + k = n + (k + 1) by omega]

end Network

/-! ## Blocked addresses -/

/-- No address of an answer is blocked. -/
def Usable (answer : Answer) : Prop :=
  ∀ addrs, answer = .ok addrs → ∀ ip ∈ addrs, isBlocked ip = false

/-- None of the addresses is blocked. -/
def Sends.Allowed {α : Type} (sends : Sends α) : Prop := ∀ ip ∈ sends.addrs, isBlocked ip = false

namespace Network

variable (net : Network)

/-- The same network, where the client connects to other addresses of the answers. -/
def connecting (connects : Nat → Nat) : Network := { net with connects := connects }

theorem connecting_timeout (connects : Nat → Nat) :
    (net.connecting connects).timeout = net.timeout := rfl

/-- The send has an answer with an address, and its reply is retried. -/
def Retried (n : Nat) : Prop :=
  (∃ ip addrs, net.answer (n + 1) = .ok (ip :: addrs)) ∧
    ∃ reply, net.reply n = .ok reply ∧ reply.retried = true

/-- The URL is refused, or no answer that one of the sends gets has a blocked address. -/
def Guarded (url : ParsedUrl) (sends : Nat) : Prop :=
  net.admits url = true → ∀ n < sends, (∀ m < n, net.Retried m) → Usable (net.answer (n + 1))

/-- The sends that a stream can make before its timeout. -/
def streamSends (retryAttempts : Nat) : Nat :=
  match net.timeout with
  | none => retryAttempts + 1
  | some n => min n (retryAttempts + 1)

section

variable (connects : Nat → Nat) (scheme name : String)

theorem connected_connecting (n : Nat) (ip : IpAddr) :
    (net.connecting connects).connected (.domain name) n = some ip ↔
      ∃ addrs, net.answer (n + 1) = .ok addrs ∧ addrs[connects n]? = some ip := by
  show (match net.answer (n + 1) with
    | .ok addrs => addrs[connects n]?
    | .error _ => none) = some ip ↔ _
  cases net.answer (n + 1) with
  | error e => simp
  | ok addrs => simp

theorem GoesOn.retried {n : Nat} (h : (net.connecting connects).GoesOn (.domain name) n) :
    net.Retried n := by
  obtain ⟨hconn, hreply⟩ := h
  obtain ⟨ip, hip⟩ := Option.isSome_iff_exists.mp hconn
  obtain ⟨addrs, hans, hget⟩ := (net.connected_connecting connects name n ip).mp hip
  refine ⟨?_, hreply⟩
  cases addrs with
  | nil => cases hget
  | cons ip' addrs => exact ⟨ip', addrs, hans⟩

theorem Retried.goesOn {n : Nat} (h : net.Retried n) (hzero : connects n = 0) :
    (net.connecting connects).GoesOn (.domain name) n := by
  obtain ⟨⟨ip, addrs, hans⟩, hreply⟩ := h
  refine ⟨Option.isSome_iff_exists.mpr ⟨ip, ?_⟩, hreply⟩
  exact (net.connected_connecting connects name n ip).mpr ⟨_, hans, by rw [hzero]; rfl⟩

end

/-- A request is sent at most `retry_attempts + 1` times. -/
theorem sendWith429Retry_length_le (host : Host) (left n : Nat) :
    (net.sendWith429Retry host left n).addrs.length ≤ left + 1 := by
  by_contra hlt
  have hlast := (net.sendWith429Retry_getElem? host left n (left + 1) _).mp
    (List.getElem?_eq_getElem (show left + 1 < _ by omega))
  omega

section

variable (scheme name : String) (retryAttempts : Nat)

theorem sendChecked_eq (connects : Nat → Nat) :
    (net.connecting connects).sendChecked ⟨scheme, some (.domain name)⟩ retryAttempts =
      if net.admits ⟨scheme, some (.domain name)⟩ then
        (net.connecting connects).sendWith429Retry (.domain name) retryAttempts 0
      else ⟨[], .error ()⟩ := by
  have hadmits : (net.connecting connects).admits ⟨scheme, some (.domain name)⟩ =
      net.admits ⟨scheme, some (.domain name)⟩ := rfl
  rw [sendChecked, hadmits]
  cases net.admits ⟨scheme, some (.domain name)⟩ <;> rfl

/-- The first sends, whichever addresses the client connects to. -/
theorem take_allowed_iff (limit : Nat) :
    (∀ connects, ∀ ip ∈ ((net.connecting connects).sendChecked ⟨scheme, some (.domain name)⟩
        retryAttempts).addrs.take limit, isBlocked ip = false) ↔
      net.Guarded ⟨scheme, some (.domain name)⟩ (min limit (retryAttempts + 1)) := by
  simp only [sendChecked_eq]
  by_cases hadmits : net.admits ⟨scheme, some (.domain name)⟩ = true
  · simp only [hadmits, if_true]
    constructor
    · intro h _ n hn hretried addrs hans ip hip
      obtain ⟨i, hi⟩ := List.mem_iff_getElem?.mp hip
      -- the client takes this address for the last send, and the first one for those before
      refine h (fun k => if k = n then i else 0) ip ?_
      refine List.mem_iff_getElem?.mpr ⟨n, ?_⟩
      rw [List.getElem?_take_of_lt (by omega), sendWith429Retry_getElem?, Nat.zero_add]
      refine ⟨by omega, fun m hm => ?_, ?_⟩
      · rw [Nat.zero_add]
        exact (hretried m hm).goesOn net _ name (if_neg (by omega))
      · exact (net.connected_connecting _ name n ip).mpr ⟨addrs, hans, by rwa [if_pos rfl]⟩
    · intro h connects ip hip
      obtain ⟨n, hn⟩ := List.mem_iff_getElem?.mp hip
      rw [List.getElem?_take] at hn
      split at hn
      · rw [sendWith429Retry_getElem?, Nat.zero_add] at hn
        obtain ⟨hle, hgo, hconn⟩ := hn
        obtain ⟨addrs, hans, hget⟩ := (net.connected_connecting connects name n ip).mp hconn
        refine h hadmits n (by omega) (fun m hm => ?_) addrs hans ip (List.mem_of_getElem? hget)
        have hgoes := hgo m hm
        rw [Nat.zero_add] at hgoes
        exact hgoes.retried net connects name
      · cases hn
  · simp only [hadmits, Bool.false_eq_true, if_false, List.take_nil]
    exact ⟨fun _ h => absurd h hadmits, fun _ _ _ h => absurd h List.not_mem_nil⟩

theorem allowed_iff :
    (∀ connects, ((net.connecting connects).sendChecked ⟨scheme, some (.domain name)⟩
        retryAttempts).Allowed) ↔
      net.Guarded ⟨scheme, some (.domain name)⟩ (retryAttempts + 1) := by
  have htake := net.take_allowed_iff scheme name retryAttempts (retryAttempts + 1)
  rw [Nat.min_self] at htake
  rw [← htake]
  refine forall_congr' fun connects => ?_
  rw [List.take_of_length_le]
  · rfl
  · rw [sendChecked_eq]
    split
    · exact sendWith429Retry_length_le _ _ _ _
    · exact Nat.zero_le _

/-- With a host name, a request goes to no blocked address, whichever address of an answer the
client connects to, exactly if the name is refused or no answer that a send gets has one. -/
theorem never_blocked_iff :
    ((∀ connects, ((net.connecting connects).forwardRequestToUrl ⟨scheme, some (.domain name)⟩
        retryAttempts).Allowed) ↔
      net.Guarded ⟨scheme, some (.domain name)⟩ (retryAttempts + 1)) ∧
    ((∀ connects, ((net.connecting connects).forwardRequestToUrlRaw ⟨scheme, some (.domain name)⟩
        retryAttempts).Allowed) ↔
      net.Guarded ⟨scheme, some (.domain name)⟩ (retryAttempts + 1)) ∧
    ((∀ connects, ((net.connecting connects).forwardRequestStreamToUrl
        ⟨scheme, some (.domain name)⟩ retryAttempts).Allowed) ↔
      net.Guarded ⟨scheme, some (.domain name)⟩ (net.streamSends retryAttempts)) := by
  have hall := net.allowed_iff scheme name retryAttempts
  refine ⟨hall, hall, ?_⟩
  simp only [forwardRequestStreamToUrl, connecting_timeout]
  unfold streamSends
  cases net.timeout with
  | none => exact hall
  | some limit => exact net.take_allowed_iff scheme name retryAttempts limit

end

end Network

/-- `169.254.169.254`. -/
def metadataAddr : IpAddr := .v4 ⟨169, 254, 169, 254⟩

/-- A name server that answers the check with a public address, and then with another one. -/
def rebound : Network where
  answer n := .ok [if n = 0 then .v4 ⟨93, 184, 216, 34⟩ else metadataAddr]
  connects _ := 0
  reply _ := .ok ⟨⟨200, ⟨0, "", true⟩, []⟩, none⟩
  timeout := none

def reboundUrl : ParsedUrl := ⟨"https", some (.domain "api.example.com")⟩

theorem rebound_not_allowed :
    (isInternalIpStrict metadataAddr = true ∧ isMetadataIp metadataAddr = true) ∧
      (rebound.forwardRequestToUrl reboundUrl 2).addrs = [metadataAddr] ∧
      (rebound.forwardRequestToUrlRaw reboundUrl 2).addrs = [metadataAddr] ∧
      (rebound.forwardRequestStreamToUrl reboundUrl 2).addrs = [metadataAddr] ∧
      ¬ (rebound.forwardRequestToUrl reboundUrl 2).Allowed := by
  have haddrs : (rebound.forwardRequestToUrl reboundUrl 2).addrs = [metadataAddr] := by
    decide +kernel
  refine ⟨by decide, haddrs, by decide +kernel, by decide +kernel, fun h => ?_⟩
  have hmeta := h metadataAddr (by rw [haddrs]; exact List.mem_singleton_self _)
  revert hmeta
  decide

namespace Network

variable (net : Network)

/-! ## What the check is worth -/

theorem isBlocked_eq_false {addr : Ipv4Addr}
    (h : isMetadataEndpoint addr.text = false) (hint : isInternalIpStrict (.v4 addr) = false) :
    isBlocked (.v4 addr) = false := by
  rw [isBlocked, hint, Bool.false_or]
  by_contra hmeta
  rcases Bool.or_eq_true_iff.mp (Bool.of_not_eq_false hmeta) with hmeta | hmeta
  all_goals
    rw [eq_of_beq hmeta] at h
    revert h
    decide

theorem usable_of_validateResolvedIps {host : Host} (hparse : host.parseIp = none)
    (h : net.validateResolvedIps host = true) : Usable (net.lookup host 0) := by
  intro addrs hans ip hip
  rw [validateResolvedIps, hparse, hans] at h
  have hall := List.all_eq_true.mp (Bool.and_eq_true_iff.mp h).2 ip hip
  rw [← Bool.not_or] at hall
  exact Bool.not_eq_eq_eq_not.mp hall

/-- The check looks at one answer. -/
theorem usable_of_admits {host : Host} {scheme : String}
    (h : net.admits ⟨scheme, some host⟩ = true) : Usable (net.lookup host 0) := by
  have hhost : net.validateProviderUrlHost ⟨scheme, some host⟩ = true :=
    (Bool.and_eq_true_iff.mp h).2
  simp only [validateProviderUrlHost] at hhost
  split at hhost
  · cases hhost
  · next hmeta =>
    cases host with
    | domain name => exact net.usable_of_validateResolvedIps rfl hhost
    | v6 addr => exact net.usable_of_validateResolvedIps rfl hhost
    | v4 addr =>
      intro addrs hans ip hip
      obtain rfl := Except.ok.inj hans
      obtain rfl := List.mem_singleton.mp hip
      exact isBlocked_eq_false (Bool.of_not_eq_true hmeta) (Bool.not_eq_eq_eq_not.mp hhost)

/-- If all lookups have the same answer, no request goes to a blocked address. An address in the URL
is such an answer. -/
theorem allowed_of_constant {host : Host} (scheme : String) (retryAttempts : Nat)
    (h : ∀ n, net.lookup host n = net.lookup host 0) :
    (net.sendChecked ⟨scheme, some host⟩ retryAttempts).Allowed := by
  intro ip hip
  rw [sendChecked] at hip
  cases hadmits : net.admits ⟨scheme, some host⟩ with
  | false =>
    rw [hadmits] at hip
    cases hip
  | true =>
    rw [hadmits] at hip
    obtain ⟨n, hn⟩ := List.mem_iff_getElem?.mp hip
    obtain ⟨-, -, hconn⟩ := (net.sendWith429Retry_getElem? host retryAttempts 0 n ip).mp hn
    rw [connected, h] at hconn
    cases hans : net.lookup host 0 with
    | error e =>
      rw [hans] at hconn
      cases hconn
    | ok addrs =>
      rw [hans] at hconn
      exact net.usable_of_admits hadmits addrs hans ip (List.mem_of_getElem? hconn)

/-! ## Seen from a route -/

/-- Nothing is returned for a URL that is not admitted. -/
theorem sendChecked_result (parsed : ParsedUrl) (retryAttempts : Nat) :
    (if net.admits parsed then (net.sendChecked parsed retryAttempts).result else .error ()) =
      (net.sendChecked parsed retryAttempts).result := by
  rw [sendChecked]
  cases net.admits parsed <;> rfl

/-- The sends to a URL are one query of `Calls`, if the client admits it as the check does. -/
theorem forwardRequestToUrlRaw_returns (client : ProxyClient) (url : EndpointUrl)
    (parsed : ParsedUrl) (retryAttempts : Nat) (body : Value) (apiKey : Option String)
    (style : EndpointStyle) (h : client.admitsProvider url.text = net.admits parsed) :
    (client.forwardRequestToUrlRaw url body apiKey style).Returns
      (net.forwardRequestToUrlRaw parsed retryAttempts).result := by
  refine ⟨(net.sendChecked parsed retryAttempts).result, ?_⟩
  show (if client.admitsProvider url.text then _ else _) = _
  rw [h]
  exact net.sendChecked_result parsed retryAttempts

/-- The query of a stream has an error for a reply if the timeout strikes. -/
theorem forwardRequestStreamToUrl_returns (client : ProxyClient) (url : EndpointUrl)
    (parsed : ParsedUrl) (retryAttempts : Nat) (body : Value) (apiKey : Option String)
    (style : EndpointStyle) (h : client.admitsProvider url.text = net.admits parsed) :
    (client.forwardRequestStreamToUrl url body apiKey style).Returns
      (net.forwardRequestStreamToUrl parsed retryAttempts).result := by
  let request := client.providerRequest url body apiKey style
  have hadmitted : request.admitted = net.admits parsed := h
  have hreturns : ∀ reply : Reply,
      (client.forwardRequestStreamToUrl url body apiKey style).Returns
        ((successOnly (if request.admitted then reply else .error ())).map (·.chunks)) := by
    intro reply
    refine Dialog.returns_bind.mpr ⟨_, ⟨reply, rfl⟩, ?_⟩
    cases successOnly (if request.admitted then reply else .error ()) <;> rfl
  rw [hadmitted] at hreturns
  simp only [forwardRequestStreamToUrl]
  cases net.timeout with
  | none =>
    have hresult := hreturns (net.sendChecked parsed retryAttempts).result
    rwa [sendChecked_result] at hresult
  | some n =>
    have hresult := hreturns (.error ())
    rwa [ite_self] at hresult

end Network

end ApertureRouter
