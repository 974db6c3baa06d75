import ApertureRouter.Server.Router

/-!
# A start from a valid configuration

`Config::validate` lets configurations through that the server cannot start from: it does not look
at the host and the refresh interval, and it only warns of a key without TLS and of a wildcard
among the origins.

* `Startable`: what the start needs of a configuration.
* `newProxyClient_ok_iff`, `createCorsLayer_ok_iff`, `createRouter_ok_iff`, `serverAddr_ok_iff`: what
  each part needs.
* `starts_iff`: they are all that the start needs.
-/

namespace ApertureRouter

/-- What is relied on of the other crates. -/
structure Libraries.WorksAsDocumented (libs : Libraries) : Prop where
  visible : ∀ text, (text.toList.all fun c => 32 ≤ c.toNat && c.toNat < 127) = true →
    libs.isHeaderValue text = true
  built : ∀ timeoutSecs connectTimeoutSecs,
    libs.buildClient timeoutSecs connectTimeoutSecs = .ok ()

/-- There is an address to listen on, and no part of the router panics. -/
def ServerStarts (libs : Libraries) (config : Config) : Prop :=
  (∃ addr, config.serverAddr = .ok addr) ∧ ∃ parts, createRouter libs config = .ok parts

/-- What the start needs of a configuration. -/
structure Startable (libs : Libraries) (config : Config) : Prop where
  host : isHostLiteral config.host.toList = true
  key : config.aperture.apiKey = none ∨
    Config.startsWith config.aperture.baseUrl "https://" = true ∨
    leadsToPrivateHost libs.parseUrl config.aperture.baseUrl = true
  refresh : config.aperture.modelRefreshIntervalSecs ≠ 0
  /-- With an origin that is no header value, the configured ones are not used. -/
  origins : "*" ∉ config.cors.allowedOrigins ∨
    ∃ origin ∈ config.cors.allowedOrigins, libs.isHeaderValue origin = false

section

variable {libs : Libraries} {config : Config}

/-! ## The parts -/

theorem newProxyClient_ok_iff (hlibs : libs.WorksAsDocumented) {aperture : ApertureConfig}
    {http : HttpConfig} {size : Nat} :
    (∃ client, newProxyClient libs aperture http size = .ok client) ↔
      aperture.apiKey = none ∨ Config.startsWith aperture.baseUrl "https://" = true ∨
        leadsToPrivateHost libs.parseUrl aperture.baseUrl = true := by
  unfold newProxyClient
  rw [hlibs.built]
  dsimp only
  cases hkey : aperture.apiKey <;>
    cases hhttps : Config.startsWith aperture.baseUrl "https://" <;>
      cases hhost : leadsToPrivateHost libs.parseUrl aperture.baseUrl <;> simp

theorem localOrigins_ok (hlibs : libs.WorksAsDocumented) :
    ∃ allowed, localOrigins libs = .ok allowed := by
  have hlocalhost := hlibs.visible "http://localhost:3000" (by decide +kernel)
  have hloopback := hlibs.visible "http://127.0.0.1:3000" (by decide +kernel)
  refine ⟨["http://localhost:3000", "http://127.0.0.1:3000"], ?_⟩
  rw [localOrigins, localOrigin, if_pos hlocalhost, localOrigin, if_pos hloopback]
  rfl

theorem createCorsLayer_ok_iff (hlibs : libs.WorksAsDocumented) {cors : CorsConfig} :
    (∃ allowed, createCorsLayer libs cors = .ok allowed) ↔
      "*" ∉ cors.allowedOrigins ∨
        ∃ origin ∈ cors.allowedOrigins, libs.isHeaderValue origin = false := by
  unfold createCorsLayer
  split
  · rename_i hempty
    have hnil : cors.allowedOrigins = [] := List.isEmpty_iff.mp hempty
    exact iff_of_true (localOrigins_ok hlibs) (.inl (by rw [hnil]; exact List.not_mem_nil))
  · split
    · rename_i hall
      have hnone : ¬ ∃ origin ∈ cors.allowedOrigins, libs.isHeaderValue origin = false := by
        rintro ⟨origin, hmem, hbad⟩
        rw [List.all_eq_true.mp hall origin hmem] at hbad
        cases hbad
      rw [allowOriginList_ok_iff, or_iff_left hnone]
    · rename_i hall
      have hsome : ∃ origin ∈ cors.allowedOrigins, libs.isHeaderValue origin = false := by
        simpa using hall
      exact iff_of_true (localOrigins_ok hlibs) (.inr hsome)

theorem createRouter_ok_iff :
    (∃ parts, createRouter libs config = .ok parts) ↔
      (∃ client, newProxyClient libs config.aperture config.http
        config.security.maxStreamingSizeBytes = .ok client) ∧
      config.aperture.modelRefreshIntervalSecs ≠ 0 ∧
      ∃ allowed, createCorsLayer libs config.cors = .ok allowed := by
  unfold createRouter
  simp only [exists_bind_ok, expect_ok_iff, interval_ok_iff]
  constructor
  · rintro ⟨client, hclient, -, -, -, hrefresh, allowed, hallowed, -⟩
    exact ⟨⟨client, hclient⟩, hrefresh, allowed, hallowed⟩
  · rintro ⟨⟨client, hclient⟩, hrefresh, allowed, hallowed⟩
    exact ⟨client, hclient, (), by decide, (), hrefresh, allowed, hallowed, (), by decide, _, rfl⟩

theorem serverAddr_ok_iff (hport : config.port < 65536) :
    (∃ addr, config.serverAddr = .ok addr) ↔ isHostLiteral config.host.toList = true := by
  have haddr : (config.host ++ ":" ++ toString config.port).toList =
      config.host.toList ++ ':' :: (toString config.port).toList := by
    rw [String.toList_append, String.toList_append, List.append_assoc]
    rfl
  rw [← parseSocketAddr_port_isSome hport, ← haddr]
  unfold Config.serverAddr
  dsimp only
  cases parseSocketAddr (config.host ++ ":" ++ toString config.port).toList with
  | none => exact iff_of_false (fun ⟨_, h⟩ => by cases h) fun h => by cases h
  | some addr => exact iff_of_true ⟨addr, rfl⟩ rfl

/-! ## The start -/

/-- **The start of the server.** The port is a `u16`. -/
theorem starts_iff (hlibs : libs.WorksAsDocumented) (hport : config.port < 65536) :
    ServerStarts libs config ↔ Startable libs config := by
  rw [ServerStarts, serverAddr_ok_iff hport, createRouter_ok_iff, newProxyClient_ok_iff hlibs,
    createCorsLayer_ok_iff hlibs]
  constructor
  · rintro ⟨hhost, hkey, hrefresh, horigins⟩
    exact ⟨hhost, hkey, hrefresh, horigins⟩
  · intro h
    exact ⟨h.host, h.key, h.refresh, h.origins⟩

end

/-! ## Valid configurations -/

/-- Header values of visible characters, and `localUrls`. -/
def localLibraries : Libraries where
  parseUrl := localUrls
  isHeaderValue := fun text => text.toList.all fun c => 32 ≤ c.toNat && c.toNat < 127
  buildClient := fun _ _ => .ok ()

theorem localLibraries_work : localLibraries.WorksAsDocumented :=
  ⟨fun _ h => h, fun _ _ => rfl⟩

theorem localConfig_starts : ServerStarts localLibraries localConfig :=
  (starts_iff localLibraries_work (by decide)).mpr
    ⟨by decide +kernel, .inl rfl, by decide, .inl (by decide)⟩

/-- The comment on `allowed_origins` has `"*"` for any origin. -/
def wildcardConfig : Config := { localConfig with cors := { allowedOrigins := ["*"] } }

theorem wildcardConfig_panics :
    wildcardConfig.port < 65536 ∧ wildcardConfig.validate localUrls false = .ok () ∧
      ¬ ServerStarts localLibraries wildcardConfig := by
  refine ⟨by decide, by rfl, ?_⟩
  rintro ⟨-, hparts⟩
  have horigins := (createCorsLayer_ok_iff localLibraries_work).mp (createRouter_ok_iff.mp hparts).2.2
  rcases horigins with hwild | ⟨origin, hmem, hbad⟩
  · exact hwild List.mem_cons_self
  · rw [List.mem_singleton.mp hmem] at hbad
    exact absurd hbad (by decide)

end ApertureRouter
