import ApertureRouter.Cli.Setup
import ApertureRouter.Server.Confined

/-!
# From the configuration to the upstreams

What a server that has started from its file or its environment (`Runs`) does with the keys of its
configuration. The checks that decide this are in three places: `Config::validate` looks at the URLs of
the providers, `ProxyClient::new` at the URL of the gateway if there is a key for it, and
`update_from_discovery` adds providers at the gateway's URL only.

* `Server.ofConfig`: the server that `create_router` makes.
* `started_guarded`: the requests of its runs.
-/

namespace ApertureRouter

open Tasks

section

variable {libs : Libraries} {toml : TomlCodec} {debug : Bool} {vars : EnvVars} {path : String}
  {files : FileSystem} {config : Config}

/-! ## What the start has checked -/

theorem validate_of_readConfig {vars' : EnvVars}
    (h : readConfig toml libs.parseUrl debug vars path files = .ok (config, vars')) :
    config.validate libs.parseUrl debug = .ok () := by
  unfold readConfig at h
  split at h
  · unfold Config.load at h
    simp only [Config.bind_eq_ok, Config.mapError_eq_ok] at h
    obtain ⟨-, -, -, -, c, -, u, hvalid, hdone⟩ := h
    obtain ⟨rfl, -⟩ := Prod.mk.inj (Except.ok.inj hdone)
    exact hvalid
  · cases hbase : vars "APERTURE_BASE_URL" with
    | none =>
      rw [hbase] at h
      cases h
    | some baseUrl =>
      rw [hbase] at h
      simp only [Config.bind_eq_ok, Config.mapError_eq_ok] at h
      obtain ⟨u, hvalid, hdone⟩ := h
      obtain ⟨rfl, -⟩ := Prod.mk.inj (Except.ok.inj hdone)
      exact hvalid

/-- The configuration is valid. -/
theorem Runs.valid (h : Runs libs toml debug vars path files config) :
    config.validate libs.parseUrl debug = .ok () := by
  obtain ⟨⟨vars', hrun⟩, -⟩ := h
  unfold runConfig at hrun
  obtain ⟨⟨c, v⟩, hread, hrest⟩ := Config.bind_eq_ok.mp hrun
  obtain ⟨u, -, hdone⟩ := Config.bind_eq_ok.mp hrest
  obtain ⟨rfl, -⟩ := Prod.mk.inj (Except.ok.inj hdone)
  exact validate_of_readConfig hread

/-- The gateway's key is guarded. -/
theorem Runs.guarded (hlibs : libs.WorksAsDocumented)
    (h : Runs libs toml debug vars path files config) : KeyGuarded libs config.aperture :=
  (newProxyClient_ok_iff hlibs).mp (createRouter_ok_iff.mp h.2.2).1

/-- The URL of a provider that was checked. -/
theorem checkProvider_of_mem {parse : UrlParser} {seen : List String} {providers : List Provider}
    (h : Config.checkProviders parse seen providers = .ok ()) {p : Provider} (hp : p ∈ providers) :
    (Config.startsWith p.baseUrl "http://" = true ∨ Config.startsWith p.baseUrl "https://" = true) ∧
      Config.blockedBaseUrl parse p.baseUrl = false := by
  obtain ⟨-, hall⟩ := checkProviders_ok_iff.mp h
  obtain ⟨⟨-, -, -, -, hscheme⟩, hblocked⟩ := Config.checkProvider_ok_iff.mp (hall p hp).2
  exact ⟨hscheme, hblocked⟩

/-! ## The server -/

/-- The server that `create_router` makes of a valid configuration, with the discovery of `run_server`. -/
def Server.ofConfig {parse : UrlParser} (config : Config)
    (hvalid : config.validate parse debug = .ok ()) (fetchEnv : FetchEnv)
    (admitsGateway admitsProvider : String → Bool) : Server where
  middleware := {
    config := config
    auth := .new config hvalid
    rateLimiter := createRateLimiter config.rateLimit }
  config := {
    multiProviderEnabled := config.multiProviderEnabled
    modelAliases := config.modelAliases
    maxMessages := config.security.maxMessages
    maxJsonDepth := config.security.maxJsonDepth }
  aperture := config.aperture
  proxyClient := {
    baseUrl := config.aperture.baseUrl
    apiKey := config.aperture.apiKey
    admitsGateway := admitsGateway
    admitsProvider := admitsProvider }
  fetchEnv := fetchEnv

/-- What may be asked with a configuration: the gateway, with no key or with its own if the URL of the
gateway guards it, or a provider that is enabled and whose URL was accepted, with no key or its own. -/
def Guarded (libs : Libraries) (fetchEnv : FetchEnv) (config : Config) : RouterQuery → Prop
  | .upstream q =>
    (q.url.base = trimSlashes config.aperture.baseUrl ∧
      (q.header = none ∨ ∃ key, config.aperture.apiKey = some key ∧ q.Carries key ∧
        (Config.startsWith config.aperture.baseUrl "https://" = true ∨
          leadsToPrivateHost libs.parseUrl config.aperture.baseUrl = true))) ∨
    ∃ p ∈ config.providers, p.enabled = true ∧ (∃ endpoint, q.url = buildEndpointUrl p endpoint) ∧
      (Config.startsWith p.baseUrl "http://" = true ∨ Config.startsWith p.baseUrl "https://" = true) ∧
      Config.blockedBaseUrl libs.parseUrl p.baseUrl = false ∧
      (q.header = none ∨ ∃ key, p.apiKey = some key ∧ q.Carries key)
  | .models q =>
    fetchEnv.modelsUrl config.aperture.baseUrl = .ok q.url ∧
      (q.header = none ∨ ∃ key, config.aperture.apiKey = some key ∧
        q.header = some ("x-api-key", key) ∧
        (Config.startsWith config.aperture.baseUrl "https://" = true ∨
          leadsToPrivateHost libs.parseUrl config.aperture.baseUrl = true))

/-- A guarded key. -/
theorem KeyGuarded.of_some {aperture : ApertureConfig} (h : KeyGuarded libs aperture) {key : String}
    (hkey : aperture.apiKey = some key) :
    Config.startsWith aperture.baseUrl "https://" = true ∨
      leadsToPrivateHost libs.parseUrl aperture.baseUrl = true := by
  rcases h with hnone | hguarded
  · rw [hkey] at hnone
    cases hnone
  · exact hguarded

/-- With what the start has checked, the requests that keep to the configuration are guarded. -/
theorem guarded_of_addressed (hvalid : config.validate libs.parseUrl debug = .ok ())
    (hguarded : KeyGuarded libs config.aperture) {fetchEnv : FetchEnv}
    {admitsGateway admitsProvider : String → Bool} {q : RouterQuery}
    (h : (Server.ofConfig config hvalid fetchEnv admitsGateway admitsProvider).Addressed
      config.providers q) : Guarded libs fetchEnv config q := by
  cases q with
  | upstream q =>
    cases h with
    | gateway hurl hkey =>
      refine .inl ⟨hurl, hkey.imp_right ?_⟩
      rintro ⟨key, hkey, hcarries⟩
      exact ⟨key, hkey, hcarries, hguarded.of_some hkey⟩
    | @provider p hp hurl hkey =>
      obtain ⟨hscheme, hblocked⟩ := checkProvider_of_mem (Config.bind_ok_iff.mp hvalid).2 hp.1
      exact .inr ⟨p, hp.1, hp.2, hurl, hscheme, hblocked, hkey⟩
  | models q =>
    obtain ⟨hurl, hheader⟩ := h
    refine ⟨hurl, ?_⟩
    have happ : (Server.ofConfig config hvalid fetchEnv admitsGateway admitsProvider).aperture =
        config.aperture := rfl
    rw [happ] at hheader
    cases hkey : config.aperture.apiKey with
    | none =>
      rw [hkey] at hheader
      exact .inl hheader
    | some key =>
      rw [hkey] at hheader
      exact .inr ⟨key, rfl, hheader, hguarded.of_some hkey⟩

end

/-! ## Runs -/

section

variable {τ : Type} [Fintype τ] [DecidableEq τ] {libs : Libraries} {toml : TomlCodec} {debug : Bool}
  {vars : EnvVars} {path : String} {files : FileSystem} {config : Config} {fetchEnv : FetchEnv}
  {admitsGateway admitsProvider : String → Bool} {shared : Shared} {tasks : τ → RouterTask}
  {s : State RouterLock τ (RouterData τ) RouterQuery RouterQuery.Answer Outcome}

/-- **From the configuration to the upstreams.** However a server was configured, in all of its runs
the gateway's key is only sent to the gateway, and over TLS or to a private host; a provider's key is only
sent to it; and no request goes anywhere but to the gateway or to an enabled provider whose URL is one of
HTTP and was not blocked. -/
theorem started_guarded (hlibs : libs.WorksAsDocumented)
    (hruns : Runs libs toml debug vars path files config)
    (hshared : shared.registry = .new config.providers)
    (h : (Server.ofConfig config hruns.valid fetchEnv admitsGateway admitsProvider).Reaches shared
      tasks s) :
    ∀ e ∈ s.asked, Guarded libs fetchEnv config e.2 := by
  have hn : (config.providers.map (·.name)).Nodup := Config.names_nodup hruns.valid
  -- The models were fetched before, and the registry knows nothing of it.
  have hstart : shared.registry.Contained config.providers config.aperture.baseUrl := by
    rw [hshared]
    exact RegistryInner.contained_new hn
  obtain ⟨-, hasked⟩ := h.confined hn rfl hstart
  exact fun e he => guarded_of_addressed hruns.valid (hruns.guarded hlibs) (hasked e he)

end

/-! ## Keys for the gateway and for a provider -/

/-- A provider of the file, with its key. -/
def acme : Provider where
  name := "acme"
  baseUrl := "https://api.acme.example"
  apiKey := some "acme-secret"
  endpointStyle := .openaiV1
  models := ["acme-1"]
  enabled := true

/-- The file. -/
def acmeToml : String := tomlLines ["multi_provider_enabled = true", "", "[aperture]",
  "base_url = \"http://localhost:8080\"", "", "[security]", "require_auth_in_prod = false", "",
  "[[providers]]", "name = \"acme\"", "base_url = \"https://api.acme.example\"",
  "api_key = \"acme-secret\"", "endpoint_style = \"openai_v1\"", "models = [\"acme-1\"]"]

/-- What it says. -/
def acmeFile : Config where
  aperture := { baseUrl := "http://localhost:8080" }
  security := { requireAuthInProd := false }
  multiProviderEnabled := true
  providers := [acme]

def acmeCodec : TomlCodec := twoTextCodec "" acmeToml {} acmeFile

/-- The key of the gateway is in the environment. -/
def acmeVars (name : String) : Option String :=
  if name = "APERTURE_API_KEY" then some "gateway-secret" else none

def acmeConfig : Config :=
  { acmeFile with aperture := { acmeFile.aperture with apiKey := some "gateway-secret" } }

/-- `Url::parse` of the two. -/
def acmeUrls (text : String) : Except String ParsedUrl :=
  if text = "https://api.acme.example" then .ok ⟨"https", some (.domain "api.acme.example")⟩
  else localUrls text

def acmeLibraries : Libraries := { localLibraries with parseUrl := acmeUrls }

theorem acmeLibraries_work : acmeLibraries.WorksAsDocumented := ⟨fun _ h => h, fun _ _ => rfl⟩

def acmeFiles : FileSystem :=
  Function.update (fun _ => none) "config.toml" (some acmeToml.toUTF8)

theorem runs_acme :
    Runs acmeLibraries acmeCodec false acmeVars "config.toml" acmeFiles acmeConfig := by
  have hread : readToString acmeFiles "config.toml" = .ok acmeToml := readToString_update _ _ _
  have hfile : acmeCodec.fromStr acmeToml = .ok acmeFile := twoTextCodec_saved ..
  refine ⟨⟨_, (runConfig_file_iff hread hfile).mpr ⟨by rfl, by decide +kernel, rfl⟩⟩, ?_⟩
  exact (starts_local_iff acmeLibraries_work rfl (by decide) rfl rfl).mpr
    (.inr (.inr (by decide +kernel)))

/-- A gateway with one model. -/
def localFetchEnv : FetchEnv :=
  { FetchEnv.sampleFetchEnv with join := fun baseUrl path => .ok (baseUrl ++ "/" ++ path) }

def acmeServer : Server :=
  .ofConfig acmeConfig runs_acme.valid localFetchEnv (fun _ => true) fun _ => true

/-- A refresh, and a request for the model of the provider. -/
def acmeTasks (refreshes : Bool) : RouterTask :=
  if refreshes then .refreshTick ⟨1, sampleOrder, .entries, .entries⟩
  else .post Middleware.regularVisit plainEnv
    (.chat { model := "acme-1", messages := [{ role := "user" }] })

/-- The gateway is asked for its models, and then the provider for a completion. -/
def acmeRun : State RouterLock Bool (RouterData Bool) RouterQuery RouterQuery.Answer Outcome :=
  ((acmeServer.start { registry := .new [acme] } acmeTasks).runAll discovering
    (List.replicate 31 true ++ List.replicate 13 false)).get (by decide +kernel)

/-- What was asked, and with which key. -/
def RouterQuery.sent : RouterQuery → String × Option (String × String)
  | .upstream q => (q.url.text, q.header)
  | .models q => (q.url, q.header)

theorem started_guarded_acmeRun :
    acmeRun.asked.map (·.2.sent) =
        [("https://api.acme.example/v1/chat/completions", some ("authorization", "Bearer acme-secret")),
          ("http://localhost:8080/v1/models", some ("x-api-key", "gateway-secret"))] ∧
      ∀ e ∈ acmeRun.asked, Guarded acmeLibraries localFetchEnv acmeConfig e.2 := by
  have hreaches : acmeServer.Reaches { registry := .new [acme] } acmeTasks acmeRun :=
    State.Reach.start.runAll (Option.some_get _).symm
  exact ⟨by decide +kernel, started_guarded acmeLibraries_work runs_acme rfl hreaches⟩

end ApertureRouter
