import ApertureRouter.Cli.ApiKey
import ApertureRouter.Cli.JsonDocument
import ApertureRouter.Cli.Toggle
import ApertureRouter.Proxy.HostPolicy
import ApertureRouter.Server.Startup

/-!
# From the command line to the server

The configuration of a server comes from a file or from the environment alone (`run_server`, `src/main.rs`).
The file is made by `config generate` (`src/cli/commands.rs`) or by the wizard (`src/cli/wizard.rs`), which
save it without `Config::validate`.

* `Runs`: a server starts with a configuration.
* `generated_runs_alike_iff`: a server with a generated file is the one of the environment alone, exactly if
  that one starts and the variables that only a file is subject to agree with it.
* `wizard_runs_iff`: a server starts with the file of the wizard exactly if the checks take the answers. They
  refuse private gateways, which the wizard lets a user enter (`privateGateway_refused`).
-/

namespace ApertureRouter

/-! ## `run_server` -/

/-- The keys of the clients in the environment. -/
def envClientKeys (vars : EnvVars) : List String :=
  ((vars "APERTURE_CLIENT_API_KEYS").map clientApiKeys).getD []

/-- The configuration of the environment alone. -/
def envConfig (vars : EnvVars) (baseUrl : String) : Config where
  aperture := {
    baseUrl := baseUrl
    apiKey := (vars "APERTURE_API_KEY").filter (· ≠ "") }
  security := {
    apiKeys := envClientKeys vars
    requireAuthInProd := (vars "APERTURE_ALLOW_NO_AUTH").isNone }

/-- The error of a start without a file and without the variable. -/
def noConfigText (path : String) : String :=
  "No config file found at '" ++ path ++ "' and APERTURE_BASE_URL not set.\n\nQuick start options:\n1. Set environment variable:\nexport APERTURE_BASE_URL=http://your-aperture-gateway:8080\naperture-router\n\n2. Run the wizard:\naperture-router config wizard\n\n3. Generate config:\naperture-router config generate --url http://your-gateway:8080"

/-- The configuration of `run_server`, up to the check of its authentication, with the environment after
it. -/
def readConfig (toml : TomlCodec) (parse : UrlParser) (debug : Bool) (vars : EnvVars) (path : String)
    (files : FileSystem) : Except String (Config × EnvVars) :=
  if (files path).isSome then Config.load toml parse debug vars path files
  else
    match vars "APERTURE_BASE_URL" with
    | none => .error (noConfigText path)
    | some baseUrl => do
      let config := envConfig vars baseUrl
      (config.validate parse debug).mapError ("Config validation failed: " ++ ·)
      return (config, Function.update (Function.update vars "APERTURE_API_KEY" none)
        "APERTURE_CLIENT_API_KEYS" none)

/-- The configuration of `run_server` behind its checks. -/
def runConfig (toml : TomlCodec) (parse : UrlParser) (debug : Bool) (vars : EnvVars) (path : String)
    (files : FileSystem) : Except String (Config × EnvVars) := do
  let (config, vars) ← readConfig toml parse debug vars path files
  Config.refuse (config.security.requireAuthInProd && config.security.apiKeys.isEmpty && !debug)
    "Production mode requires authentication but no API keys configured. Set security.api_keys in your config, set APERTURE_CLIENT_API_KEYS=key1,key2 in the environment, or set APERTURE_ALLOW_NO_AUTH=1 to override (not recommended)"
  return (config, vars)

/-- `run_server` with a gateway that answers the first fetch starts, with that configuration. -/
def Runs (libs : Libraries) (toml : TomlCodec) (debug : Bool) (vars : EnvVars) (path : String)
    (files : FileSystem) (config : Config) : Prop :=
  (∃ vars', runConfig toml libs.parseUrl debug vars path files = .ok (config, vars')) ∧
    ServerStarts libs config

/-! ## `config generate` -/

/-- `generate_config`. -/
def generateCommand (toml : TomlCodec) (vars : EnvVars) (url : Option String)
    (uuids : Option (UuidV4 × UuidV4)) (path : String) (faults : SaveFaults) (files : FileSystem) :
    FileSystem × Except String Unit :=
  match generateConfig vars url uuids with
  | .error e => (files, .error e)
  | .ok config => config.save toml path faults files

/-! ## The wizard -/

/-- A model is added to its provider. -/
def addEnriched (apertureUrl : String) (providers : HashMap String Provider) (model : EnrichedModel) :
    HashMap String Provider :=
  let provider := (providers.get model.providerId).getD {
    name := model.providerId
    baseUrl := apertureUrl
    apiKey := none
    endpointStyle := .anthropic
    models := []
    enabled := true }
  providers.insert model.providerId (
    if model.id ∈ provider.models then provider
    else { provider with models := provider.models ++ [model.id] })

/-- `create_providers_from_models`, with the URL trimmed. -/
def createProvidersFromModels (order : IterOrder String Provider) (models : List EnrichedModel)
    (apertureUrl : String) : List Provider :=
  (order.list (models.foldl (addEnriched apertureUrl) ∅)).map (·.2)

/-- What the user has answered, and the order in which the providers are written. -/
structure WizardAnswers where
  apertureUrl : String
  selectedModels : List EnrichedModel
  apiKey : Option String
  port : UInt16
  order : IterOrder String Provider

namespace WizardAnswers

variable (answers : WizardAnswers)

/-- The URL of the gateway, trimmed. -/
def url : String := String.ofList (Text.trim answers.apertureUrl.toList)

/-- `build_config`. -/
def buildConfig : Config where
  host := "127.0.0.1"
  port := answers.port.toNat
  aperture := { baseUrl := answers.url, apiKey := answers.apiKey }
  providers := createProvidersFromModels answers.order answers.selectedModels answers.url
  security := { requireAuthInProd := false }

end WizardAnswers

/-! ## Configurations that are the same -/

section

variable {libs : Libraries} {toml : TomlCodec} {parse : UrlParser} {debug : Bool} {vars : EnvVars}
  {path : String} {faults : SaveFaults} {files : FileSystem} {c d : Config}

/-- The checks do not look at what has no order. -/
theorem Config.Same.validate_eq (h : c.Same d) : c.validate parse debug = d.validate parse debug := by
  have hordered : ∀ c : Config, c.ordered.validate parse debug = c.validate parse debug := fun _ => rfl
  rw [← hordered c, h.ordered, hordered]

theorem Config.Same.providers_eq (h : c.Same d) : c.providers = d.providers := by
  have hfields := congrArg Config.providers h.ordered
  exact hfields

theorem Config.Same.serverStarts_iff (h : c.Same d) :
    ServerStarts libs c ↔ ServerStarts libs d := by
  have hordered : ∀ c : Config, ServerStarts libs c.ordered ↔ ServerStarts libs c := fun _ => Iff.rfl
  rw [← hordered c, h.ordered, hordered]

theorem Config.Same.envAgrees_iff (h : c.Same d) : EnvAgrees vars c ↔ EnvAgrees vars d := by
  have hhost := congrArg Config.host h.ordered
  have hport := congrArg Config.port h.ordered
  have haperture := congrArg Config.aperture h.ordered
  dsimp only [Config.ordered] at hhost hport haperture
  constructor
  · rintro ⟨h₁, h₂, h₃, h₄⟩
    rw [hhost] at h₁
    rw [hport] at h₂
    rw [haperture] at h₃ h₄
    exact ⟨h₁, h₂, h₃, h₄⟩
  · rintro ⟨h₁, h₂, h₃, h₄⟩
    rw [← hhost] at h₁
    rw [← hport] at h₂
    rw [← haperture] at h₃ h₄
    exact ⟨h₁, h₂, h₃, h₄⟩

/-- The variables leave a file without providers exactly if they agree with it. -/
theorem same_overridden_iff (hproviders : c.providers = []) (h : c.overridden vars = .ok d) :
    d.Same c ↔ EnvAgrees vars c := by
  have htoggled : ∀ c : Config, c.providers = [] → c.toggled "" true = c := by
    intro c hc
    rw [Config.toggled, hc, setEnabled, ← hc]
  have hd : d.providers = [] := by
    obtain ⟨port, -, rfl⟩ := overridden_ok h
    exact hproviders
  have hiff : (d.toggled "" true).Same (c.toggled "" true) ↔ EnvAgrees vars c := same_toggled_iff h
  rwa [htoggled d hd, htoggled c hproviders] at hiff

/-- Variables that agree with the file leave it as it is. -/
theorem overridden_of_agrees (h : EnvAgrees vars c) : c.overridden vars = .ok c := by
  have hport : overriddenPort vars c.port = .ok c.port := by
    unfold overriddenPort
    cases hset : vars "APERTURE_PORT" with
    | none => rfl
    | some text =>
      dsimp only
      rw [h.port text hset]
      rfl
  have hkey : (vars "APERTURE_API_KEY" <|> c.aperture.apiKey) = c.aperture.apiKey := by
    cases hset : vars "APERTURE_API_KEY" with
    | none => rfl
    | some key => exact (h.apiKey key hset).symm
  unfold Config.overridden
  rw [hport, getD_eq_self_iff.mpr h.host, getD_eq_self_iff.mpr h.baseUrl, hkey]
  rfl

/-! ## Servers -/

/-- `Config::validate` makes the check of the authentication as well. -/
theorem auth_of_validate (h : c.validate parse debug = .ok ()) :
    (c.security.requireAuthInProd && c.security.apiKeys.isEmpty && !debug) = false := by
  have hsettings := (Config.bind_ok_iff.mp h).1
  simp only [Config.checkSettings, Config.bind_ok_iff, Config.refuse_ok_iff] at hsettings
  obtain ⟨-, -, -, -, -, -, -, -, -, -, -, -, -, -, -, -, -, -, -, -, -, -, hauth⟩ := hsettings
  exact hauth

/-- So nothing is left for the check of `run_server` to refuse. -/
theorem runConfig_iff {vars' : EnvVars}
    (hvalid : ∀ d v, readConfig toml parse debug vars path files = .ok (d, v) →
      d.validate parse debug = .ok ()) :
    runConfig toml parse debug vars path files = .ok (d, vars') ↔
      readConfig toml parse debug vars path files = .ok (d, vars') := by
  unfold runConfig
  constructor
  · intro h
    obtain ⟨⟨d', v⟩, hread, h⟩ := Config.bind_eq_ok.mp h
    obtain ⟨u, -, h⟩ := Config.bind_eq_ok.mp h
    rw [hread, ← Except.ok.inj h]
  · intro hread
    have hauth := auth_of_validate (hvalid d vars' hread)
    rw [hread]
    refine Config.bind_eq_ok.mpr ⟨_, rfl, Config.bind_eq_ok.mpr ⟨(), ?_, rfl⟩⟩
    exact Config.refuse_ok_iff.mpr hauth

/-- A server with a file that reads as `c`. -/
theorem runConfig_file_iff {text : String} (hread : readToString files path = .ok text)
    (hfile : toml.fromStr text = .ok c) {vars' : EnvVars} :
    runConfig toml parse debug vars path files = .ok (d, vars') ↔
      c.overridden vars = .ok d ∧ d.validate parse debug = .ok () ∧
        Function.update vars "APERTURE_API_KEY" none = vars' := by
  have hsome : (files path).isSome = true := by
    unfold readToString at hread
    cases hpath : files path with
    | none =>
      rw [hpath] at hread
      cases hread
    | some content => rfl
  have hload : readConfig toml parse debug vars path files =
      Config.load toml parse debug vars path files := if_pos hsome
  rw [runConfig_iff, hload, load_ok_iff hread hfile]
  intro d v h
  rw [hload, load_ok_iff hread hfile] at h
  exact h.2.1

/-- A server of the environment alone. -/
theorem runConfig_env_iff (hnone : files path = none) {baseUrl : String}
    (hbase : vars "APERTURE_BASE_URL" = some baseUrl) :
    (∃ vars', runConfig toml parse debug vars path files = .ok (d, vars')) ↔
      d = envConfig vars baseUrl ∧ d.validate parse debug = .ok () := by
  have henv : ∀ d v, readConfig toml parse debug vars path files = .ok (d, v) ↔
      (envConfig vars baseUrl).validate parse debug = .ok () ∧ envConfig vars baseUrl = d ∧
        Function.update (Function.update vars "APERTURE_API_KEY" none) "APERTURE_CLIENT_API_KEYS" none =
          v := by
    intro d v
    unfold readConfig
    rw [hnone, hbase, if_neg (by decide)]
    simp only [Config.bind_eq_ok, Config.mapError_eq_ok]
    constructor
    · rintro ⟨u, hvalid, h⟩
      obtain ⟨rfl, rfl⟩ := Prod.mk.inj (Except.ok.inj h)
      exact ⟨hvalid, rfl, rfl⟩
    · rintro ⟨hvalid, rfl, rfl⟩
      exact ⟨(), hvalid, rfl⟩
  have hrun : ∀ v, runConfig toml parse debug vars path files = .ok (d, v) ↔
      readConfig toml parse debug vars path files = .ok (d, v) := by
    intro v
    refine runConfig_iff fun d v h => ?_
    obtain ⟨hvalid, rfl, -⟩ := (henv d v).mp h
    exact hvalid
  simp only [hrun, henv]
  constructor
  · rintro ⟨v, hvalid, rfl, -⟩
    exact ⟨rfl, hvalid⟩
  · rintro ⟨rfl, hvalid⟩
    exact ⟨_, hvalid, rfl, rfl⟩

/-- The gateway key stays in a private network, or is sent over TLS. -/
def KeyGuarded (libs : Libraries) (aperture : ApertureConfig) : Prop :=
  aperture.apiKey = none ∨ Config.startsWith aperture.baseUrl "https://" = true ∨
    leadsToPrivateHost libs.parseUrl aperture.baseUrl = true

/-- A server on the local host, with the defaults of the rest. -/
theorem starts_local_iff (hlibs : libs.WorksAsDocumented) (hhost : c.host = "127.0.0.1")
    (hport : c.port < 65536)
    (hrefresh : c.aperture.modelRefreshIntervalSecs = ({} : ApertureConfig).modelRefreshIntervalSecs)
    (hcors : c.cors = {}) : ServerStarts libs c ↔ KeyGuarded libs c.aperture := by
  rw [ServerStarts, serverAddr_ok_iff hport, createRouter_ok_iff, newProxyClient_ok_iff hlibs,
    createCorsLayer_ok_iff hlibs, hhost, hrefresh, hcors]
  constructor
  · rintro ⟨-, hkey, -⟩
    exact hkey
  · intro hkey
    exact ⟨by decide +kernel, hkey, by decide, .inl (by decide)⟩

/-! ## Generated files -/

/-- What the variables must be for a server of the environment alone. -/
structure EnvValid (debug : Bool) (vars : EnvVars) (baseUrl : String) : Prop where
  baseUrl : baseUrl ≠ ""
  gatewayKey : GatewayKeyAccepted vars
  clientKeys : ∀ key ∈ envClientKeys vars, Config.checkKey "API key" key = .ok ()
  auth : envClientKeys vars ≠ [] ∨ (vars "APERTURE_ALLOW_NO_AUTH").isSome = true ∨ debug = true

/-- The same check of all keys. -/
theorem forM_ok_iff {check : String → Except String Unit} {keys : List String} :
    keys.forM check = .ok () ↔ ∀ key ∈ keys, check key = .ok () := by
  induction keys with
  | nil => exact iff_of_true rfl fun _ h => absurd h List.not_mem_nil
  | cons key keys ih =>
    have hcons : (key :: keys).forM check = (check key >>= fun _ => keys.forM check) := rfl
    rw [hcons, Config.bind_ok_iff, ih, List.forall_mem_cons]

/-- A key that is strong enough is no placeholder. -/
theorem ne_placeholder {what key : String} (h : Config.checkKey what key = .ok ()) :
    key ≠ "your-api-key-here" := by
  rintro rfl
  have hlength := (Config.bind_ok_iff.mp h).1
  rw [Config.refuse_ok_iff] at hlength
  exact absurd hlength (by decide)

/-- The gateway key of the environment, without the empty one. -/
theorem gatewayKey_iff : (((vars "APERTURE_API_KEY").filter (· ≠ "")).any fun key =>
    Config.containsText key "your-api-key-here" || key == "") = false ↔ GatewayKeyAccepted vars := by
  unfold GatewayKeyAccepted
  cases vars "APERTURE_API_KEY" with
  | none => simp
  | some key =>
    by_cases hempty : key = ""
    · subst hempty
      exact iff_of_true (by decide) (by simpa using (by decide))
    · simp [hempty]

theorem validate_envConfig (parse : UrlParser) (baseUrl : String) :
    (envConfig vars baseUrl).validate parse debug = .ok () ↔ EnvValid debug vars baseUrl := by
  have hauth : ((vars "APERTURE_ALLOW_NO_AUTH").isNone && (envClientKeys vars).isEmpty && !debug) = false ↔
      envClientKeys vars ≠ [] ∨ (vars "APERTURE_ALLOW_NO_AUTH").isSome = true ∨ debug = true := by
    cases vars "APERTURE_ALLOW_NO_AUTH" <;> cases envClientKeys vars <;> cases debug <;> simp
  have hvalidate : (envConfig vars baseUrl).validate parse debug = .ok () ↔
      baseUrl ≠ "" ∧ GatewayKeyAccepted vars ∧
        (∀ key ∈ envClientKeys vars, Config.checkKey "API key" key = .ok ()) ∧
        "your-api-key-here" ∉ envClientKeys vars ∧
        ((vars "APERTURE_ALLOW_NO_AUTH").isNone && (envClientKeys vars).isEmpty && !debug) = false := by
    rw [← gatewayKey_iff, ← forM_ok_iff]
    simp only [Config.validate, Config.checkSettings, Config.bind_ok_iff, Config.refuse_ok_iff]
    have hdone : (pure PUnit.unit : Except String PUnit) = .ok () := rfl
    simp [envConfig, Config.checkProviders, hdone]
  rw [hvalidate, hauth]
  constructor
  · rintro ⟨hbase, hgateway, hstrong, -, hauth⟩
    exact ⟨hbase, hgateway, hstrong, hauth⟩
  · rintro ⟨hbase, hgateway, hstrong, hauth⟩
    exact ⟨hbase, hgateway, hstrong, fun hmem => ne_placeholder (hstrong _ hmem) rfl, hauth⟩

theorem starts_envConfig (hlibs : libs.WorksAsDocumented) (baseUrl : String) :
    ServerStarts libs (envConfig vars baseUrl) ↔ KeyGuarded libs (envConfig vars baseUrl).aperture :=
  starts_local_iff hlibs rfl (show 8765 < 65536 by decide) rfl rfl

/-- **Generated files.** After `config generate`, a server with the file starts with the configuration of the
server of the environment alone, exactly if that one starts and the variables that only a file is subject to
agree with it. -/
theorem generated_runs_alike_iff (hlibs : libs.WorksAsDocumented) (hround : toml.RoundTrips)
    (hnone : files path = none) {baseUrl : String} (hbase : vars "APERTURE_BASE_URL" = some baseUrl)
    (hsaved : (generateCommand toml vars none none path faults files).2 = .ok ()) :
    (∃ c d, Runs libs toml debug vars path files c ∧
      Runs libs toml debug vars path (generateCommand toml vars none none path faults files).1 d ∧
      d.Same c) ↔
      EnvValid debug vars baseUrl ∧ KeyGuarded libs (envConfig vars baseUrl).aperture ∧
        EnvAgrees vars (envConfig vars baseUrl) := by
  have hcommand : generateCommand toml vars none none path faults files =
      (envConfig vars baseUrl).save toml path faults files := by
    unfold generateCommand generateConfig
    rw [hbase]
    rfl
  rw [hcommand] at hsaved ⊢
  obtain ⟨text, htext, hfiles⟩ := save_ok hsaved
  obtain ⟨file, hfile, hsame⟩ := hround _ _ htext
  rw [hfiles, ← validate_envConfig libs.parseUrl,
    ← starts_envConfig hlibs]
  have hread : readToString (Function.update files path (some text.toUTF8)) path = .ok text :=
    readToString_update files path text
  constructor
  · rintro ⟨c, d, ⟨henv, hstarts⟩, ⟨⟨w, hrun⟩, -⟩, hdc⟩
    obtain ⟨rfl, hvalid⟩ := (runConfig_env_iff hnone hbase).mp henv
    obtain ⟨hd, -, -⟩ := (runConfig_file_iff hread hfile).mp hrun
    have hproviders : file.providers = [] := hsame.providers_eq
    refine ⟨hvalid, hstarts, hsame.envAgrees_iff.mp ((same_overridden_iff hproviders hd).mp ?_)⟩
    exact hdc.trans hsame.symm
  · rintro ⟨hvalid, hstarts, hagrees⟩
    have hloaded : runConfig toml libs.parseUrl debug vars path
        (Function.update files path (some text.toUTF8)) =
          .ok (file, Function.update vars "APERTURE_API_KEY" none) := by
      refine (runConfig_file_iff hread hfile).mpr ⟨?_, ?_, rfl⟩
      · exact overridden_of_agrees (hsame.envAgrees_iff.mpr hagrees)
      · rw [hsame.validate_eq]
        exact hvalid
    exact ⟨_, file, ⟨(runConfig_env_iff hnone hbase).mpr ⟨rfl, hvalid⟩, hstarts⟩,
      ⟨⟨_, hloaded⟩, hsame.serverStarts_iff.mpr hstarts⟩, hsame⟩

/-! ## The file of the wizard -/

/-- Providers are accepted if each is, and no two have one name. -/
theorem checkProviders_ok_iff {seen : List String} {providers : List Provider} :
    Config.checkProviders parse seen providers = .ok () ↔
      (providers.map (·.name)).Nodup ∧ ∀ p ∈ providers, p.name ∉ seen ∧
        Config.checkProvider parse [] p = .ok () := by
  induction providers generalizing seen with
  | nil => exact iff_of_true rfl ⟨.nil, fun _ h => absurd h List.not_mem_nil⟩
  | cons provider providers ih =>
    rw [Config.checkProviders, Config.bind_ok_iff, ih, List.map_cons, List.nodup_cons,
      List.forall_mem_cons, Config.checkProvider_ok_iff, Config.checkProvider_ok_iff]
    simp only [List.mem_cons, not_or, List.mem_map, not_exists, not_and]
    constructor
    · rintro ⟨⟨⟨hname, hseen, hrest⟩, hblocked⟩, hnodup, hall⟩
      refine ⟨⟨fun p hp heq => (hall p hp).1.1 heq, hnodup⟩, ⟨hseen, ?_, hblocked⟩, ?_⟩
      · exact ⟨hname, List.not_mem_nil, hrest⟩
      · exact fun p hp => ⟨(hall p hp).1.2, (hall p hp).2⟩
    · rintro ⟨⟨hnew, hnodup⟩, ⟨hseen, ⟨hname, -, hrest⟩, hblocked⟩, hall⟩
      refine ⟨⟨⟨hname, hseen, hrest⟩, hblocked⟩, hnodup, fun p hp => ?_⟩
      exact ⟨⟨hnew p hp, (hall p hp).1⟩, (hall p hp).2⟩

/-- The providers of the wizard: each has its name, the URL and a model. -/
def Grouped (apertureUrl : String) (providers : HashMap String Provider) : Prop :=
  ∀ name p, providers.get name = some p → p.name = name ∧ p.baseUrl = apertureUrl ∧ p.models ≠ []

theorem Grouped.addEnriched {apertureUrl : String} {providers : HashMap String Provider}
    (h : Grouped apertureUrl providers) (model : EnrichedModel) :
    Grouped apertureUrl (addEnriched apertureUrl providers model) := by
  intro name p hget
  unfold ApertureRouter.addEnriched at hget
  rw [HashMap.get_insert] at hget
  split at hget
  · rename_i hname
    subst hname
    have hown : ∀ provider : Provider,
        provider.name = model.providerId → provider.baseUrl = apertureUrl →
        (if model.id ∈ provider.models then provider
          else { provider with models := provider.models ++ [model.id] }) = p →
        p.name = model.providerId ∧ p.baseUrl = apertureUrl ∧ p.models ≠ [] := by
      intro provider hname hurl hp
      split at hp
      · rename_i hmem
        rw [← hp]
        exact ⟨hname, hurl, List.ne_nil_of_mem hmem⟩
      · rw [← hp]
        exact ⟨hname, hurl, by simp⟩
    refine hown _ ?_ ?_ (Option.some.inj hget)
    · cases hold : providers.get model.providerId with
      | none => rfl
      | some provider => exact (h _ _ hold).1
    · cases hold : providers.get model.providerId with
      | none => rfl
      | some provider => exact (h _ _ hold).2.1
  · exact h name p hget

theorem grouped_foldl (apertureUrl : String) (models : List EnrichedModel)
    {providers : HashMap String Provider} (h : Grouped apertureUrl providers) :
    Grouped apertureUrl (models.foldl (addEnriched apertureUrl) providers) ∧
      ∀ name, name ∈ models.foldl (addEnriched apertureUrl) providers ↔
        name ∈ providers ∨ ∃ model ∈ models, model.providerId = name := by
  induction models generalizing providers with
  | nil => exact ⟨h, by simp⟩
  | cons model models ih =>
    obtain ⟨hgrouped, hnames⟩ := ih (h.addEnriched model)
    refine ⟨hgrouped, fun name => ?_⟩
    rw [List.foldl_cons, hnames, addEnriched, HashMap.mem_insert]
    constructor
    · rintro ((rfl | hold) | ⟨other, hother, hname⟩)
      · exact .inr ⟨model, List.mem_cons_self, rfl⟩
      · exact .inl hold
      · exact .inr ⟨other, List.mem_cons_of_mem _ hother, hname⟩
    · rintro (hold | ⟨other, hother, hname⟩)
      · exact .inl (.inr hold)
      · rcases List.mem_cons.mp hother with rfl | hother
        · exact .inl (.inl hname.symm)
        · exact .inr ⟨other, hother, hname⟩

/-- The providers that are written, whatever their order. -/
theorem mem_createProviders {order : IterOrder String Provider} {models : List EnrichedModel}
    {apertureUrl : String} {p : Provider} :
    p ∈ createProvidersFromModels order models apertureUrl ↔
      ∃ name, (models.foldl (addEnriched apertureUrl) ∅).get name = some p := by
  rw [createProvidersFromModels, List.mem_map]
  constructor
  · rintro ⟨⟨name, _⟩, hmem, rfl⟩
    exact ⟨name, order.mem_list.mp hmem⟩
  · rintro ⟨name, hget⟩
    exact ⟨⟨name, p⟩, order.mem_list.mpr hget, rfl⟩

theorem grouped_created (models : List EnrichedModel) (apertureUrl : String) :
    Grouped apertureUrl (models.foldl (addEnriched apertureUrl) ∅) ∧
      ∀ name, name ∈ models.foldl (addEnriched apertureUrl) ∅ ↔
        ∃ model ∈ models, model.providerId = name := by
  have hempty : Grouped apertureUrl ∅ := fun _ _ h => nomatch h
  obtain ⟨hgrouped, hnames⟩ := grouped_foldl apertureUrl models hempty
  refine ⟨hgrouped, fun name => (hnames name).trans (or_iff_right ?_)⟩
  exact AList.notMem_empty name

/-- No two providers have one name, since each is under its own. -/
theorem createProviders_nodup (order : IterOrder String Provider) (models : List EnrichedModel)
    (apertureUrl : String) :
    ((createProvidersFromModels order models apertureUrl).map (·.name)).Nodup := by
  obtain ⟨hgrouped, -⟩ := grouped_created models apertureUrl
  have hkeys : (createProvidersFromModels order models apertureUrl).map (·.name) =
      (order.list (models.foldl (addEnriched apertureUrl) ∅)).keys := by
    rw [createProvidersFromModels, List.map_map, List.keys]
    refine List.map_congr_left ?_
    rintro ⟨name, p⟩ hmem
    exact (hgrouped name p (order.mem_list.mp hmem)).1
  rw [hkeys]
  have hperm := (order.perm (models.foldl (addEnriched apertureUrl) ∅)).map Sigma.fst
  exact hperm.nodup_iff.mpr (models.foldl (addEnriched apertureUrl) ∅).nodupKeys

/-- The configuration of the wizard is valid if the gateway is one that the checks of providers take. -/
structure WizardValid (parse : UrlParser) (answers : WizardAnswers) : Prop where
  port : answers.port ≠ 0
  url : answers.url ≠ ""
  apiKey : ∀ key ∈ answers.apiKey, key ≠ "" ∧ Config.containsText key "your-api-key-here" = false
  named : ∀ model ∈ answers.selectedModels, model.providerId ≠ ""
  provider : answers.selectedModels ≠ [] →
    (Config.startsWith answers.url "http://" = true ∨ Config.startsWith answers.url "https://" = true) ∧
      Config.blockedBaseUrl parse answers.url = false

theorem checkProviders_wizard (answers : WizardAnswers) (hurl : answers.url ≠ "") :
    Config.checkProviders parse [] answers.buildConfig.providers = .ok () ↔
      (∀ model ∈ answers.selectedModels, model.providerId ≠ "") ∧
        (answers.selectedModels ≠ [] →
          (Config.startsWith answers.url "http://" = true ∨
            Config.startsWith answers.url "https://" = true) ∧
          Config.blockedBaseUrl parse answers.url = false) := by
  obtain ⟨hgrouped, hnames⟩ := grouped_created answers.selectedModels answers.url
  rw [checkProviders_ok_iff]
  simp only [Config.checkProvider_ok_iff]
  constructor
  · rintro ⟨-, hall⟩
    have hmodel : ∀ model ∈ answers.selectedModels, model.providerId ≠ "" ∧
        (Config.startsWith answers.url "http://" = true ∨
          Config.startsWith answers.url "https://" = true) ∧
        Config.blockedBaseUrl parse answers.url = false := by
      intro model hmem
      obtain ⟨p, hp⟩ := HashMap.mem_iff_get.mp ((hnames _).mpr ⟨model, hmem, rfl⟩)
      obtain ⟨-, ⟨hname, -, -, -, hscheme⟩, hblocked⟩ := hall p (mem_createProviders.mpr ⟨_, hp⟩)
      obtain ⟨hown, hbase, -⟩ := hgrouped _ _ hp
      rw [hown] at hname
      rw [hbase] at hscheme hblocked
      exact ⟨hname, hscheme, hblocked⟩
    refine ⟨fun model hmem => (hmodel model hmem).1, fun hne => ?_⟩
    obtain ⟨model, hmem⟩ := List.exists_mem_of_ne_nil _ hne
    exact (hmodel model hmem).2
  · rintro ⟨hnamed, hgateway⟩
    refine ⟨createProviders_nodup .., fun p hp => ?_⟩
    obtain ⟨name, hget⟩ := mem_createProviders.mp hp
    obtain ⟨hown, hbase, hmodels⟩ := hgrouped _ _ hget
    obtain ⟨model, hmem, rfl⟩ := (hnames name).mp (HashMap.mem_iff_get.mpr ⟨p, hget⟩)
    obtain ⟨hscheme, hblocked⟩ := hgateway (List.ne_nil_of_mem hmem)
    rw [hown, hbase]
    exact ⟨List.not_mem_nil, ⟨hnamed model hmem, List.not_mem_nil, hurl, hmodels, hscheme⟩, hblocked⟩

theorem validate_buildConfig (debug : Bool) (answers : WizardAnswers) :
    answers.buildConfig.validate parse debug = .ok () ↔ WizardValid parse answers := by
  have hsettings : Config.checkSettings debug answers.buildConfig = .ok () ↔
      answers.port ≠ 0 ∧ answers.url ≠ "" ∧
        ∀ key ∈ answers.apiKey, key ≠ "" ∧ Config.containsText key "your-api-key-here" = false := by
    simp only [Config.checkSettings, Config.bind_ok_iff, Config.refuse_ok_iff]
    have hdone : (pure PUnit.unit : Except String PUnit) = .ok () := rfl
    have hkey : (answers.apiKey.any fun key =>
        Config.containsText key "your-api-key-here" || key == "") = false ↔
        ∀ key ∈ answers.apiKey, key ≠ "" ∧ Config.containsText key "your-api-key-here" = false := by
      cases answers.apiKey <;> simp [and_comm]
    have hport : answers.port.toNat ≠ 0 ↔ answers.port ≠ 0 := not_congr (UInt16.toNat_inj (b := 0))
    rw [← hkey, ← hport]
    simp [WizardAnswers.buildConfig, hdone]
  rw [Config.validate, Config.bind_ok_iff, hsettings]
  constructor
  · rintro ⟨⟨hport, hurl, hkey⟩, hproviders⟩
    obtain ⟨hnamed, hgateway⟩ := (checkProviders_wizard answers hurl).mp hproviders
    exact ⟨hport, hurl, hkey, hnamed, hgateway⟩
  · rintro ⟨hport, hurl, hkey, hnamed, hgateway⟩
    exact ⟨⟨hport, hurl, hkey⟩, (checkProviders_wizard answers hurl).mpr ⟨hnamed, hgateway⟩⟩

theorem starts_buildConfig (hlibs : libs.WorksAsDocumented) (answers : WizardAnswers) :
    ServerStarts libs answers.buildConfig ↔ KeyGuarded libs answers.buildConfig.aperture :=
  starts_local_iff hlibs rfl answers.port.toNat_lt rfl rfl

/-- **The file of the wizard.** In an environment without variables of its own, a server starts with the
configuration that was confirmed exactly if the checks take it. -/
theorem wizard_runs_iff (hlibs : libs.WorksAsDocumented) (hround : toml.RoundTrips)
    (answers : WizardAnswers)
    (hunset : ∀ name ∈ ["APERTURE_HOST", "APERTURE_PORT", "APERTURE_BASE_URL", "APERTURE_API_KEY"],
      vars name = none)
    (hsaved : (answers.buildConfig.save toml path faults files).2 = .ok ()) :
    (∃ d, Runs libs toml debug vars path (answers.buildConfig.save toml path faults files).1 d ∧
        d.Same answers.buildConfig) ↔
      WizardValid libs.parseUrl answers ∧ KeyGuarded libs answers.buildConfig.aperture := by
  obtain ⟨text, htext, hfiles⟩ := save_ok hsaved
  obtain ⟨file, hfile, hsame⟩ := hround _ _ htext
  rw [hfiles, ← validate_buildConfig debug, ← starts_buildConfig hlibs]
  have hread : readToString (Function.update files path (some text.toUTF8)) path = .ok text :=
    readToString_update files path text
  have hagrees : EnvAgrees vars file := by
    constructor
    all_goals
      intro value hset
      rw [hunset _ (by decide)] at hset
      cases hset
  constructor
  · rintro ⟨d, ⟨⟨w, hrun⟩, hstarts⟩, hdc⟩
    obtain ⟨-, hvalid, -⟩ := (runConfig_file_iff hread hfile).mp hrun
    rw [← hdc.validate_eq]
    exact ⟨hvalid, hdc.serverStarts_iff.mp hstarts⟩
  · rintro ⟨hvalid, hstarts⟩
    have hloaded : runConfig toml libs.parseUrl debug vars path
        (Function.update files path (some text.toUTF8)) =
          .ok (file, Function.update vars "APERTURE_API_KEY" none) := by
      refine (runConfig_file_iff hread hfile).mpr ⟨overridden_of_agrees hagrees, ?_, rfl⟩
      rw [hsame.validate_eq]
      exact hvalid
    exact ⟨file, ⟨⟨_, hloaded⟩, hsame.serverStarts_iff.mpr hstarts⟩, hsame⟩

end

/-! ## Two set-ups -/

/-- A file with the defaults, the gateway and no key. `values` and `tables` tell of the providers. -/
def gatewayToml (baseUrl : String) (values tables : List String) : String :=
  tomlLines (["host = \"127.0.0.1\"", "port = 8765", "multi_provider_enabled = false"] ++ values ++ ["",
    "[aperture]", "base_url = \"" ++ baseUrl ++ "\"", "model_refresh_interval_secs = 300", "", "[http]",
    "connect_timeout_secs = 10", "request_timeout_secs = 300", "sse_keep_alive_secs = 15",
    "upstream_retry_attempts = 2", "upstream_retry_base_delay_ms = 2000", "", "[cors]",
    "allowed_origins = [\"http://localhost:3000\"]", "trusted_proxies = []", "", "[rate_limit]",
    "requests_per_second = 10", "burst_size = 30", "health_requests_per_second = 20",
    "health_burst_size = 50", "", "[security]", "api_keys = []", "admin_api_keys = []",
    "max_body_size_bytes = 10485760", "max_auth_attempts = 5", "auth_window_secs = 60",
    "ban_duration_secs = 300", "require_auth_in_prod = false", "max_json_depth = 256",
    "max_streaming_size_bytes = 104857600", "max_messages = 10000", "", "[model_aliases]"] ++ tables)

/-- The codec on the file of a configuration. -/
def gatewayCodec (text : String) (config : Config) : TomlCodec := twoTextCodec "" text {} config

/-- Nothing is on the disk. -/
theorem gatewayCodec_saves (text : String) (config : Config) :
    (config.save (gatewayCodec text config) "config.toml" {} fun _ => none).2 = .ok () :=
  save_faultless.mpr ⟨⟨text, if_pos rfl⟩, rfl⟩

/-- The variables of the quick start. -/
def quickStartVars (name : String) : Option String :=
  if name = "APERTURE_BASE_URL" then some "http://localhost:8080"
  else if name = "APERTURE_ALLOW_NO_AUTH" then some "1"
  else none

def quickStartCodec : TomlCodec :=
  gatewayCodec (gatewayToml "http://localhost:8080" ["providers = []"] [])
    (envConfig quickStartVars "http://localhost:8080")

theorem generated_runs_alike_iff_quickStart :
    (∃ c d, Runs localLibraries quickStartCodec false quickStartVars "config.toml" (fun _ => none) c ∧
      Runs localLibraries quickStartCodec false quickStartVars "config.toml"
        (generateCommand quickStartCodec quickStartVars none none "config.toml" {} fun _ => none).1 d ∧
      d.Same c) ↔
      EnvValid false quickStartVars "http://localhost:8080" ∧
        KeyGuarded localLibraries (envConfig quickStartVars "http://localhost:8080").aperture ∧
        EnvAgrees quickStartVars (envConfig quickStartVars "http://localhost:8080") :=
  generated_runs_alike_iff localLibraries_work (twoTextCodec_roundTrips _ _ _ _) rfl rfl
    (gatewayCodec_saves _ _)

/-- `Url::parse` of a private address. -/
def privateUrls (text : String) : Except String ParsedUrl :=
  if text = "http://192.168.1.20" then .ok ⟨"http", some (.v4 ⟨192, 168, 1, 20⟩)⟩
  else .error "relative URL without a base"

def privateLibraries : Libraries := { localLibraries with parseUrl := privateUrls }

def privateAnswers : WizardAnswers where
  apertureUrl := "http://192.168.1.20"
  selectedModels := [⟨"glm-5.1", "zai", "glm-5.1", "GLM 5.1"⟩]
  apiKey := none
  port := 8765
  order := .entries

def privateCodec : TomlCodec :=
  gatewayCodec (gatewayToml "http://192.168.1.20" [] ["", "[[providers]]", "name = \"zai\"",
    "base_url = \"http://192.168.1.20\"", "endpoint_style = \"anthropic\"", "models = [\"glm-5.1\"]",
    "enabled = true"]) privateAnswers.buildConfig

/-- The wizard takes a private gateway, and the server does not start with its file. -/
theorem wizard_runs_iff_privateGateway :
    validateUrl privateUrls privateAnswers.apertureUrl =
      .ok ⟨"http", some (.v4 ⟨192, 168, 1, 20⟩)⟩ ∧
    ¬ ∃ d, Runs privateLibraries privateCodec false (fun _ => none) "config.toml"
        (privateAnswers.buildConfig.save privateCodec "config.toml" {} fun _ => none).1 d ∧
      d.Same privateAnswers.buildConfig := by
  have hwork : privateLibraries.WorksAsDocumented := ⟨fun _ h => h, fun _ _ => rfl⟩
  refine ⟨by rfl, fun hruns => ?_⟩
  obtain ⟨hvalid, -⟩ := (wizard_runs_iff hwork (twoTextCodec_roundTrips _ _ _ _) privateAnswers
    (fun _ _ => rfl) (gatewayCodec_saves _ _)).mp hruns
  have hblocked := (hvalid.provider (List.cons_ne_nil _ _)).2
  exact absurd hblocked (by decide +kernel)

end ApertureRouter
