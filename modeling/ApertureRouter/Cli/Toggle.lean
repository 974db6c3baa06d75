import ApertureRouter.ConfigFile

/-!
# Switching a provider

`config enable` and `config disable` load the configuration, set the flag of a provider and save
(`toggle_provider`, `src/cli/commands.rs`). What is saved has the variables of the environment in it, a
key among them.

* `Config.Same`: one configuration, whatever the order of its sets and maps.
* `toggleProvider_ok`: what a call that succeeds has written.
* `toggle_frame_iff`: only the flag has changed exactly if each variable is what the file has.
* `gatewayKey_saved`: a key of the environment that ends up in the file.
-/

namespace ApertureRouter

/-- The first provider of the name is switched. -/
def setEnabled (name : String) (enable : Bool) : List Provider → List Provider
  | [] => []
  | provider :: providers =>
    if provider.name == name then { provider with enabled := enable } :: providers
    else provider :: setEnabled name enable providers

/-- The configuration with the provider switched. -/
def Config.toggled (name : String) (enable : Bool) (config : Config) : Config :=
  { config with providers := setEnabled name enable config.providers }

section

variable (toml : TomlCodec) (parse : UrlParser) (debug : Bool) (vars : EnvVars) (path name : String)
  (enable : Bool) (faults : SaveFaults) (files : FileSystem)

/-- `toggle_provider`. -/
def toggleProvider : FileSystem × Except String Unit :=
  match Config.load toml parse debug vars path files with
  | .error e => (files, .error e)
  | .ok (config, _) =>
    if config.providers.any (·.name == name) then
      (config.toggled name enable).save toml path faults files
    else
      (files, .error ("Provider '" ++ name ++ "' not found. Available: " ++
        ", ".intercalate (config.providers.map (·.name))))

end

/-! ## One configuration -/

/-- The configuration without what has no order. -/
def Config.ordered (config : Config) : Config :=
  { config with cors := { config.cors with trustedProxies := [] }, modelAliases := ∅ }

/-- The same values, the trusted proxies as a set and the aliases as a map. -/
structure Config.Same (c d : Config) : Prop where
  trustedProxies : ∀ ip, ip ∈ c.cors.trustedProxies ↔ ip ∈ d.cors.trustedProxies
  modelAliases : ∀ model, c.modelAliases.get model = d.modelAliases.get model
  ordered : c.ordered = d.ordered

theorem Config.Same.refl (c : Config) : c.Same c := ⟨fun _ => Iff.rfl, fun _ => rfl, rfl⟩

theorem Config.Same.symm {c d : Config} (h : c.Same d) : d.Same c :=
  ⟨fun ip => (h.trustedProxies ip).symm, fun m => (h.modelAliases m).symm, h.ordered.symm⟩

theorem Config.Same.trans {c d e : Config} (h : c.Same d) (h' : d.Same e) : c.Same e :=
  ⟨fun ip => (h.trustedProxies ip).trans (h'.trustedProxies ip),
    fun m => (h.modelAliases m).trans (h'.modelAliases m), h.ordered.trans h'.ordered⟩

/-- What is written reads as the same configuration. -/
def TomlCodec.RoundTrips (toml : TomlCodec) : Prop :=
  ∀ config text, toml.toStringPretty config = .ok text →
    ∃ config', toml.fromStr text = .ok config' ∧ config'.Same config

/-! ## What is written -/

/-- Each variable that is set has the value of the file. -/
structure EnvAgrees (vars : EnvVars) (file : Config) : Prop where
  host : ∀ host ∈ vars "APERTURE_HOST", host = file.host
  port : ∀ port ∈ vars "APERTURE_PORT", Text.parseUint 65536 port.toList = .ok file.port
  baseUrl : ∀ baseUrl ∈ vars "APERTURE_BASE_URL", baseUrl = file.aperture.baseUrl
  apiKey : ∀ apiKey ∈ vars "APERTURE_API_KEY", file.aperture.apiKey = some apiKey

section

variable {toml : TomlCodec} {parse : UrlParser} {debug : Bool} {vars : EnvVars} {path name : String}
  {enable : Bool} {faults : SaveFaults} {files : FileSystem} {text : String} {file : Config}

theorem overridden_ok {config : Config} (h : file.overridden vars = .ok config) :
    ∃ port, overriddenPort vars file.port = .ok port ∧ config = { file with
      host := (vars "APERTURE_HOST").getD file.host
      port := port
      aperture := { file.aperture with
        baseUrl := (vars "APERTURE_BASE_URL").getD file.aperture.baseUrl
        apiKey := vars "APERTURE_API_KEY" <|> file.aperture.apiKey } } := by
  obtain ⟨port, hport, hconfig⟩ := Config.bind_eq_ok.mp h
  exact ⟨port, hport, (Except.ok.inj hconfig).symm⟩

/-- What is loaded is the file with the variables in it. -/
theorem load_ok_iff (hread : readToString files path = .ok text)
    (hfile : toml.fromStr text = .ok file) {config : Config} {vars' : EnvVars} :
    Config.load toml parse debug vars path files = .ok (config, vars') ↔
      file.overridden vars = .ok config ∧ config.validate parse debug = .ok () ∧
        Function.update vars "APERTURE_API_KEY" none = vars' := by
  unfold Config.load
  simp only [Config.bind_eq_ok, Config.mapError_eq_ok]
  constructor
  · rintro ⟨text', hread', file', hfile', loaded, hconfig, u, hvalid, hloaded⟩
    rw [hread] at hread'
    cases hread'
    rw [hfile] at hfile'
    cases hfile'
    cases hloaded
    exact ⟨hconfig, hvalid, rfl⟩
  · rintro ⟨hconfig, hvalid, rfl⟩
    exact ⟨text, hread, file, hfile, config, hconfig, (), hvalid, rfl⟩

/-- What a call that succeeds has written. -/
theorem toggleProvider_ok (hround : toml.RoundTrips) (hread : readToString files path = .ok text)
    (hfile : toml.fromStr text = .ok file)
    (h : (toggleProvider toml parse debug vars path name enable faults files).2 = .ok ()) :
    ∃ config text' file', file.overridden vars = .ok config ∧
      readToString (toggleProvider toml parse debug vars path name enable faults files).1 path =
        .ok text' ∧
      toml.fromStr text' = .ok file' ∧ file'.Same (config.toggled name enable) := by
  unfold toggleProvider at h ⊢
  cases hload : Config.load toml parse debug vars path files with
  | error e =>
    rw [hload] at h
    cases h
  | ok loaded =>
    obtain ⟨config, vars'⟩ := loaded
    rw [hload] at h
    dsimp only at h ⊢
    split at h
    · next hfound =>
      rw [if_pos hfound]
      obtain ⟨text', htext, hfiles⟩ := save_ok h
      obtain ⟨file', hfile', hsame⟩ := hround _ _ htext
      rw [hfiles]
      exact ⟨config, text', file', ((load_ok_iff hread hfile).mp hload).1, readToString_update _ _ _,
        hfile', hsame⟩
    · cases h

theorem getD_eq_self_iff {α : Type} {value : Option α} {own : α} :
    value.getD own = own ↔ ∀ a ∈ value, a = own := by
  cases value <;> simp

theorem overriddenPort_eq_iff {own port : Nat} (h : overriddenPort vars own = .ok port) :
    port = own ↔ ∀ text ∈ vars "APERTURE_PORT", Text.parseUint 65536 text.toList = .ok own := by
  unfold overriddenPort at h
  cases hset : vars "APERTURE_PORT" with
  | none =>
    rw [hset] at h
    cases h
    simp
  | some text =>
    rw [hset] at h
    dsimp only at h
    cases hparse : Text.parseUint 65536 text.toList with
    | error e =>
      rw [hparse] at h
      cases h
    | ok parsed =>
      rw [hparse] at h
      cases h
      simp [hparse]

/-- The variables leave the file's values exactly if they agree with them. -/
theorem same_toggled_iff {config : Config} (h : file.overridden vars = .ok config) :
    (config.toggled name enable).Same (file.toggled name enable) ↔ EnvAgrees vars file := by
  obtain ⟨port, hport, rfl⟩ := overridden_ok h
  have hordered : ∀ host port aperture,
      (Config.toggled name enable { file with host, port, aperture }).Same (file.toggled name enable) ↔
        host = file.host ∧ port = file.port ∧ aperture = file.aperture := by
    intro host port aperture
    constructor
    · intro hsame
      have hfields := hsame.ordered
      simp only [Config.ordered, Config.toggled, Config.mk.injEq] at hfields
      exact ⟨hfields.1, hfields.2.1, hfields.2.2.1⟩
    · rintro ⟨rfl, rfl, rfl⟩
      exact .refl _
  rw [hordered, overriddenPort_eq_iff hport, getD_eq_self_iff]
  have haperture : ({ file.aperture with
      baseUrl := (vars "APERTURE_BASE_URL").getD file.aperture.baseUrl
      apiKey := vars "APERTURE_API_KEY" <|> file.aperture.apiKey } : ApertureConfig) = file.aperture ↔
      (∀ baseUrl ∈ vars "APERTURE_BASE_URL", baseUrl = file.aperture.baseUrl) ∧
        ∀ apiKey ∈ vars "APERTURE_API_KEY", file.aperture.apiKey = some apiKey := by
    rw [← getD_eq_self_iff]
    cases hkey : vars "APERTURE_API_KEY" with
    | none => cases haperture : file.aperture; simp
    | some key => cases haperture : file.aperture; simp [eq_comm]
  rw [haperture]
  constructor
  · rintro ⟨hhost, hports, hbase, hkey⟩
    exact ⟨hhost, hports, hbase, hkey⟩
  · intro hagrees
    exact ⟨hagrees.host, hagrees.port, hagrees.baseUrl, hagrees.apiKey⟩

variable (toml path name enable) in
/-- The file of the path reads as `file` with the provider switched. -/
def TogglesOnly (file : Config) (files : FileSystem) : Prop :=
  ∃ text file', readToString files path = .ok text ∧ toml.fromStr text = .ok file' ∧
    file'.Same (file.toggled name enable)

/-- **Switching a provider.** After a call that succeeds only the flag has changed, exactly if each
variable of the environment that is set has the value that the file had. -/
theorem toggle_frame_iff (hround : toml.RoundTrips) (hread : readToString files path = .ok text)
    (hfile : toml.fromStr text = .ok file)
    (h : (toggleProvider toml parse debug vars path name enable faults files).2 = .ok ()) :
    TogglesOnly toml path name enable file
        (toggleProvider toml parse debug vars path name enable faults files).1 ↔
      EnvAgrees vars file := by
  obtain ⟨config, text', file', hconfig, hread', hfile', hsame⟩ := toggleProvider_ok hround hread hfile h
  rw [← same_toggled_iff hconfig]
  constructor
  · rintro ⟨text'', file'', hread'', hfile'', hsame''⟩
    rw [hread'] at hread''
    cases hread''
    rw [hfile'] at hfile''
    cases hfile''
    exact hsame.symm.trans hsame''
  · exact fun hagrees => ⟨text', file', hread', hfile', hsame.trans hagrees⟩

end

/-! ## A key in the environment -/

/-- A file with one provider. -/
def providerToml : String := tomlLines [
  "[[providers]]", "name = \"other\"", "base_url = \"https://other.example\"", "models = [\"m\"]",
  "", "[security]", "require_auth_in_prod = false"]

def providerConfig : Config where
  security := { requireAuthInProd := false }
  providers := [{
    name := "other"
    baseUrl := "https://other.example"
    apiKey := none
    endpointStyle := .openaiV1
    models := ["m"]
    enabled := true }]

/-- The variables of a server with a key for its gateway. -/
def keyVars (name : String) : Option String :=
  if name = "APERTURE_API_KEY" then some "gateway-secret" else none

/-- The configuration with the key, the provider switched off. -/
def keyedConfig : Config where
  aperture := { apiKey := some "gateway-secret" }
  security := { requireAuthInProd := false }
  providers := setEnabled "other" false providerConfig.providers

def keyedToml : String := tomlLines [
  "host = \"127.0.0.1\"", "port = 8765", "multi_provider_enabled = false", "", "[aperture]",
  "base_url = \"http://localhost:8080\"", "api_key = \"gateway-secret\"",
  "model_refresh_interval_secs = 300", "", "[http]", "connect_timeout_secs = 10",
  "request_timeout_secs = 300", "sse_keep_alive_secs = 15", "upstream_retry_attempts = 2",
  "upstream_retry_base_delay_ms = 2000", "", "[cors]",
  "allowed_origins = [\"http://localhost:3000\"]", "trusted_proxies = []", "", "[rate_limit]",
  "requests_per_second = 10", "burst_size = 30", "health_requests_per_second = 20",
  "health_burst_size = 50", "", "[security]", "api_keys = []", "admin_api_keys = []",
  "max_body_size_bytes = 10485760", "max_auth_attempts = 5", "auth_window_secs = 60",
  "ban_duration_secs = 300", "require_auth_in_prod = false", "max_json_depth = 256",
  "max_streaming_size_bytes = 104857600", "max_messages = 10000", "", "[model_aliases]", "",
  "[[providers]]", "name = \"other\"", "base_url = \"https://other.example\"",
  "endpoint_style = \"openai_v1\"", "models = [\"m\"]", "enabled = false"]

section

variable (fileText savedText : String) (file saved : Config)

/-- The codec on two texts, of which the second one is written. -/
def twoTextCodec : TomlCodec where
  fromStr text :=
    if text = savedText then .ok saved
    else if text = fileText then .ok file
    else .error "expected an equals, found eof"
  toStringPretty config := if config = saved then .ok savedText else .error "out of range"

theorem twoTextCodec_saved : (twoTextCodec fileText savedText file saved).fromStr savedText = .ok saved :=
  if_pos rfl

theorem twoTextCodec_roundTrips : (twoTextCodec fileText savedText file saved).RoundTrips := by
  intro config text h
  simp only [twoTextCodec] at h
  split at h
  · next hconfig =>
    cases h
    exact ⟨saved, twoTextCodec_saved .., hconfig ▸ .refl _⟩
  · cases h

theorem twoTextCodec_fromStr (hne : fileText ≠ savedText) :
    (twoTextCodec fileText savedText file saved).fromStr fileText = .ok file :=
  (if_neg hne).trans (if_pos rfl)

end

def keyedCodec : TomlCodec := twoTextCodec providerToml keyedToml providerConfig keyedConfig

theorem tomlLines_ne {line line' : String} (lines lines' : List String) (h : line.toList ≠ [])
    (h' : line'.toList ≠ []) (hne : line.toList.head? ≠ line'.toList.head?) :
    tomlLines (line :: lines) ≠ tomlLines (line' :: lines') := by
  intro heq
  have hhead := congrArg (fun s => s.toList.head?) heq
  simp only [tomlLines, List.foldr_cons, String.toList_append, List.append_assoc] at hhead
  rw [List.head?_append_of_ne_nil _ h, List.head?_append_of_ne_nil _ h'] at hhead
  exact hne hhead

theorem keyedCodec_providerToml : keyedCodec.fromStr providerToml = .ok providerConfig :=
  twoTextCodec_fromStr _ _ _ _ (tomlLines_ne _ _ (by decide) (by decide) (by decide))

/-- `Url::parse` of the provider's URL. -/
def otherUrls (text : String) : Except String ParsedUrl :=
  if text = "https://other.example" then .ok ⟨"https", some (.domain "other.example")⟩
  else .error "relative URL without a base"

/-- A disk with the file. -/
def providerFiles : FileSystem :=
  Function.update (fun _ => none) "config.toml" (some providerToml.toUTF8)

theorem readToString_providerFiles : readToString providerFiles "config.toml" = .ok providerToml :=
  readToString_update _ _ _

/-- Switching the provider off. -/
def switchedOff : FileSystem × Except String Unit :=
  toggleProvider keyedCodec otherUrls false keyVars "config.toml" "other" false {} providerFiles

theorem switchedOff_load :
    Config.load keyedCodec otherUrls false keyVars "config.toml" providerFiles =
      .ok ({ providerConfig with aperture := { apiKey := some "gateway-secret" } },
        Function.update keyVars "APERTURE_API_KEY" none) :=
  (load_ok_iff readToString_providerFiles keyedCodec_providerToml).mpr ⟨by rfl, by rfl, rfl⟩

theorem keyedCodec_saves :
    keyedCodec.toStringPretty (Config.toggled "other" false
      { providerConfig with aperture := { apiKey := some "gateway-secret" } }) = .ok keyedToml :=
  if_pos rfl

theorem switchedOff_eq : switchedOff = Config.save keyedCodec (Config.toggled "other" false
    { providerConfig with aperture := { apiKey := some "gateway-secret" } }) "config.toml" {}
    providerFiles := by
  unfold switchedOff toggleProvider
  rw [switchedOff_load]
  rfl

theorem switchedOff_ok : switchedOff.2 = .ok () := by
  rw [switchedOff_eq, save_faultless]
  exact ⟨⟨_, keyedCodec_saves⟩, Function.update_of_ne tempPath_ne _ _⟩

theorem toggle_frame_iff_switchedOff :
    TogglesOnly keyedCodec "config.toml" "other" false providerConfig switchedOff.1 ↔
      EnvAgrees keyVars providerConfig :=
  toggle_frame_iff (twoTextCodec_roundTrips _ _ _ _) readToString_providerFiles
    keyedCodec_providerToml switchedOff_ok

/-- The key of the environment is in the file. -/
theorem gatewayKey_saved :
    keyedCodec.RoundTrips ∧ readToString providerFiles "config.toml" = .ok providerToml ∧
    keyedCodec.fromStr providerToml = .ok providerConfig ∧ switchedOff.2 = .ok () ∧
    providerConfig.aperture.apiKey = none ∧
    readToString switchedOff.1 "config.toml" = .ok keyedToml ∧
    (keyedCodec.fromStr keyedToml).toOption.map (·.aperture.apiKey) =
      some (keyVars "APERTURE_API_KEY") ∧
    ¬TogglesOnly keyedCodec "config.toml" "other" false providerConfig switchedOff.1 := by
  have hread : readToString switchedOff.1 "config.toml" = .ok keyedToml := by
    have hok := switchedOff_ok
    rw [switchedOff_eq] at hok ⊢
    obtain ⟨text, htext, hfiles⟩ := save_ok hok
    rw [keyedCodec_saves] at htext
    cases htext
    rw [hfiles, readToString_update]
  have hsaved : keyedCodec.fromStr keyedToml = .ok keyedConfig := twoTextCodec_saved ..
  refine ⟨twoTextCodec_roundTrips _ _ _ _, readToString_providerFiles, keyedCodec_providerToml,
    switchedOff_ok, rfl, hread, by rw [hsaved]; rfl, ?_⟩
  rintro ⟨text, file, hread', hfile, hsame⟩
  rw [hread] at hread'
  cases hread'
  rw [hsaved] at hfile
  cases hfile
  have hkey := congrArg (·.aperture.apiKey) hsame.ordered
  cases hkey

end ApertureRouter
