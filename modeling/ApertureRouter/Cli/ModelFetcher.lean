import Mathlib.Data.List.Sort
import ApertureRouter.Cli.Setup
import ApertureRouter.Discovery.Refresh

/-!
# Two readers of the models

The command line fetches the models of the gateway once (`src/cli/model_fetcher.rs`), for the wizard, which
writes them to the file as providers. The server fetches them again and again
(`src/discovery/models.rs`), and groups them. Only the server checks the ids.

* `wizard_agrees_iff`: from a reply that the server takes, the wizard makes providers with the models of the
  server's groups, exactly if the gateway sends valid ids only.
-/

namespace ApertureRouter

/-! ## The fetch of the command line -/

/-- `ApertureModel`. -/
structure ApertureModel where
  id : String
  metadata : Option ModelMetadata := none

/-- The fields of a model of the response that the command line reads. -/
def ApiModel.toApertureModel (apiModel : ApiModel) : ApertureModel where
  id := apiModel.id
  metadata := apiModel.metadata

/-- `generate_display_name`. -/
def generateDisplayName (modelId providerId : String) : String := modelId ++ " [" ++ providerId ++ "]"

def ApertureModel.enrich (model : ApertureModel) : EnrichedModel :=
  let providerId := (model.metadata >>= (·.provider) >>= (·.id)).getD "default"
  { id := model.id
    providerId := providerId
    canonicalId := providerId ++ "/" ++ model.id
    displayName := generateDisplayName model.id providerId }

/-- What the command line takes from elsewhere. -/
structure CliFetchEnv where
  /-- The `Display` of a `StatusCode`. -/
  statusText : Nat → String
  /-- `serde_json::from_slice` of a `ModelsResponse` of the command line. -/
  decode : List UInt8 → Except String (List ApertureModel)

namespace CliFetchEnv

/-- The URL that `fetch_models` asks. -/
def modelsUrl (baseUrl : String) : String :=
  String.ofList (Text.trimEndMatches '/' baseUrl.toList) ++ "/v1/models"

/-- What `fetch_models` makes of the reply. The body is read without a limit. -/
def enrichReply (env : CliFetchEnv) : FetchReply → Except String (List EnrichedModel)
  | .error e => .error ("Failed to fetch models: " ++ e)
  | .ok response =>
    if !isSuccess response.status then
      .error ("Failed to fetch models: HTTP " ++ env.statusText response.status)
    else do
      let models ← (response.chunks.mapM id >>= fun chunks => env.decode chunks.flatten).mapError
        ("Failed to parse models response: " ++ ·)
      return models.map (·.enrich)

/-- `fetch_models`. There is no second attempt. -/
def fetchModels (env : CliFetchEnv) (baseUrl : String) :
    Dialog FetchRequest FetchReply (Except String (List EnrichedModel)) :=
  .once ⟨modelsUrl baseUrl, none, 0⟩ env.enrichReply

/-- The gateway is asked without its key, unlike by the server. -/
theorem fetchModels_asks (env : CliFetchEnv) (baseUrl : String) :
    (env.fetchModels baseUrl).Asks fun q => q.url = modelsUrl baseUrl ∧ q.header = none :=
  ⟨⟨rfl, rfl⟩, fun _ => trivial⟩

end CliFetchEnv

/-! ## The selection -/

/-- The providers that `prompt_provider_selection` offers, in the order of their names. -/
def offeredProviders (models : List EnrichedModel) : List String :=
  (models.map (·.providerId)).dedup.mergeSort (· ≤ ·)

/-- `prompt_model_selection`: `keep` are the models that the user keeps. -/
def selectModels (keep : EnrichedModel → Bool) (models : List EnrichedModel)
    (selectedProviders : List String) : List EnrichedModel :=
  selectedProviders.flatMap fun providerId =>
    (models.filter fun model => model.providerId = providerId).filter keep

/-- What is selected at first: everything. -/
def allModels (models : List EnrichedModel) : List EnrichedModel :=
  selectModels (fun _ => true) models (offeredProviders models)

theorem mem_allModels {models : List EnrichedModel} {model : EnrichedModel} :
    model ∈ allModels models ↔ model ∈ models := by
  unfold allModels selectModels offeredProviders
  simp only [List.filter_true, List.mem_flatMap, List.mem_mergeSort, List.mem_dedup, List.mem_map,
    List.mem_filter, decide_eq_true_eq]
  constructor
  · rintro ⟨_, -, hmem, -⟩
    exact hmem
  · exact fun hmem => ⟨model.providerId, ⟨model, hmem, rfl⟩, hmem, rfl⟩

/-! ## Groups -/

/-- A provider with that name has the model. -/
def ListsModel (providers : List Provider) (name id : String) : Prop :=
  ∃ p ∈ providers, p.name = name ∧ id ∈ p.models

/-- The group of that name has the model. -/
def Discovered.Groups (d : Discovered) (name id : String) : Prop :=
  d.modelsByProvider.Lists (fun ids id => id ∈ ids) name id

theorem lists_addEnriched (apertureUrl : String) {name id : String}
    (providers : HashMap String Provider) (model : EnrichedModel) :
    (addEnriched apertureUrl providers model).Lists (fun p id => id ∈ p.models) name id ↔
      providers.Lists (fun p id => id ∈ p.models) name id ∨
        name = model.providerId ∧ id = model.id := by
  refine HashMap.lists_insert (fun (p : Provider) id => id ∈ p.models) model.id fun id => ?_
  have hadd : ∀ provider : Provider,
      id ∈ (if model.id ∈ provider.models then provider
        else { provider with models := provider.models ++ [model.id] }).models ↔
        id ∈ provider.models ∨ id = model.id := by
    intro provider
    split
    · rename_i hmem
      refine (or_iff_left_of_imp ?_).symm
      rintro rfl
      exact hmem
    · simp
  rw [hadd, HashMap.Lists]
  cases providers.get model.providerId with
  | none => simp
  | some provider => simp

/-- The providers of the wizard have the selected models. -/
theorem listsModel_created (order : IterOrder String Provider) (models : List EnrichedModel)
    (apertureUrl : String) {name id : String} :
    ListsModel (createProvidersFromModels order models apertureUrl) name id ↔
      ∃ model ∈ models, name = model.providerId ∧ id = model.id := by
  obtain ⟨hgrouped, -⟩ := grouped_created models apertureUrl
  have hlists := HashMap.foldl_iff
    (fun providers : HashMap String Provider => providers.Lists (fun p id => id ∈ p.models) name id)
    (fun model => name = model.providerId ∧ id = model.id) (lists_addEnriched apertureUrl) models ∅
  have hempty : ¬ (∅ : HashMap String Provider).Lists (fun p id => id ∈ p.models) name id := by
    rintro ⟨p, hget, -⟩
    cases hget
  rw [or_iff_right hempty] at hlists
  rw [← hlists]
  constructor
  · rintro ⟨p, hmem, rfl, hid⟩
    obtain ⟨name, hget⟩ := mem_createProviders.mp hmem
    rw [(hgrouped name p hget).1]
    exact ⟨p, hget, hid⟩
  · rintro ⟨p, hget, hid⟩
    exact ⟨p, mem_createProviders.mpr ⟨name, hget⟩, (hgrouped name p hget).1, hid⟩

theorem groups_add {name id : String} (d : Discovered) (apiModel : ApiModel) :
    (d.add apiModel).Groups name id ↔ d.Groups name id ∨
      validateDiscoveredId apiModel.id = .ok () ∧ name = apiModel.provider ∧ id = apiModel.id := by
  unfold Discovered.add
  cases hvalid : validateDiscoveredId apiModel.id with
  | error e => simp
  | ok u =>
    rw [Discovered.Groups, HashMap.lists_insert (fun (ids : List String) id => id ∈ ids) apiModel.id]
    · simp [Discovered.Groups]
    · intro id
      rw [HashMap.Lists]
      cases d.modelsByProvider.get apiModel.provider <;> simp

/-- The groups have the models with a valid id. -/
theorem groups_processModels (data : List ApiModel) {name id : String} :
    (processModels data).Groups name id ↔ ∃ apiModel ∈ data,
      validateDiscoveredId apiModel.id = .ok () ∧ name = apiModel.provider ∧ id = apiModel.id := by
  have hgroups := HashMap.foldl_iff (fun d : Discovered => d.Groups name id)
    (fun apiModel => validateDiscoveredId apiModel.id = .ok () ∧ name = apiModel.provider ∧
      id = apiModel.id) groups_add data {}
  have hempty : ¬ ({} : Discovered).Groups name id := by
    rintro ⟨ids, hget, -⟩
    cases hget
  rwa [or_iff_right hempty] at hgroups

/-! ## One reply, two readers -/

theorem provider_valid (apiModel : ApiModel) : validateDiscoveredId apiModel.provider = .ok () := by
  unfold ApiModel.provider
  dsimp only
  split
  · rename_i hvalid
    exact hvalid
  · decide +kernel

/-- A valid provider is the one that the gateway sends. -/
theorem provider_eq_iff (apiModel : ApiModel) :
    validateDiscoveredId apiModel.toApertureModel.enrich.providerId = .ok () ↔
      apiModel.provider = apiModel.toApertureModel.enrich.providerId := by
  constructor
  · intro hvalid
    unfold ApiModel.provider
    dsimp only
    split
    · rfl
    · rename_i hinvalid
      exact absurd (hvalid.symm.trans hinvalid) nofun
  · intro heq
    rw [← heq]
    exact provider_valid apiModel

/-- A reply that the server takes, and its models. -/
theorem judge_taken {env : FetchEnv} {url : String} {response : FetchResponse} {discovered : Discovered}
    (h : env.judge url (.ok response) = .ok (.ok discovered)) :
    isSuccess response.status = true ∧ ∃ cs : List (List UInt8), response.chunks = cs.map .ok ∧
      ∃ data, env.decode cs.flatten = .ok data ∧ discovered = processModels data := by
  unfold FetchEnv.judge at h
  dsimp only at h
  split at h
  · split at h <;> cases h
  · rename_i hstatus
    cases hmodels : env.readModels response with
    | error e =>
      rw [hmodels] at h
      cases h
    | ok data =>
      rw [hmodels] at h
      have hpublished : publishedModels data = .ok discovered := Except.ok.inj h
      refine ⟨by simpa using hstatus, ?_⟩
      unfold FetchEnv.readModels at hmodels
      split at hmodels
      · cases hmodels
      · split at hmodels
        · cases hmodels
        · rename_i body hbody
          obtain ⟨cs, hchunks, rfl, -⟩ := readBody_ok_iff.mp hbody
          refine ⟨cs, hchunks, data, Config.mapError_eq_ok.mp hmodels, ?_⟩
          unfold publishedModels at hpublished
          split at hpublished
          · cases hpublished
          · exact (Except.ok.inj hpublished).symm

theorem mapM_ok (cs : List (List UInt8)) :
    (cs.map .ok : List (Except String (List UInt8))).mapM id = .ok cs := by
  induction cs with
  | nil => rfl
  | cons c cs ih =>
    rw [List.map_cons, List.mapM_cons, ih]
    rfl

/-- **Wizard and server agree.** From a reply that the server takes and whose fields both read, the wizard
with everything selected makes providers with the models of the server's groups, exactly if all ids that the
gateway sends are valid. -/
theorem wizard_agrees_iff {env : FetchEnv} {cli : CliFetchEnv} {url : String} {response : FetchResponse}
    {discovered : Discovered} (hjudge : env.judge url (.ok response) = .ok (.ok discovered))
    (hfields : ∀ (cs : List (List UInt8)) data, response.chunks = cs.map .ok →
      env.decode cs.flatten = .ok data → cli.decode cs.flatten = .ok (data.map (·.toApertureModel)))
    (order : IterOrder String Provider) (gateway : String) :
    ∃ models, cli.enrichReply (.ok response) = .ok models ∧
      ((∀ name id, ListsModel (createProvidersFromModels order (allModels models) gateway) name id ↔
          discovered.Groups name id) ↔
        ∀ model ∈ models, validateDiscoveredId model.id = .ok () ∧
          validateDiscoveredId model.providerId = .ok ()) := by
  obtain ⟨hstatus, cs, hchunks, data, hdecode, rfl⟩ := judge_taken hjudge
  refine ⟨data.map (·.toApertureModel.enrich), ?_, ?_⟩
  · unfold CliFetchEnv.enrichReply
    dsimp only
    rw [hstatus, if_neg (by decide), hchunks, mapM_ok]
    show ((cli.decode cs.flatten).mapError _ >>= _) = _
    rw [hfields cs data hchunks hdecode]
    show Except.ok ((data.map (·.toApertureModel)).map (·.enrich)) = _
    rw [List.map_map]
    rfl
  · simp only [listsModel_created, mem_allModels, groups_processModels, List.mem_map,
      exists_exists_and_eq_and]
    constructor
    · rintro hagrees _ ⟨apiModel, hmem, rfl⟩
      obtain ⟨other, -, hid, hname, hother⟩ := (hagrees _ _).mp ⟨apiModel, hmem, rfl, rfl⟩
      rw [hother, hname]
      exact ⟨hid, provider_valid other⟩
    · intro hvalid name id
      refine exists_congr fun apiModel => and_congr_right fun hmem => ?_
      obtain ⟨hid, hprovider⟩ := hvalid _ ⟨apiModel, hmem, rfl⟩
      rw [(provider_eq_iff apiModel).mp hprovider]
      exact (and_iff_right hid).symm

/-! ## A provider with a space -/

/-- A body with one model. -/
def spacedBody : List UInt8 :=
  "\x7b\"data\":[\x7b\"id\":\"m\",\"metadata\":\x7b\"provider\":\x7b\"id\":\"a b\"\x7d\x7d\x7d]\x7d".toUTF8.toList

def spacedResponse : FetchResponse := ⟨200, none, [.ok spacedBody]⟩

def spacedModels : List ApiModel := (sampleResponse "m" "a b").data

/-- `serde_json::from_slice` on that body. -/
def decodeSpaced {α : Type} (models : List α) (body : List UInt8) : Except String (List α) :=
  if body = spacedBody then .ok models else .error "expected value at line 1 column 1"

def spacedEnv : FetchEnv := { FetchEnv.sampleFetchEnv with decode := decodeSpaced spacedModels }

def spacedCliEnv : CliFetchEnv where
  statusText _ := "200 OK"
  decode := decodeSpaced (spacedModels.map (·.toApertureModel))

theorem decodeSpaced_ok {α : Type} {models models' : List α} {body : List UInt8}
    (h : decodeSpaced models body = .ok models') : body = spacedBody ∧ models' = models := by
  unfold decodeSpaced at h
  split at h
  · rename_i hbody
    exact ⟨hbody, (Except.ok.inj h).symm⟩
  · cases h

theorem spaced_judge : spacedEnv.judge "http://aperture/v1/models" (.ok spacedResponse) =
    .ok (.ok (processModels spacedModels)) := by
  have hbody : readBody maxModelsBodyBytes [.ok spacedBody] = .ok spacedBody :=
    readBody_ok_iff.mpr ⟨[spacedBody], rfl, by simp, by decide +kernel⟩
  have hmodels : spacedEnv.readModels spacedResponse = .ok spacedModels := by
    unfold FetchEnv.readModels spacedResponse
    dsimp only [Option.filter_none]
    rw [hbody]
    show (decodeSpaced spacedModels spacedBody).mapError _ = _
    rw [decodeSpaced, if_pos rfl]
    rfl
  show (spacedEnv.readModels spacedResponse).map publishedModels = _
  rw [hmodels]
  rfl

theorem spaced_enriched : spacedCliEnv.enrichReply (.ok spacedResponse) =
    .ok [⟨"m", "a b", "a b/m", "m [a b]"⟩] := by
  have hflatten : [spacedBody].flatten = spacedBody := List.append_nil _
  unfold CliFetchEnv.enrichReply
  dsimp only
  rw [if_neg (by decide)]
  show ((decodeSpaced (spacedModels.map (·.toApertureModel)) [spacedBody].flatten).mapError _ >>= _) = _
  rw [hflatten, decodeSpaced, if_pos rfl]
  rfl

/-- The wizard writes a provider that the server does not get from the same reply. -/
theorem wizard_agrees_iff_spacedProvider :
    ∃ models, spacedCliEnv.enrichReply (.ok spacedResponse) = .ok models ∧
      ¬ ∀ name id, ListsModel (createProvidersFromModels .entries (allModels models) "http://aperture")
        name id ↔ (processModels spacedModels).Groups name id := by
  have hfields : ∀ (cs : List (List UInt8)) data, spacedResponse.chunks = cs.map .ok →
      spacedEnv.decode cs.flatten = .ok data →
      spacedCliEnv.decode cs.flatten = .ok (data.map (·.toApertureModel)) := by
    intro cs data _ hdecode
    obtain ⟨hbody, rfl⟩ := decodeSpaced_ok hdecode
    exact if_pos hbody
  obtain ⟨models, henriched, hiff⟩ :=
    wizard_agrees_iff spaced_judge hfields .entries "http://aperture"
  refine ⟨models, henriched, fun hagrees => ?_⟩
  rw [spaced_enriched] at henriched
  obtain rfl := Except.ok.inj henriched
  exact absurd (hiff.mp hagrees _ List.mem_cons_self).2 (by decide +kernel)

end ApertureRouter
