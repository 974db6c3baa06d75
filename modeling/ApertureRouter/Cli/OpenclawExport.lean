import ApertureRouter.Cli.OpencodeExport
import ApertureRouter.Types.Wire

/-!
# The export to OpenClaw

`OpenClawConfig` (`src/cli/openclaw_export.rs`): how it is made from the models of the gateway, and its
merge into the `openclaw.json` of the user, which adds `models`, `models.mode`, `models.providers` and
`agents.defaults.model` where they are missing.

* `KeepsAgents`: what there may be at `agents` for the merge to keep it.
* `openclaw_merge_frame_iff`: all but the generated paths is kept, exactly if the agents are.
* `agentList_lost`: a document that loses its agents.
-/

namespace ApertureRouter

structure OpenClawCost where
  input : UInt64
  output : UInt64
  cacheRead : UInt64
  cacheWrite : UInt64

structure OpenClawModel where
  id : String
  name : String
  api : Option String
  reasoning : Bool
  input : List String
  cost : OpenClawCost
  contextWindow : UInt32
  maxTokens : UInt32

structure OpenClawProvider where
  baseUrl : String
  apiKey : Option String
  apiType : Option String
  models : List OpenClawModel

structure OpenClawModels where
  mode : Option String
  providers : HashMap String OpenClawProvider

structure OpenClawConfig where
  models : OpenClawModels
  /-- `agents.defaults.model`. -/
  agents : Option String

/-! ## `OpenClawConfig::from_router_config` -/

namespace EnrichedModel

variable (model : EnrichedModel)

def providerKey : String := "aperture-" ++ model.providerId

/-- The entry of a model. The costs are the bits of `0.0`. -/
def openClawModel : OpenClawModel where
  id := model.id
  name := model.displayName
  api := none
  reasoning := false
  input := ["text"]
  cost := ⟨0, 0, 0, 0⟩
  contextWindow := 128000
  maxTokens := 4096

end EnrichedModel

namespace OpenClawConfig

/-- The providers with one more model. -/
def addModel (routerUrl : String) (providers : HashMap String OpenClawProvider)
    (model : EnrichedModel) : HashMap String OpenClawProvider :=
  let provider := (providers.get model.providerKey).getD {
    baseUrl := trimSlashes routerUrl ++ "/v1"
    apiKey := none
    apiType := some "openai-completions"
    models := [] }
  providers.insert model.providerKey
    { provider with models := provider.models ++ [model.openClawModel] }

/-- `OpenClawConfig::from_router_config`. A model always has a reference, so its fallback is not
reached. -/
def fromRouterConfig (models : List EnrichedModel) (routerUrl : String) : OpenClawConfig where
  models := {
    mode := some "merge"
    providers := models.foldl (addModel routerUrl) ∅ }
  agents := models.head?.map fun model => model.providerKey ++ "/" ++ model.id

/-- The keys of the providers. -/
theorem mem_providers_fromRouterConfig {models : List EnrichedModel} {routerUrl key : String} :
    key ∈ (fromRouterConfig models routerUrl).models.providers ↔
      ∃ model ∈ models, key = model.providerKey := by
  have hfold : ∀ providers : HashMap String OpenClawProvider,
      key ∈ models.foldl (addModel routerUrl) providers ↔
        key ∈ providers ∨ ∃ model ∈ models, key = model.providerKey := by
    induction models with
    | nil => simp
    | cons model models ih =>
      intro providers
      rw [List.foldl_cons, ih, addModel, HashMap.mem_insert, List.exists_mem_cons_iff, or_comm (b := _ ∈ _),
        or_assoc]
  have hempty : key ∉ (∅ : HashMap String OpenClawProvider) := AList.notMem_empty key
  exact (hfold ∅).trans (or_iff_right hempty)

end OpenClawConfig

/-! ## `serde_json::to_value` -/

def OpenClawCost.toValue (cost : OpenClawCost) : Value :=
  .object [("input", .number (.float cost.input)), ("output", .number (.float cost.output)),
    ("cacheRead", .number (.float cost.cacheRead)), ("cacheWrite", .number (.float cost.cacheWrite))]

def OpenClawModel.toValue (model : OpenClawModel) : Value :=
  .object ([("id", .string model.id), ("name", .string model.name)] ++
    optionalField "api" (model.api.map .string) ++
    [("reasoning", .bool model.reasoning), ("input", .array (model.input.map .string)),
      ("cost", model.cost.toValue),
      ("contextWindow", .number (.posInt model.contextWindow.toUInt64)),
      ("maxTokens", .number (.posInt model.maxTokens.toUInt64))])

def OpenClawProvider.toValue (provider : OpenClawProvider) : Value :=
  .object ([("baseUrl", .string provider.baseUrl)] ++
    optionalField "apiKey" (provider.apiKey.map .string) ++
    optionalField "api" (provider.apiType.map .string) ++
    [("models", .array (provider.models.map OpenClawModel.toValue))])

/-- The section `agents`. -/
def agentsValue (model : String) : Value :=
  .object [("defaults", .object [("model", .string model)])]

namespace OpenClawConfig

variable (self : OpenClawConfig)

def toValue : Value :=
  .object ([("models", .object (optionalField "mode" (self.models.mode.map .string) ++
      [("providers", mapValue OpenClawProvider.toValue self.models.providers)]))] ++
    (self.agents.map fun model => ("agents", agentsValue model)).toList)

/-! ## `OpenClawConfig::merge_with_existing` -/

/-- The new entries of `models.providers`. -/
def newProviders : List (String × Value) :=
  match self.toValue.get "models" >>= (·.get "providers") with
  | some (.object providers) => providers
  | _ => []

/-- The providers with the new entries. -/
def mergeProviders (providers : Value) : Value :=
  self.newProviders.foldl (fun providers entry => providers.set entry.1 entry.2) providers

/-- `agents.defaults.model` of a document. -/
def agentsModel (existing : Value) : Option Value :=
  existing.get "agents" >>= (·.get "defaults") >>= (·.get "model")

/-- The document with the new agents, unless it has a model. -/
def mergeAgents (existing : Value) : Value :=
  match self.toValue.get "agents" with
  | some agents => if (agentsModel existing).isSome then existing else existing.set "agents" agents
  | none => existing

/-- The section `models` of a document with the new entries. -/
def mergeModels (models : Value) : Except String Value :=
  let models := (models.orInsert "mode" (.string "merge")).orInsert "providers" (.object [])
  match models.get "providers" with
  | some (.object providers) => .ok (models.set "providers" (self.mergeProviders (.object providers)))
  | _ => .error "Existing providers section is not an object"

/-- The merge of the values. -/
def merge (existing : Value) : Except String Value :=
  match existing with
  | .object fields =>
    let existing := (Value.object fields).orInsert "models" (.object [])
    match existing.get "models" with
    | some (.object models) =>
      (self.mergeModels (.object models)).map fun models =>
        self.mergeAgents (existing.set "models" models)
    | _ => .error "Existing models section is not an object"
  | _ => .error "Existing config is not an object"

/-- `OpenClawConfig::merge_with_existing`. -/
def mergeWithExisting (json : JsonText) (existingJson : String) : Except String String :=
  match json.fromStr existingJson with
  | .error e => .error ("Failed to parse existing OpenClaw config: " ++ e)
  | .ok existing => (self.merge existing).map json.toStringPretty

/-! ## The merged sections -/

variable {self}

theorem newProviders_eq : self.newProviders =
    self.models.providers.entries.map fun e => (e.1, e.2.toValue) := by
  unfold newProviders toValue mapValue optionalField
  cases self.models.mode <;> cases self.agents <;> rfl

theorem mem_newProviders {key : String} :
    key ∈ self.newProviders.map Prod.fst ↔ key ∈ self.models.providers := by
  rw [newProviders_eq, List.map_map]
  exact Iff.rfl

/-- Entries that are put into an object. -/
theorem foldl_set (entries fields : List (String × Value)) :
    ∃ fields', entries.foldl (fun value entry => value.set entry.1 entry.2) (Value.object fields) =
        .object fields' ∧
      ∀ key, key ∉ entries.map Prod.fst → fields'.lookup key = fields.lookup key := by
  induction entries generalizing fields with
  | nil => exact ⟨fields, rfl, fun _ _ => rfl⟩
  | cons entry entries ih =>
    obtain ⟨fields', hfields, hkept⟩ := ih (Value.setField entry.1 entry.2 fields)
    refine ⟨fields', hfields, fun key hkey => ?_⟩
    rw [List.map_cons, List.mem_cons, not_or] at hkey
    rw [hkept key hkey.2, Value.lookup_setField, if_neg hkey.1]

/-- There is nothing, or an object. -/
def ObjectIfAny (o : Option Value) : Prop := o = none ∨ ∃ fields, o = some (.object fields)

/-- A section that is made if it is missing. -/
theorem getD_object {o : Option Value} {fields : List (String × Value)}
    (h : some (o.getD (.object [])) = some (.object fields)) :
    ObjectIfAny o ∧ ∀ key, fields.lookup key = jsonDocs.fieldOf o key := by
  cases o with
  | none =>
    cases h
    exact ⟨.inl rfl, fun _ => rfl⟩
  | some value =>
    cases h
    exact ⟨.inr ⟨fields, rfl⟩, fun _ => rfl⟩

/-- `models'` is the section `o` with the new entries. -/
structure MergedModels (claw : OpenClawConfig) (o : Option Value)
    (models' : List (String × Value)) : Prop where
  mode : models'.lookup "mode" = some ((jsonDocs.fieldOf o "mode").getD (.string "merge"))
  object : ObjectIfAny (jsonDocs.fieldOf o "providers")
  providers : ∃ providers', models'.lookup "providers" = some (.object providers') ∧
    ∀ key, key ∉ claw.models.providers →
      providers'.lookup key = jsonDocs.fieldOf (jsonDocs.fieldOf o "providers") key
  other : ∀ key, key ≠ "mode" → key ≠ "providers" → models'.lookup key = jsonDocs.fieldOf o key

theorem mergeModels_ok {models : List (String × Value)} {merged : Value}
    (h : self.mergeModels (.object models) = .ok merged) :
    ∃ models', merged = .object models' ∧ MergedModels self (some (.object models)) models' := by
  obtain ⟨models1, hmode, hlookup1⟩ := orInsert_object models "mode" (.string "merge")
  obtain ⟨models2, hproviders, hlookup2⟩ := orInsert_object models1 "providers" (.object [])
  have hset : models2.lookup "providers" = some ((models.lookup "providers").getD (.object [])) := by
    rw [hlookup2, if_pos rfl, hlookup1, if_neg (by decide)]
  unfold mergeModels at h
  rw [hmode, hproviders] at h
  simp only [Value.get_object, hset] at h
  split at h
  · next providers hp =>
    cases h
    obtain ⟨providers', hmerged, hkept⟩ := foldl_set self.newProviders providers
    obtain ⟨hobject, hkeys⟩ := getD_object hp
    refine ⟨Value.setField "providers" (.object providers') models2, ?_, ?_, hobject,
      ⟨providers', ?_, fun key hkey => ?_⟩, fun key hmode hproviders => ?_⟩
    · rw [mergeProviders, hmerged, Value.set]
    · rw [Value.lookup_setField, if_neg (by decide), hlookup2, if_neg (by decide), hlookup1, if_pos rfl]
      rfl
    · rw [Value.lookup_setField, if_pos rfl]
    · rw [hkept key fun hmem => hkey (mem_newProviders.mp hmem)]
      exact hkeys key
    · rw [Value.lookup_setField, if_neg hproviders, hlookup2, if_neg hproviders, hlookup1, if_neg hmode]
      rfl
  · cases h

/-- The section `agents` of a document that the merge has gone through. -/
def agentsAfter (self : OpenClawConfig) (fields : List (String × Value)) : Option Value :=
  match self.agents with
  | some model =>
    if (agentsModel (.object fields)).isSome then fields.lookup "agents" else some (agentsValue model)
  | none => fields.lookup "agents"

/-- `merged` is the document with the new entries. -/
structure Merged (claw : OpenClawConfig) (fields merged : List (String × Value)) : Prop where
  object : ObjectIfAny (fields.lookup "models")
  models : ∃ models', merged.lookup "models" = some (.object models') ∧
    MergedModels claw (fields.lookup "models") models'
  agents : merged.lookup "agents" = agentsAfter claw fields
  other : ∀ key, key ≠ "models" → key ≠ "agents" → merged.lookup key = fields.lookup key

theorem toValue_agents : self.toValue.get "agents" = self.agents.map agentsValue := by
  unfold toValue
  cases self.agents <;> rfl

/-- What the merge of the agents does to a document that has its models. -/
theorem mergeAgents_object {fields existing : List (String × Value)}
    (hagents : existing.lookup "agents" = fields.lookup "agents") :
    ∃ merged, self.mergeAgents (.object existing) = .object merged ∧
      merged.lookup "agents" = agentsAfter self fields ∧
      ∀ key, key ≠ "agents" → merged.lookup key = existing.lookup key := by
  have hmodel : agentsModel (.object existing) = agentsModel (.object fields) := by
    unfold agentsModel
    rw [Value.get_object, Value.get_object, hagents]
  unfold mergeAgents agentsAfter
  rw [toValue_agents, hmodel]
  cases self.agents with
  | none => exact ⟨existing, rfl, hagents, fun _ _ => rfl⟩
  | some model =>
    simp only [Option.map_some]
    split
    · exact ⟨existing, rfl, hagents, fun _ _ => rfl⟩
    · refine ⟨Value.setField "agents" (agentsValue model) existing, rfl, ?_, fun key hkey => ?_⟩
      · rw [Value.lookup_setField, if_pos rfl]
      · rw [Value.lookup_setField, if_neg hkey]

/-- **The merge.** What it makes of a document, if it succeeds. -/
theorem merge_ok {fields : List (String × Value)} {value : Value}
    (h : self.merge (.object fields) = .ok value) :
    ∃ merged, value = .object merged ∧ Merged self fields merged := by
  obtain ⟨fields1, hmodels, hlookup⟩ := orInsert_object fields "models" (.object [])
  unfold merge at h
  simp only [hmodels, Value.get_object, hlookup, if_true] at h
  split at h
  · next models hm =>
    cases hmerged : self.mergeModels (.object models) with
    | error e =>
      rw [hmerged] at h
      cases h
    | ok merged =>
      rw [hmerged] at h
      cases h
      obtain ⟨models', rfl, hnew⟩ := mergeModels_ok hmerged
      obtain ⟨hobject, hkeys⟩ := getD_object hm
      have hsection : MergedModels self (fields.lookup "models") models' := by
        obtain ⟨hmode, hproviders, hentries, hother⟩ := hnew
        simp only [fieldOf_object, hkeys] at hmode hproviders hentries hother
        exact ⟨hmode, hproviders, hentries, hother⟩
      have hagents : (Value.setField "models" (.object models') fields1).lookup "agents" =
          fields.lookup "agents" := by
        rw [Value.lookup_setField, if_neg (by decide), hlookup, if_neg (by decide)]
      obtain ⟨merged, hvalue, hlookupAgents, hother⟩ := mergeAgents_object hagents
      refine ⟨merged, hvalue, hobject, ⟨models', ?_, hsection⟩, hlookupAgents,
        fun key hmodels hagents => ?_⟩
      · rw [hother _ (by decide), Value.lookup_setField, if_pos rfl]
      · rw [hother key hagents, Value.lookup_setField, if_neg hmodels, hlookup, if_neg hmodels]
  · cases h

/-! ## The frame -/

variable (self) in
/-- The paths that the merge may write: the generated providers, and what is missing. -/
def generatedPaths (fields : List (String × Value)) : Set (List String) :=
  {path | (∃ key ∈ self.models.providers, path = ["models", "providers", key]) ∨
    ((Value.object fields).get "models" >>= (·.get "mode")) = none ∧ path = ["models", "mode"] ∨
    agentsModel (.object fields) = none ∧ path = ["agents", "defaults", "model"]}

variable (self) in
/-- The agents are not replaced, or there is nothing but what they are replaced by. -/
def KeepsAgents (fields : List (String × Value)) : Prop :=
  self.agents = none ∨ (agentsModel (.object fields)).isSome ∨
    OnlyField "defaults" (fields.lookup "agents") ∧
      OnlyField "model" (jsonDocs.fieldOf (fields.lookup "agents") "defaults")

/-- The objects that are made on the way. -/
def madeSections : Set (List String) :=
  {["models"], ["models", "providers"], ["agents"], ["agents", "defaults"]}

theorem below_agents (fields : List (String × Value)) :
    DocKind.below "agents" (self.generatedPaths fields) =
      if agentsModel (.object fields) = none then {["defaults", "model"]} else ∅ := by
  ext path
  simp only [DocKind.mem_below, generatedPaths, Set.mem_ofPred_eq, List.cons.injEq]
  split_ifs with hmodel <;> simp [hmodel]

/-- The agents. -/
theorem agents_frame_iff {fields merged : List (String × Value)} (h : Merged self fields merged) :
    jsonDocs.SameExcept (DocKind.below "agents" (self.generatedPaths fields))
        (DocKind.below "agents" madeSections) (fields.lookup "agents") (merged.lookup "agents") ↔
      self.KeepsAgents fields := by
  rw [below_agents, h.agents, agentsAfter, KeepsAgents]
  cases hagents : self.agents with
  | none => exact iff_of_true (DocKind.sameExcept_refl _ _ _) (.inl rfl)
  | some model =>
    cases hmodel : agentsModel (.object fields) with
    | some value => exact iff_of_true (DocKind.sameExcept_refl _ _ _) (.inr (.inl rfl))
    | none =>
      simp only [reduceCtorEq, false_or, Option.isSome_none, Bool.false_eq_true, if_false, if_true]
      rw [agentsValue, sameExcept_field (by simp [madeSections]),
        sameExcept_field (by simp [madeSections])]
      exact and_congr_right fun _ => and_iff_left (DocKind.sameExcept_of_nil_mem rfl)

/-- The providers. -/
theorem providers_frame {fields models' : List (String × Value)}
    (h : MergedModels self (fields.lookup "models") models') :
    jsonDocs.SameExcept
      (DocKind.below "providers" (DocKind.below "models" (self.generatedPaths fields)))
      (DocKind.below "providers" (DocKind.below "models" madeSections))
      (jsonDocs.fieldOf (fields.lookup "models") "providers") (models'.lookup "providers") := by
  have hbelow : DocKind.below "providers" (DocKind.below "models" (self.generatedPaths fields)) =
      {path | ∃ key ∈ self.models.providers, path = [key]} := by
    ext path
    simp [generatedPaths]
  have hroot : [] ∉ {path : List String | ∃ key ∈ self.models.providers, path = [key]} := by
    simp
  obtain ⟨providers', hproviders, hkept⟩ := h.providers
  rw [hbelow, hproviders, sameExcept_object hroot]
  refine ⟨h.object.imp (fun hnone => ⟨hnone, by simp [madeSections]⟩) id, fun key => ?_⟩
  by_cases hkey : key ∈ self.models.providers
  · exact DocKind.sameExcept_of_nil_mem ⟨key, hkey, rfl⟩
  · rw [hkept key hkey]
    exact DocKind.sameExcept_refl _ _ _

/-- The section `models`. -/
theorem models_frame {fields merged : List (String × Value)} (h : Merged self fields merged) :
    jsonDocs.SameExcept (DocKind.below "models" (self.generatedPaths fields))
      (DocKind.below "models" madeSections) (fields.lookup "models") (merged.lookup "models") := by
  obtain ⟨models', hmodels', hmerged⟩ := h.models
  have hroot : [] ∉ DocKind.below "models" (self.generatedPaths fields) := by
    simp [generatedPaths]
  rw [hmodels', sameExcept_object hroot]
  refine ⟨h.object.imp (fun hnone => ⟨hnone, by simp [madeSections]⟩) id, fun key => ?_⟩
  by_cases hproviders : key = "providers"
  · subst hproviders
    exact providers_frame hmerged
  by_cases hmode : key = "mode"
  · subst hmode
    rw [hmerged.mode]
    cases hold : jsonDocs.fieldOf (fields.lookup "models") "mode" with
    | none => exact DocKind.sameExcept_of_nil_mem (.inr (.inl ⟨hold, rfl⟩))
    | some value => exact DocKind.sameExcept_refl _ _ _
  · rw [hmerged.other key hmode hproviders]
    exact DocKind.sameExcept_refl _ _ _

/-- **The merge into `openclaw.json`.** If it succeeds, all but the paths that it may write is kept, exactly
if the agents are. -/
theorem openclaw_merge_frame_iff {json : JsonText} {existingJson text : String}
    {fields : List (String × Value)} (hexisting : json.fromStr existingJson = .ok (.object fields))
    (h : self.mergeWithExisting json existingJson = .ok text) :
    ∃ merged, self.merge (.object fields) = .ok (.object merged) ∧
      text = json.toStringPretty (.object merged) ∧
      (jsonDocs.SameExcept (self.generatedPaths fields) madeSections (some (.object fields))
          (some (.object merged)) ↔ self.KeepsAgents fields) := by
  rw [mergeWithExisting, hexisting] at h
  cases hvalue : self.merge (.object fields) with
  | error e =>
    simp only [hvalue] at h
    cases h
  | ok value =>
    simp only [hvalue] at h
    cases h
    obtain ⟨merged, rfl, hmerged⟩ := merge_ok hvalue
    refine ⟨merged, rfl, rfl, ?_⟩
    have hroot : [] ∉ self.generatedPaths fields := by simp [generatedPaths]
    rw [sameExcept_object hroot, and_iff_right (.inr ⟨fields, rfl⟩)]
    constructor
    · exact fun hall => (agents_frame_iff hmerged).mp (hall "agents")
    · intro hagents key
      by_cases hkey : key = "models"
      · subst hkey
        exact models_frame hmerged
      by_cases hkey' : key = "agents"
      · subst hkey'
        exact (agents_frame_iff hmerged).mpr hagents
      · rw [hmerged.other key hkey hkey']
        exact DocKind.sameExcept_refl _ _ _

end OpenClawConfig

/-! ## A list of agents -/

/-- What is generated for one model. -/
def generatedOpenclaw : OpenClawConfig :=
  OpenClawConfig.fromRouterConfig [gatewayModel] "http://127.0.0.1:8765"

/-- A document with agents of the user, but without a default model. -/
def userOpenclaw : List (String × Value) :=
  [("agents", .object [("list", .array [.object [("id", .string "main")]])])]

def agentsText : String :=
  "\x7b\"agents\":\x7b\"list\":[\x7b\"id\":\"main\"\x7d]\x7d\x7d"

/-- The text of the merged document. -/
def mergedAgentsText : String := "\n".intercalate [
  "\x7b", "  \"agents\": \x7b", "    \"defaults\": \x7b", "      \"model\": \"aperture-glm/GLM-5\"",
  "    \x7d", "  \x7d,", "  \"models\": \x7b", "    \"mode\": \"merge\",", "    \"providers\": \x7b",
  "      \"aperture-glm\": \x7b", "        \"api\": \"openai-completions\",",
  "        \"baseUrl\": \"http://127.0.0.1:8765/v1\",", "        \"models\": [", "          \x7b",
  "            \"contextWindow\": 128000,", "            \"cost\": \x7b",
  "              \"cacheRead\": 0.0,", "              \"cacheWrite\": 0.0,",
  "              \"input\": 0.0,", "              \"output\": 0.0", "            \x7d,",
  "            \"id\": \"GLM-5\",", "            \"input\": [", "              \"text\"",
  "            ],", "            \"maxTokens\": 4096,", "            \"name\": \"GLM-5 [glm]\",",
  "            \"reasoning\": false", "          \x7d", "        ]", "      \x7d", "    \x7d",
  "  \x7d", "\x7d"]

def agentsJson : JsonText := oneDocument agentsText (.object userOpenclaw) mergedAgentsText

theorem agentsJson_merges :
    generatedOpenclaw.mergeWithExisting agentsJson agentsText = .ok mergedAgentsText := by
  rw [OpenClawConfig.mergeWithExisting, agentsJson, oneDocument_fromStr]
  rfl

theorem openclaw_merge_frame_iff_userOpenclaw :
    ∃ merged, generatedOpenclaw.merge (.object userOpenclaw) = .ok (.object merged) ∧
      mergedAgentsText = agentsJson.toStringPretty (.object merged) ∧
      (jsonDocs.SameExcept (generatedOpenclaw.generatedPaths userOpenclaw)
          OpenClawConfig.madeSections (some (.object userOpenclaw)) (some (.object merged)) ↔
        generatedOpenclaw.KeepsAgents userOpenclaw) :=
  OpenClawConfig.openclaw_merge_frame_iff (oneDocument_fromStr ..) agentsJson_merges

/-- The list of agents of the user is gone. -/
theorem agentList_lost :
    ∃ merged, generatedOpenclaw.merge (.object userOpenclaw) = .ok (.object merged) ∧
      generatedOpenclaw.mergeWithExisting agentsJson agentsText =
        .ok (agentsJson.toStringPretty (.object merged)) ∧
      jsonDocs.valueAt (some (.object userOpenclaw)) ["agents", "list"] =
        some (.array [.object [("id", .string "main")]]) ∧
      jsonDocs.valueAt (some (.object merged)) ["agents", "list"] = none ∧
      ¬jsonDocs.SameExcept (generatedOpenclaw.generatedPaths userOpenclaw)
        OpenClawConfig.madeSections (some (.object userOpenclaw)) (some (.object merged)) := by
  have hthere : jsonDocs.valueAt (some (.object userOpenclaw)) ["agents", "list"] =
      some (.array [.object [("id", .string "main")]]) := by rfl
  have hpath : ∀ e ∈ generatedOpenclaw.generatedPaths userOpenclaw, ¬e <+: ["agents", "list"] := by
    rintro e (⟨key, -, rfl⟩ | ⟨-, rfl⟩ | ⟨-, rfl⟩) <;> simp [List.cons_prefix_cons]
  refine ⟨_, rfl, agentsJson_merges, hthere, by rfl, ?_⟩
  exact DocKind.not_sameExcept_of_gone hpath hthere (by rfl)

end ApertureRouter
