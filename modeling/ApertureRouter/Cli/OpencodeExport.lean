import ApertureRouter.Cli.JsonDocument
import ApertureRouter.ConfigFile
import ApertureRouter.Lib.HashMap
import ApertureRouter.Proxy.Client

/-!
# The export to OpenCode

`OpenCodeConfig` (`src/cli/opencode_export.rs`): how it is made from the models of the gateway, and its
merge into the `opencode.json` of the user. A map is written in the order of its entries.

* `opencode_merge_frame`: `model`, `small_model` and `provider` become the generated ones, and all else is
  kept. Of `provider` all but `router` is kept exactly if there is nothing else.
* `otherProvider_lost`: a document that loses one.
-/

namespace ApertureRouter

structure OpenCodeModel where
  name : String

structure OpenCodeOptions where
  apiKey : String
  baseUrl : String

structure OpenCodeProvider where
  name : String
  npm : String
  models : HashMap String OpenCodeModel
  options : OpenCodeOptions

structure OpenCodeConfig where
  schema : String
  model : String
  smallModel : String
  provider : HashMap String OpenCodeProvider

/-! ## `OpenCodeConfig::from_router_config` -/

namespace EnrichedModel

variable (model : EnrichedModel)

def isFree : Bool := Config.containsText model.id ":free" || model.id == "openrouter/free"

def isFast : Bool := Config.containsText model.id "flash" || Config.containsText model.id "haiku"

/-- The name of the model at the router. -/
def routerName : String := "router/" ++ model.id

end EnrichedModel

/-- The first model that is neither fast nor free, or else the first one that is not fast, or else the
first one. -/
def choosePrimary (models : List EnrichedModel) : Option EnrichedModel :=
  models.find? (fun model => !model.isFast && !model.isFree) <|>
    models.find? (!·.isFast) <|> models.head?

/-- The first free model, or else the first fast one. -/
def chooseSmall (models : List EnrichedModel) : Option EnrichedModel :=
  models.find? (·.isFree) <|> models.find? (·.isFast)

namespace OpenCodeConfig

/-- `OpenCodeConfig::from_router_config`. -/
def fromRouterConfig (config : Config) (models : List EnrichedModel) (routerUrl : String) :
    Except String OpenCodeConfig :=
  match choosePrimary models with
  | none => .error "No models discovered from Aperture — cannot build OpenCode config. Check the gateway URL and that models are available."
  | some primary => .ok {
      schema := "https://opencode.ai/config.json"
      model := primary.routerName
      smallModel := ((chooseSmall models).getD primary).routerName
      provider := HashMap.insert ∅ "router" {
        name := "Aperture Router"
        npm := "@ai-sdk/anthropic"
        models := HashMap.insertAll ∅ (models.map fun model =>
          (model.id, ⟨model.id ++ " [" ++ model.providerId ++ "]"⟩))
        options := {
          apiKey := config.security.apiKeys.head?.getD "-"
          baseUrl := trimSlashes routerUrl ++ "/v1" } } }

end OpenCodeConfig

/-! ## `serde_json::to_value` -/

/-- A map of values. -/
def mapValue {α : Type} (toValue : α → Value) (m : HashMap String α) : Value :=
  .object (m.entries.map fun e => (e.1, toValue e.2))

def OpenCodeModel.toValue (model : OpenCodeModel) : Value := .object [("name", .string model.name)]

def OpenCodeOptions.toValue (options : OpenCodeOptions) : Value :=
  .object [("apiKey", .string options.apiKey), ("baseURL", .string options.baseUrl)]

def OpenCodeProvider.toValue (provider : OpenCodeProvider) : Value :=
  .object [("name", .string provider.name), ("npm", .string provider.npm),
    ("models", mapValue OpenCodeModel.toValue provider.models),
    ("options", provider.options.toValue)]

namespace OpenCodeConfig

variable (self : OpenCodeConfig)

def toValue : Value :=
  .object [("$schema", .string self.schema), ("model", .string self.model),
    ("small_model", .string self.smallModel),
    ("provider", mapValue OpenCodeProvider.toValue self.provider)]

/-! ## `OpenCodeConfig::merge_with_existing` -/

/-- Puts the new value of a field into the existing document. -/
def update (existing : Value) (key : String) : Value :=
  match self.toValue.get key with
  | some v => existing.set key v
  | none => existing

/-- The merge of the values. -/
def merge (existing : Value) : Except String Value :=
  match existing with
  | .object _ =>
    .ok (self.update (self.update (self.update existing "model") "small_model") "provider")
  | _ => .error "Existing config is not an object"

/-- `OpenCodeConfig::merge_with_existing`. -/
def mergeWithExisting (json : JsonText) (existingJson : String) : Except String String :=
  match json.fromStr existingJson with
  | .error e => .error ("Failed to parse existing OpenCode config: " ++ e)
  | .ok existing => (self.merge existing).map json.toStringPretty

/-! ## The frame -/

/-- The fields of the router. -/
def ownFields : Set (List String) := {["model"], ["small_model"], ["provider"]}

/-- The fields of the router, and its entry among the providers. -/
def ownPaths : Set (List String) := {["model"], ["small_model"], ["provider", "router"]}

/-- What may be made for the entry. -/
def madePaths : Set (List String) := {["provider"]}

variable {self}

/-- The provider of a generated configuration. -/
theorem provider_of_generated {config : Config} {models : List EnrichedModel} {routerUrl : String}
    (h : fromRouterConfig config models routerUrl = .ok self) :
    ∃ router, self.toValue.get "provider" = some (.object [("router", router)]) := by
  unfold fromRouterConfig at h
  split at h
  · cases h
  · cases h
    exact ⟨_, rfl⟩

/-- The fields of a merged document. -/
theorem merge_eq (fields : List (String × Value)) {provider : Value}
    (hprovider : self.toValue.get "provider" = some provider) :
    ∃ fields', self.merge (.object fields) = .ok (.object fields') ∧
      ∀ key, fields'.lookup key =
        if key = "provider" then some provider
        else if key = "small_model" then some (.string self.smallModel)
        else if key = "model" then some (.string self.model)
        else fields.lookup key := by
  have hmodel : self.toValue.get "model" = some (.string self.model) := rfl
  have hsmall : self.toValue.get "small_model" = some (.string self.smallModel) := rfl
  refine ⟨Value.setField "provider" provider (Value.setField "small_model" (.string self.smallModel)
    (Value.setField "model" (.string self.model) fields)), ?_, fun key => ?_⟩
  · simp only [merge, update, hmodel, hsmall, hprovider, Value.set]
  · rw [Value.lookup_setField, Value.lookup_setField, Value.lookup_setField]

/-- The paths below a field. -/
theorem below_ownPaths (key : String) :
    DocKind.below key ownPaths =
      if key = "model" ∨ key = "small_model" then {[]}
      else if key = "provider" then {["router"]} else ∅ := by
  ext path
  simp only [DocKind.mem_below, ownPaths, Set.mem_insert_iff, Set.mem_singleton_iff,
    List.cons.injEq]
  split_ifs with hmodel hprovider
  · rcases hmodel with rfl | rfl <;> simp
  · subst hprovider
    simp
  · push Not at hmodel
    simp [hmodel, hprovider]

/-- Other fields than those of the router are kept. -/
theorem merge_ownFields {fields merged : List (String × Value)}
    (hother : ∀ key, key ≠ "provider" → key ≠ "small_model" → key ≠ "model" →
      merged.lookup key = fields.lookup key) :
    jsonDocs.SameExcept ownFields ∅ (some (.object fields)) (some (.object merged)) := by
  refine (sameExcept_object (by simp [ownFields])).mpr ⟨.inr ⟨fields, rfl⟩, fun key => ?_⟩
  by_cases hown : [key] ∈ ownFields
  · exact DocKind.sameExcept_of_nil_mem hown
  · simp only [ownFields, Set.mem_insert_iff, Set.mem_singleton_iff, List.cons.injEq, and_true,
      not_or] at hown
    rw [hother key hown.2.2 hown.2.1 hown.1]
    exact DocKind.sameExcept_refl _ _ _

/-- The entry of the router is all that changes if there is no other one. -/
theorem merge_ownPaths_iff {fields merged : List (String × Value)} {router : Value}
    (hlookup : ∀ key, merged.lookup key =
      if key = "provider" then some (.object [("router", router)])
      else if key = "small_model" then some (.string self.smallModel)
      else if key = "model" then some (.string self.model)
      else fields.lookup key) :
    jsonDocs.SameExcept ownPaths madePaths (some (.object fields)) (some (.object merged)) ↔
      OnlyField "router" (fields.lookup "provider") := by
  have hroot : [] ∉ ownPaths := by simp [ownPaths]
  rw [sameExcept_object hroot, and_iff_right (.inr ⟨fields, rfl⟩)]
  constructor
  · intro hall
    have hkey := hall "provider"
    rw [below_ownPaths, if_neg (by decide), if_pos rfl, hlookup, if_pos rfl] at hkey
    exact ((sameExcept_field (by simp [madePaths])).mp hkey).1
  · intro honly key
    rw [below_ownPaths, hlookup]
    by_cases hmodel : key = "model" ∨ key = "small_model"
    · rw [if_pos hmodel]
      exact DocKind.sameExcept_of_nil_mem rfl
    · push Not at hmodel
      rw [if_neg (by simpa using hmodel), if_neg hmodel.2, if_neg hmodel.1]
      by_cases hkey : key = "provider"
      · subst hkey
        rw [if_pos rfl, if_pos rfl]
        exact (sameExcept_field (by simp [madePaths])).mpr ⟨honly, DocKind.sameExcept_of_nil_mem rfl⟩
      · rw [if_neg hkey, if_neg hkey]
        exact DocKind.sameExcept_refl _ _ _

/-- **The merge into `opencode.json`.** It succeeds on every object; the model, the small model and the
providers become the generated ones, and all else is kept. All but the entry `router` of the providers is
kept exactly if there is nothing as `provider`, or an object without any other entry. -/
theorem opencode_merge_frame {config : Config} {models : List EnrichedModel} {routerUrl : String}
    (hgenerated : fromRouterConfig config models routerUrl = .ok self) {json : JsonText}
    {existingJson : String} {fields : List (String × Value)}
    (hexisting : json.fromStr existingJson = .ok (.object fields)) :
    ∃ merged, self.merge (.object fields) = .ok (.object merged) ∧
      self.mergeWithExisting json existingJson = .ok (json.toStringPretty (.object merged)) ∧
      (∀ key ∈ ["model", "small_model", "provider"],
        merged.lookup key = self.toValue.get key ∧ (merged.lookup key).isSome = true) ∧
      jsonDocs.SameExcept ownFields ∅ (some (.object fields)) (some (.object merged)) ∧
      (jsonDocs.SameExcept ownPaths madePaths (some (.object fields)) (some (.object merged)) ↔
        OnlyField "router" (fields.lookup "provider")) := by
  obtain ⟨router, hprovider⟩ := provider_of_generated hgenerated
  obtain ⟨merged, hmerge, hlookup⟩ := merge_eq fields hprovider
  refine ⟨merged, hmerge, ?_, ?_, merge_ownFields fun key hprovider hsmall hmodel => ?_,
    merge_ownPaths_iff hlookup⟩
  · rw [mergeWithExisting, hexisting]
    exact congrArg (Except.map json.toStringPretty) hmerge
  · simp only [List.forall_mem_cons, hlookup, hprovider]
    exact ⟨⟨rfl, rfl⟩, ⟨rfl, rfl⟩, ⟨rfl, rfl⟩, nofun⟩
  · rw [hlookup, if_neg hprovider, if_neg hsmall, if_neg hmodel]

end OpenCodeConfig

/-! ## A second provider -/

/-- A model of the gateway. -/
def gatewayModel : EnrichedModel where
  id := "GLM-5"
  providerId := "glm"
  canonicalId := "glm/GLM-5"
  displayName := "GLM-5 [glm]"

/-- What is generated for it. -/
def generatedOpencode : OpenCodeConfig where
  schema := "https://opencode.ai/config.json"
  model := "router/GLM-5"
  smallModel := "router/GLM-5"
  provider := HashMap.insert ∅ "router" {
    name := "Aperture Router"
    npm := "@ai-sdk/anthropic"
    models := HashMap.insertAll ∅ [("GLM-5", ⟨"GLM-5 [glm]"⟩)]
    options := { apiKey := "-", baseUrl := "http://127.0.0.1:8765/v1" } }

theorem generatedOpencode_eq :
    OpenCodeConfig.fromRouterConfig {} [gatewayModel] "http://127.0.0.1:8765" =
      .ok generatedOpencode := by
  rfl

/-- A document with a provider of the user. -/
def userOpencode : List (String × Value) :=
  [("provider", .object [("local", .object [("npm", .string "@ai-sdk/openai-compatible")])])]

def userText : String :=
  "\x7b\"provider\":\x7b\"local\":\x7b\"npm\":\"@ai-sdk/openai-compatible\"\x7d\x7d\x7d"

/-- The text of the merged document. -/
def mergedText : String := "\n".intercalate [
  "\x7b", "  \"model\": \"router/GLM-5\",", "  \"provider\": \x7b", "    \"router\": \x7b",
  "      \"models\": \x7b", "        \"GLM-5\": \x7b", "          \"name\": \"GLM-5 [glm]\"",
  "        \x7d", "      \x7d,", "      \"name\": \"Aperture Router\",",
  "      \"npm\": \"@ai-sdk/anthropic\",", "      \"options\": \x7b", "        \"apiKey\": \"-\",",
  "        \"baseURL\": \"http://127.0.0.1:8765/v1\"", "      \x7d", "    \x7d", "  \x7d,",
  "  \"small_model\": \"router/GLM-5\"", "\x7d"]

def userJson : JsonText := oneDocument userText (.object userOpencode) mergedText

theorem opencode_merge_frame_userOpencode :
    ∃ merged, generatedOpencode.merge (.object userOpencode) = .ok (.object merged) ∧
      generatedOpencode.mergeWithExisting userJson userText =
        .ok (userJson.toStringPretty (.object merged)) ∧
      (∀ key ∈ ["model", "small_model", "provider"],
        merged.lookup key = generatedOpencode.toValue.get key ∧
          (merged.lookup key).isSome = true) ∧
      jsonDocs.SameExcept OpenCodeConfig.ownFields ∅ (some (.object userOpencode))
        (some (.object merged)) ∧
      (jsonDocs.SameExcept OpenCodeConfig.ownPaths OpenCodeConfig.madePaths
          (some (.object userOpencode)) (some (.object merged)) ↔
        OnlyField "router" (userOpencode.lookup "provider")) :=
  OpenCodeConfig.opencode_merge_frame generatedOpencode_eq (oneDocument_fromStr ..)

/-- The provider of the user is gone. -/
theorem otherProvider_lost :
    ∃ merged, OpenCodeConfig.fromRouterConfig {} [gatewayModel] "http://127.0.0.1:8765" =
        .ok generatedOpencode ∧
      generatedOpencode.merge (.object userOpencode) = .ok (.object merged) ∧
      jsonDocs.valueAt (some (.object userOpencode)) ["provider", "local"] =
        some (.object [("npm", .string "@ai-sdk/openai-compatible")]) ∧
      jsonDocs.valueAt (some (.object merged)) ["provider", "local"] = none ∧
      ¬jsonDocs.SameExcept OpenCodeConfig.ownPaths OpenCodeConfig.madePaths
        (some (.object userOpencode)) (some (.object merged)) := by
  have hthere : jsonDocs.valueAt (some (.object userOpencode)) ["provider", "local"] =
      some (.object [("npm", .string "@ai-sdk/openai-compatible")]) := by rfl
  refine ⟨_, generatedOpencode_eq, rfl, hthere, by rfl, ?_⟩
  exact DocKind.not_sameExcept_of_gone (by simp [OpenCodeConfig.ownPaths]) hthere (by rfl)

end ApertureRouter
