import ApertureRouter.Lib.HashMap

/-!
# The provider registry

`RegistryInner` (`src/provider/registry.rs`): the providers and the route of each model, as the
configuration sets them up (`new`) and as discovery updates them (`updateFromDiscovery`).

* The lock around the registry is left out: an update holds it from its first line to its last.
* A hash set is the list of its elements: the source only asks whether a name is in it.
* A hash map that the source iterates over comes with an order (`IterOrder`): the groups of a
  snapshot (`Update.groupOrder`), and the providers (`Update.providerOrder`, and the argument of
  `getProvidersForModel`).
-/

namespace ApertureRouter

/-- `EndpointStyle`. -/
inductive EndpointStyle where
  | openaiV1
  | openaiDirect
  | anthropic
  deriving DecidableEq, Repr

/-- `Provider`. -/
structure Provider where
  name : String
  baseUrl : String
  apiKey : Option String
  endpointStyle : EndpointStyle
  models : List String
  enabled : Bool
  deriving DecidableEq, Repr

structure RegistryInner where
  providers : HashMap String Provider := ∅
  modelToProvider : HashMap String String := ∅
  staticProviders : List String := []
  disabledStaticProviders : List String := []

/-- The arguments of a call of `update_from_discovery`, and the orders of its loops. -/
structure Update where
  modelsByProvider : HashMap String (List String)
  apertureUrl : String
  groupOrder : IterOrder String (List String)
  providerOrder : IterOrder String Provider

namespace RegistryInner

/-! ## From the configuration -/

/-- Routes each of `models` to `name`, whatever their routes are. -/
def routeAll (name : String) (models : List String) (routes : HashMap String String) :
    HashMap String String :=
  routes.insertAll (models.map fun model => (model, name))

/-- One provider of the configuration. -/
def addConfigured (inner : RegistryInner) (provider : Provider) : RegistryInner :=
  if provider.enabled then
    { inner with
      modelToProvider := routeAll provider.name provider.models inner.modelToProvider
      staticProviders := provider.name :: inner.staticProviders
      providers := inner.providers.insert provider.name provider }
  else { inner with disabledStaticProviders := provider.name :: inner.disabledStaticProviders }

/-- `ProviderRegistry::new`. -/
def new (providers : List Provider) : RegistryInner := providers.foldl addConfigured {}

/-! ## From discovery -/

/-- A provider stays if the snapshot has a group of its name or the configuration has it. -/
def stays (u : Update) (inner : RegistryInner) (name : String) : Bool :=
  name ∈ u.modelsByProvider || name ∈ inner.staticProviders

/-- Removes what the snapshot does not mention. -/
def removeStale (u : Update) (inner : RegistryInner) : RegistryInner :=
  { inner with
    providers := inner.providers.retain fun name _ => inner.stays u name
    modelToProvider := inner.modelToProvider.retain fun _ provider => inner.stays u provider }

/-- The endpoint style of an auto-added provider: most of its models have a vendor in their id. -/
def inferredStyle (modelIds : List String) : EndpointStyle :=
  if modelIds.length < (modelIds.filter fun m => m.contains '/').length * 2 then .openaiV1
  else .openaiDirect

/-- A provider that discovery adds. -/
def autoProvider (apertureUrl providerId : String) (modelIds : List String) : Provider where
  name := providerId
  baseUrl := apertureUrl
  apiKey := none
  endpointStyle := inferredStyle modelIds
  models := modelIds
  enabled := true

/-- The provider of a group: a new one, or a new model list if it was auto-added before. -/
def addProvider (apertureUrl providerId : String) (modelIds : List String)
    (inner : RegistryInner) : RegistryInner :=
  match inner.providers.get providerId with
  | none => { inner with
      providers := inner.providers.insert providerId (autoProvider apertureUrl providerId modelIds) }
  | some provider =>
    if providerId ∉ inner.staticProviders then
      { inner with providers := inner.providers.insert providerId { provider with models := modelIds } }
    else inner

/-- The route of a model of a group. A route that is there stays. -/
def routeModel (providerId : String) (inner : RegistryInner) (modelId : String) : RegistryInner :=
  match inner.modelToProvider.get modelId with
  | some _ => inner
  | none => { inner with modelToProvider := inner.modelToProvider.insert modelId providerId }

/-- One group of a snapshot. -/
def addGroup (apertureUrl : String) (inner : RegistryInner)
    (group : Sigma fun _ : String => List String) : RegistryInner :=
  if group.1 ∈ inner.disabledStaticProviders then inner
  else group.2.foldl (routeModel group.1) (addProvider apertureUrl group.1 group.2 inner)

/-- The models of the providers that have no route, each with its provider. -/
def manualEntries (order : IterOrder String Provider) (inner : RegistryInner) :
    List (String × String) :=
  (order.list inner.providers).flatMap fun e =>
    (e.2.models.filter fun m => m ∉ inner.modelToProvider).map fun m => (m, e.1)

/-- Makes every model of a provider routable. -/
def routeManual (order : IterOrder String Provider) (inner : RegistryInner) : RegistryInner :=
  { inner with modelToProvider := inner.modelToProvider.insertAll (inner.manualEntries order) }

/-- The models of all providers. -/
def allValidModels (inner : RegistryInner) : List String :=
  inner.providers.values.flatMap (·.models)

/-- Removes the routes of unknown models and to unknown providers. -/
def pruneRoutes (inner : RegistryInner) : RegistryInner :=
  { inner with
    modelToProvider := inner.modelToProvider.retain fun model providerId =>
      model ∈ inner.allValidModels && providerId ∈ inner.providers }

/-- `update_from_discovery`. -/
def updateFromDiscovery (inner : RegistryInner) (u : Update) : RegistryInner :=
  let inner := inner.removeStale u
  let inner := (u.groupOrder.list u.modelsByProvider).foldl (addGroup u.apertureUrl) inner
  (inner.routeManual u.providerOrder).pruneRoutes

/-- The registry of a configuration after a history of updates. -/
def afterUpdates (providers : List Provider) (updates : List Update) : RegistryInner :=
  updates.foldl updateFromDiscovery (new providers)

/-! ## Queries -/

/-- `get_provider_for_model`. -/
def getProviderForModel (inner : RegistryInner) (model : String) : Option Provider :=
  inner.modelToProvider.get model >>= inner.providers.get

/-- `get_providers_for_model`: the provider that the model is routed to, then the others that list
it. -/
def getProvidersForModel (order : IterOrder String Provider) (inner : RegistryInner)
    (model : String) : List Provider :=
  let routed := ((inner.getProviderForModel model).filter (·.enabled)).toList
  (order.list inner.providers).foldl (fun result e =>
    if e.2.enabled ∧ model ∈ e.2.models ∧ ∀ r ∈ result, r.name ≠ e.2.name then result ++ [e.2]
    else result) routed

end RegistryInner

end ApertureRouter
