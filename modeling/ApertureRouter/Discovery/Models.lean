import ApertureRouter.Lib.Locks
import ApertureRouter.Provider.Registry
import Mathlib.Data.Fintype.Basic

/-!
# Model discovery

`ModelDiscovery` (`src/discovery/models.rs`): what a response of the gateway says (`processModels`),
and the tasks that share it. `process_models_response` writes each of its maps under its own lock;
`get_snapshot` reads them under theirs.

* A refresh is `process_models_response` and then `update_from_discovery` with the snapshot that it
  returned, as the background task and `POST /admin/refresh-models` run it. A refresh whose fetch
  fails does nothing here.
* What a refresh compares with the old maps is only logged: of this there are the locks.
* A hash set is a hash map to `Unit`. The order in which a snapshot lists its models and its
  providers is part of the job.
-/

namespace ApertureRouter

open Locks

/-! ## What a response says -/

/-- `Model`. -/
structure Model where
  id : String
  object : String
  created : UInt64
  ownedBy : String
  providerId : Option String
  deriving DecidableEq, Repr

/-- `ProviderInfo`. -/
structure ProviderInfo where
  id : Option String := none

/-- `ModelMetadata`. -/
structure ModelMetadata where
  provider : Option ProviderInfo := none

/-- `ApiModel`. -/
structure ApiModel where
  id : String
  object : Option String := none
  created : Option UInt64 := none
  ownedBy : Option String := none
  metadata : Option ModelMetadata := none

/-- `validate_discovered_id`. -/
def validateDiscoveredId (id : String) : Except String Unit :=
  let maxIdLen := 256
  if id.isEmpty then .error "empty id"
  else if maxIdLen < id.utf8ByteSize then .error s!"id exceeds {maxIdLen} bytes"
  else if "..".toList <:+: id.toList then .error "id contains path traversal sequence '..'"
  else if id.toList.all fun c => c.isAlphanum || c ∈ ['-', '_', '.', '/', ':'] then .ok ()
  else .error "id contains characters outside [A-Za-z0-9-_./:]"

/-- The maps that a response is made into. -/
structure Discovered where
  models : HashMap String Model := ∅
  modelsByProvider : HashMap String (List String) := ∅
  providers : HashMap String Unit := ∅

/-- The provider that the gateway names, or `default`. -/
def ApiModel.provider (apiModel : ApiModel) : String :=
  let rawProviderId := (apiModel.metadata >>= (·.provider) >>= (·.id)).getD "default"
  match validateDiscoveredId rawProviderId with
  | .ok () => rawProviderId
  | .error _ => "default"

/-- One model of a response. A model with an invalid id is skipped. -/
def Discovered.add (d : Discovered) (apiModel : ApiModel) : Discovered :=
  match validateDiscoveredId apiModel.id with
  | .error _ => d
  | .ok () =>
    let providerId := apiModel.provider
    let model : Model := {
      id := apiModel.id
      object := apiModel.object.getD "model"
      created := apiModel.created.getD 0
      ownedBy := apiModel.ownedBy.getD providerId
      providerId := some providerId }
    { models := d.models.insert model.id model
      modelsByProvider := d.modelsByProvider.insert providerId
        ((d.modelsByProvider.get providerId).getD [] ++ [apiModel.id])
      providers := d.providers.insert providerId () }

/-- The loop of `process_models_response`. -/
def processModels (data : List ApiModel) : Discovered := data.foldl Discovered.add {}

/-- `MAX_MODELS_PER_SNAPSHOT`. -/
def maxModelsPerSnapshot : Nat := 10000

/-! ## Snapshots -/

/-- `DiscoverySnapshot`. -/
structure DiscoverySnapshot where
  models : List Model
  providers : List String
  modelsByProvider : HashMap String (List String)
  refreshedAt : UInt64

/-- What the tasks share: the fields of `ModelDiscovery`, and the registry. -/
structure Shared extends Discovered where
  lastRefresh : UInt64 := 0
  registry : RegistryInner

/-- The locks. -/
inductive Cell where
  | models
  | modelsByProvider
  | providers
  | lastRefresh
  | registry
  deriving DecidableEq, Repr

/-- The orders in which a snapshot lists its models and its providers. -/
structure SnapshotOrder where
  models : IterOrder String Model
  providers : IterOrder String Unit

/-- The value that `get_snapshot` returns. -/
def snapshotOf (order : SnapshotOrder) (d : Shared) : DiscoverySnapshot where
  models := (order.models.list d.models).map (·.2)
  providers := (order.providers.list d.providers).map (·.1)
  modelsByProvider := d.modelsByProvider
  refreshedAt := d.lastRefresh

/-! ## The tasks -/

/-- A program of the router. -/
abbrev Task := Program Cell Shared DiscoverySnapshot

/-- `get_snapshot`: its guards are dropped at its end, the last one first. -/
def getSnapshot (order : SnapshotOrder) : Task :=
  [.read .models, .read .providers, .read .modelsByProvider, .read .lastRefresh,
    .get (snapshotOf order),
    .release .lastRefresh, .release .modelsByProvider, .release .providers, .release .models]

/-- The comparison with the old maps. -/
def detectChanges : Task :=
  [.read .models, .read .providers, .release .providers, .release .models]

/-- The new maps are written, each under its own lock, and then the time. -/
def updateState (new : Discovered) (now : UInt64) : Task :=
  [.write .models, .put .models fun _ d => { d with models := new.models }, .release .models,
    .write .modelsByProvider,
    .put .modelsByProvider fun _ d => { d with modelsByProvider := new.modelsByProvider },
    .release .modelsByProvider,
    .write .providers, .put .providers fun _ d => { d with providers := new.providers },
    .release .providers,
    .write .lastRefresh, .put .lastRefresh fun _ d => { d with lastRefresh := now },
    .release .lastRefresh]

/-- The number of providers is logged. -/
def logProviders : Task := [.read .providers, .release .providers]

/-- A call of `process_models_response`: the response, and the clock at its end. -/
structure Response where
  data : List ApiModel
  now : UInt64
  order : SnapshotOrder

/-- `process_models_response`, for a response within the limit. -/
def processModelsResponse (r : Response) : Task :=
  detectChanges ++ updateState (processModels r.data) r.now ++ logProviders ++ getSnapshot r.order

/-- How a refresh updates the registry. -/
structure Sync where
  apertureUrl : String
  groupOrder : IterOrder String (List String)
  providerOrder : IterOrder String Provider

/-- The arguments of `update_from_discovery` for a snapshot. -/
def Sync.update (sync : Sync) (snapshot : DiscoverySnapshot) : Update where
  modelsByProvider := snapshot.modelsByProvider
  apertureUrl := sync.apertureUrl
  groupOrder := sync.groupOrder
  providerOrder := sync.providerOrder

/-- The data with the registry updated from a snapshot. -/
def Sync.publish (sync : Sync) : Option DiscoverySnapshot → Shared → Shared
  | some snapshot, d =>
    { d with registry := d.registry.updateFromDiscovery (sync.update snapshot) }
  | none, d => d

/-- `update_from_discovery` with the snapshot that the refresh has got. -/
def updateRegistry (sync : Sync) : Task :=
  [.write .registry, .put .registry sync.publish, .release .registry]

/-- What runs at the same time: refreshes, and other calls of `get_snapshot`. -/
inductive Job where
  | refresh (r : Response) (sync : Sync)
  | snapshot (order : SnapshotOrder)

/-- The program of a job. A response over the limit is refused. -/
def Job.task : Job → Task
  | refresh r sync =>
    if maxModelsPerSnapshot < r.data.length then []
    else processModelsResponse r ++ updateRegistry sync
  | snapshot order => getSnapshot order

/-- The router at its start, and its jobs. -/
def discoveryStart {τ : Type} (providers : List Provider) (jobs : τ → Job) :
    State Cell τ Shared DiscoverySnapshot where
  data := { registry := .new providers }
  todo t := (jobs t).task

/-! ## The maps of a response match -/

/-- The models are those of the groups, and the providers are their names. -/
structure Discovered.Matching (d : Discovered) : Prop where
  models : ∀ id, id ∈ d.models ↔ ∃ name ids, d.modelsByProvider.get name = some ids ∧ id ∈ ids
  ids : ∀ id model, d.models.get id = some model → model.id = id
  providers : ∀ name, name ∈ d.providers ↔ name ∈ d.modelsByProvider

theorem Discovered.matching_empty : Matching {} where
  models id := by simp
  ids id model h := by cases h
  providers name := Iff.rfl

theorem Discovered.Matching.add {d : Discovered} (h : d.Matching) (apiModel : ApiModel) :
    (d.add apiModel).Matching := by
  unfold Discovered.add
  cases validateDiscoveredId apiModel.id with
  | error e => exact h
  | ok u =>
    generalize apiModel.provider = name
    constructor
    · intro id
      simp only [HashMap.mem_insert, h.models, HashMap.get_insert]
      constructor
      · rintro (rfl | ⟨name', ids, hget, hid⟩)
        · exact ⟨name, _, if_pos rfl, by simp⟩
        · by_cases hname : name' = name
          · subst hname
            exact ⟨name', _, if_pos rfl, by simp [hget, hid]⟩
          · exact ⟨name', ids, by rw [if_neg hname, hget], hid⟩
      · rintro ⟨name', ids, hget, hid⟩
        split at hget
        · obtain rfl := Option.some.inj hget
          rcases List.mem_append.mp hid with hid | hid
          · cases hold : d.modelsByProvider.get name with
            | none =>
              rw [hold] at hid
              cases hid
            | some ids =>
              rw [hold] at hid
              exact .inr ⟨name, ids, hold, hid⟩
          · exact .inl (List.mem_singleton.mp hid)
        · exact .inr ⟨name', ids, hget, hid⟩
    · intro id model hmodel
      rw [HashMap.get_insert] at hmodel
      split at hmodel
      · rename_i hid
        rw [← Option.some.inj hmodel, hid]
      · exact h.ids id model hmodel
    · intro name'
      simp only [HashMap.mem_insert, h.providers]

/-- **The loop.** -/
theorem matching_processModels (data : List ApiModel) : (processModels data).Matching := by
  unfold processModels
  induction data using List.reverseRecOn with
  | nil => exact Discovered.matching_empty
  | append_singleton data apiModel ih =>
    rw [List.foldl_append, List.foldl_cons, List.foldl_nil]
    exact ih.add apiModel

end ApertureRouter
