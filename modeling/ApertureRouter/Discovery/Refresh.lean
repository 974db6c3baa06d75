import ApertureRouter.Config
import ApertureRouter.Discovery.Fetch

/-!
# Refreshes

A refresh fetches the models, writes them down and updates the registry with the snapshot: the
background task (`start_refresh_task`, `src/discovery/models.rs`) and `POST /admin/refresh-models`
(`src/routes/admin.rs`) do so one after the other here. Their interleavings are those of the programs of
`Discovery.Models`; `refresh_eq_task` says that a refresh is such a program, run alone.

* `refreshes_published`: after any run of refreshes, whatever the gateway replies, discovery has what the
  last successful one has fetched, and a model is routed if the configuration or a group of it lists it.
* `stats_exact`: what `GET /admin/stats` counts then.
-/

namespace ApertureRouter

open Locks Locks.State

/-- What a refresh meets: the replies of the gateway, the clock at its end, and the orders of the maps. -/
structure Refresh where
  replies : Nat → FetchReply
  now : UInt64
  order : SnapshotOrder
  groupOrder : IterOrder String (List String)
  providerOrder : IterOrder String Provider

/-- How the refresh updates the registry. -/
def Refresh.sync (r : Refresh) (aperture : ApertureConfig) : Sync where
  apertureUrl := aperture.baseUrl
  groupOrder := r.groupOrder
  providerOrder := r.providerOrder

/-- The maps and the time are written. -/
def Shared.store (d : Shared) (new : Discovered) (now : UInt64) : Shared :=
  { d with toDiscovered := new, lastRefresh := now }

namespace FetchEnv

variable (env : FetchEnv) (aperture : ApertureConfig)

/-- What the fetch of a refresh gives. -/
def fetched (r : Refresh) : Except String Discovered :=
  (env.fetchModels aperture.baseUrl aperture.apiKey).run r.replies

/-- `fetch_models`, and `update_from_discovery` with its snapshot. -/
def refresh (r : Refresh) (d : Shared) : Except String DiscoverySnapshot × Shared :=
  match env.fetched aperture r with
  | .error e => (.error e, d)
  | .ok new =>
    let d := d.store new r.now
    let snapshot := snapshotOf r.order d
    (.ok snapshot, (r.sync aperture).publish (some snapshot) d)

/-- After a run of refreshes, the last one first. -/
def afterRefreshes (providers : List Provider) (run : List Refresh) : Shared :=
  run.foldr (fun r d => (env.refresh aperture r d).2) { registry := .new providers }

/-- A refresh is the program of its job, run alone from any state. -/
theorem refresh_eq_task (r : Refresh) (d : Shared) {data : List ApiModel}
    (hfetched : env.fetched aperture r = .ok (processModels data))
    (hlimit : data.length ≤ maxModelsPerSnapshot) :
    let job : Job := .refresh ⟨data, r.now, r.order⟩ (r.sync aperture)
    let start : State Cell Unit Shared DiscoverySnapshot := { data := d, todo := fun _ => job.task }
    ∃ s snapshot, start.runAll (List.replicate job.task.length ()) = some s ∧ s.todo () = [] ∧
      s.got () = some snapshot ∧ env.refresh aperture r d = (.ok snapshot, s.data) := by
  have htask : (Job.refresh ⟨data, r.now, r.order⟩ (r.sync aperture)).task =
      processModelsResponse ⟨data, r.now, r.order⟩ ++ updateRegistry (r.sync aperture) :=
    if_neg (Nat.not_lt.mpr hlimit)
  rw [refresh, hfetched]
  intro job start
  simp only [start, job, htask]
  exact ⟨_, _, rfl, rfl, rfl, rfl⟩

end FetchEnv

/-! ## The routes of an administrator -/

/-- `ModelInfo`. -/
structure ModelInfo where
  id : String
  provider : Option String
  deriving DecidableEq, Repr

/-- `RefreshResponse`. -/
structure RefreshResponse where
  success : Bool
  message : String
  modelsCount : Nat
  providersCount : Nat
  providers : List String
  models : List ModelInfo
  deriving DecidableEq, Repr

/-- What `refresh_models` says about a refresh: the status and the response. -/
def refreshAnswer : Except String DiscoverySnapshot → Nat × RefreshResponse
  | .ok snapshot => (200,
    { success := true
      message := "Successfully refreshed " ++ toString snapshot.models.length ++ " models from " ++
        toString snapshot.providers.length ++ " providers"
      modelsCount := snapshot.models.length
      providersCount := snapshot.providers.length
      providers := snapshot.providers
      models := snapshot.models.map fun m => { id := m.id, provider := m.providerId } })
  | .error _ => (500,
    { success := false
      message := "Failed to refresh models from Aperture gateway"
      modelsCount := 0
      providersCount := 0
      providers := []
      models := [] })

/-- `ProviderStats`. -/
structure ProviderStats where
  name : String
  modelsCount : Nat
  deriving DecidableEq, Repr

/-- `StatsResponse`. -/
structure StatsResponse where
  modelsCount : Nat
  providersCount : Nat
  providers : List ProviderStats
  version : String
  refreshIntervalSecs : Nat
  deriving DecidableEq, Repr

/-- `CARGO_PKG_VERSION`. -/
def version : String := "0.3.4"

/-- `get_stats`, with the snapshot that it takes. -/
def getStats (aperture : ApertureConfig) (groupOrder : IterOrder String (List String))
    (snapshot : DiscoverySnapshot) : StatsResponse where
  modelsCount := snapshot.models.length
  providersCount := snapshot.providers.length
  providers := (groupOrder.list snapshot.modelsByProvider).map fun e =>
    { name := e.1, modelsCount := e.2.length }
  version := version
  refreshIntervalSecs := aperture.modelRefreshIntervalSecs

/-- The models of `GET /v1/models`: `get_models`. -/
def getModels (order : IterOrder String Model) (d : Shared) : List Model :=
  (order.list d.models).map (·.2)

/-! ## What is published -/

namespace RegistryInner

variable {providers : List Provider} {inner : RegistryInner}

/-- A registry that is current lists the models of the configuration and those of the groups. -/
theorem Current.lists_iff {groups : HashMap String (List String)} (h : inner.Current providers groups)
    (hframes : (new providers).Frames inner) (hn : (providers.map (·.name)).Nodup) {model : String} :
    inner.Lists model ↔ (∃ p ∈ providers, p.enabled = true ∧ model ∈ p.models) ∨
      ∃ name ids, groups.get name = some ids ∧ name ∉ providers.map (·.name) ∧ model ∈ ids := by
  have hconfigured := configured_new hn
  constructor
  · rintro ⟨name, p, hp, hmodel⟩
    by_cases hstatic : name ∈ inner.staticProviders
    · rw [hframes.staticProviders] at hstatic
      rw [hframes.provider name hstatic] at hp
      obtain ⟨hmem, henabled, -⟩ := (hconfigured.table name p).mp hp
      exact .inl ⟨p, hmem, henabled, hmodel⟩
    · obtain ⟨hget, hname⟩ := (h name p.models).mp ⟨p, hp, hstatic, rfl⟩
      exact .inr ⟨name, p.models, hget, hname, hmodel⟩
  · rintro (⟨p, hmem, henabled, hmodel⟩ | ⟨name, ids, hget, hname, hmodel⟩)
    · have hstatic : p.name ∈ (new providers).staticProviders :=
        (hconfigured.names p.name).mpr ⟨p, hmem, henabled, rfl⟩
      refine ⟨p.name, p, ?_, hmodel⟩
      rw [hframes.provider p.name hstatic]
      exact (hconfigured.table p.name p).mpr ⟨hmem, henabled, rfl⟩
    · obtain ⟨p, hp, -, rfl⟩ := (h name ids).mpr ⟨hget, hname⟩
      exact ⟨name, p, hp, hmodel⟩

end RegistryInner

namespace FetchEnv

variable {env : FetchEnv} {aperture : ApertureConfig} {providers : List Provider}

/-- What the last successful refresh of a run has fetched, and when. -/
def lastFetched (env : FetchEnv) (aperture : ApertureConfig) (run : List Refresh) :
    Option (Discovered × UInt64) :=
  run.findSome? fun r => (env.fetched aperture r).toOption.map fun new => (new, r.now)

/-- What is fetched was made from a response. -/
theorem exists_of_fetched {r : Refresh} {new : Discovered} (h : env.fetched aperture r = .ok new) :
    ∃ data, new = processModels data := by
  unfold fetched fetchModels at h
  cases hurl : env.modelsUrl aperture.baseUrl with
  | error e =>
    rw [hurl] at h
    cases h
  | ok url =>
    rw [hurl] at h
    obtain ⟨i, -, -, hjudge⟩ := run_fetchFrom_ok_iff.mp h
    cases hreply : r.replies i with
    | error e =>
      rw [hreply] at hjudge
      cases hjudge
    | ok response =>
      rw [hreply, judge] at hjudge
      split at hjudge
      · split at hjudge
        · cases hjudge
        · cases hjudge
      · cases hread : env.readModels response with
        | error e =>
          rw [hread] at hjudge
          cases hjudge
        | ok data =>
          rw [hread] at hjudge
          have hpublished : publishedModels data = .ok new := Except.ok.inj hjudge
          unfold publishedModels at hpublished
          split at hpublished
          · cases hpublished
          · exact ⟨data, (Except.ok.inj hpublished).symm⟩

/-- What every refresh keeps. -/
structure RefreshInv (env : FetchEnv) (aperture : ApertureConfig) (providers : List Provider)
    (run : List Refresh) (d : Shared) : Prop where
  published : (d.toDiscovered, d.lastRefresh) = (env.lastFetched aperture run).getD ({}, 0)
  matching : d.Matching
  framed : d.registry.Framed
  frames : (RegistryInner.new providers).Frames d.registry
  names : d.registry.Names providers
  current : d.registry.Current providers d.modelsByProvider

theorem RefreshInv.step {run : List Refresh} {d : Shared} (h : RefreshInv env aperture providers run d)
    (r : Refresh) : RefreshInv env aperture providers (r :: run) (env.refresh aperture r d).2 := by
  unfold refresh
  cases hfetched : env.fetched aperture r with
  | error e =>
    refine ⟨h.published.trans ?_, h.matching, h.framed, h.frames, h.names, h.current⟩
    rw [lastFetched, lastFetched, List.findSome?_cons, hfetched]
    rfl
  | ok new =>
    obtain ⟨data, rfl⟩ := exists_of_fetched hfetched
    refine ⟨?_, matching_processModels data, h.framed.updateFromDiscovery _,
      h.frames.trans (h.framed.frames_update _), h.names.updateFromDiscovery _,
      h.names.current_update _⟩
    rw [lastFetched, List.findSome?_cons, hfetched]
    rfl

theorem refreshInv (env : FetchEnv) (aperture : ApertureConfig)
    (hn : (providers.map (·.name)).Nodup) (run : List Refresh) :
    RefreshInv env aperture providers run (env.afterRefreshes aperture providers run) := by
  induction run with
  | nil =>
    exact ⟨rfl, Discovered.matching_empty, RegistryInner.framed_new hn, .refl _,
      RegistryInner.names_new providers, RegistryInner.current_new providers⟩
  | cons r run ih => exact ih.step r

/-- **Refreshes.** After any run of refreshes, whatever the gateway has replied, the maps and the time are
those of the last successful one, a snapshot is consistent, and a model can be routed exactly if an
enabled provider of the configuration lists it, or a group with a name that the configuration does not
use. -/
theorem refreshes_published (env : FetchEnv) (aperture : ApertureConfig) (providers : List Provider)
    (hn : (providers.map (·.name)).Nodup) (run : List Refresh) :
    let d := env.afterRefreshes aperture providers run
    (d.toDiscovered, d.lastRefresh) = (env.lastFetched aperture run).getD ({}, 0) ∧
      (∀ order, (snapshotOf order d).Consistent) ∧
      ∀ order model, d.registry.getProvidersForModel order model ≠ [] ↔
        (∃ p ∈ providers, p.enabled = true ∧ model ∈ p.models) ∨
          ∃ name ids, d.modelsByProvider.get name = some ids ∧ name ∉ providers.map (·.name) ∧
            model ∈ ids := by
  have h := refreshInv env aperture hn run
  refine ⟨h.published, h.matching.consistent, fun order model => ?_⟩
  exact (h.framed.toComplete.getProvidersForModel order model).1.trans
    (h.current.lists_iff h.frames hn)

/-! ## What is counted -/

/-- The models of a response that are published. -/
def publishable (data : List ApiModel) : List ApiModel :=
  data.filter fun apiModel => (validateDiscoveredId apiModel.id).isOk

theorem publishable_append (data : List ApiModel) (apiModel : ApiModel) :
    publishable (data ++ [apiModel]) =
      publishable data ++ if (validateDiscoveredId apiModel.id).isOk then [apiModel] else [] := by
  rw [publishable, List.filter_append, List.filter_singleton, Bool.cond_eq_ite]
  rfl

theorem processModels_append (data : List ApiModel) (apiModel : ApiModel) :
    processModels (data ++ [apiModel]) = (processModels data).add apiModel := by
  rw [processModels, List.foldl_append]
  rfl

/-- The keys of the maps: each id and each provider once. The groups list each model as often as the
response does. -/
theorem processModels_count (data : List ApiModel) :
    (∀ id, id ∈ (processModels data).models ↔ id ∈ (publishable data).map (·.id)) ∧
      (∀ name, name ∈ (processModels data).providers ↔
        name ∈ (publishable data).map (·.provider)) ∧
      ((processModels data).modelsByProvider.entries.map fun e => e.2.length).sum =
        (publishable data).length := by
  induction data using List.reverseRecOn with
  | nil => exact ⟨fun id => by simp [processModels, publishable],
      fun name => by simp [processModels, publishable], rfl⟩
  | append_singleton data apiModel ih =>
    obtain ⟨hmodels, hproviders, hgroups⟩ := ih
    rw [processModels_append, publishable_append, Discovered.add]
    cases validateDiscoveredId apiModel.id with
    | error e =>
      simp only [Except.isOk, Except.toBool, Bool.false_eq_true, if_false, List.append_nil]
      exact ⟨hmodels, hproviders, hgroups⟩
    | ok u =>
      simp only [Except.isOk, Except.toBool, if_true, List.map_append, List.mem_append,
        List.length_append, HashMap.mem_insert, hmodels, hproviders]
      refine ⟨fun id => ?_, fun name => ?_, ?_⟩
      · simp [or_comm]
      · simp [or_comm]
      · have hsum := HashMap.sum_insert (processModels data).modelsByProvider apiModel.provider
          (((processModels data).modelsByProvider.get apiModel.provider).getD [] ++ [apiModel.id])
          List.length
        have hold : (((processModels data).modelsByProvider.get apiModel.provider).map
            List.length).getD 0 =
          (((processModels data).modelsByProvider.get apiModel.provider).getD []).length := by
          cases (processModels data).modelsByProvider.get apiModel.provider <;> rfl
        rw [hold, hgroups, List.length_append] at hsum
        simp only [List.length_singleton] at hsum ⊢
        omega

/-- A map with the keys of a list has as many entries as the list has elements, each counted once. -/
theorem length_entries_eq_dedup {ν : Type} {m : HashMap String ν} {l : List String}
    (h : ∀ k, k ∈ m ↔ k ∈ l) : m.entries.length = l.dedup.length := by
  have hlen : m.entries.length = m.keys.length := HashMap.len_eq_keys m
  rw [hlen]
  refine ((List.perm_ext_iff_of_nodup m.keys_nodup l.nodup_dedup).mpr fun k => ?_).length_eq
  rw [List.mem_dedup, ← h]
  exact AList.mem_keys.symm

/-- Failed refreshes leave the maps alone. -/
theorem afterRefreshes_failed {later run : List Refresh}
    (h : ∀ r ∈ later, ∃ e, env.fetched aperture r = .error e) :
    env.afterRefreshes aperture providers (later ++ run) = env.afterRefreshes aperture providers run := by
  induction later with
  | nil => rfl
  | cons r later ih =>
    obtain ⟨⟨e, he⟩, hlater⟩ := List.forall_mem_cons.mp h
    show (env.refresh aperture r (env.afterRefreshes aperture providers (later ++ run))).2 = _
    rw [ih hlater, refresh, he]

/-- **Stats.** After a successful refresh and any number of failed ones, the stats count the ids of the
response that are valid, and the providers of these, each once; the counts of the providers add up to
the number of entries with a valid id. -/
theorem stats_exact (env : FetchEnv) (aperture : ApertureConfig) (providers : List Provider)
    {r : Refresh} {data : List ApiModel} (h : env.fetched aperture r = .ok (processModels data))
    {later : List Refresh} (hlater : ∀ r' ∈ later, ∃ e, env.fetched aperture r' = .error e)
    (run : List Refresh) (order : SnapshotOrder) (groupOrder : IterOrder String (List String)) :
    let stats := getStats aperture groupOrder
      (snapshotOf order (env.afterRefreshes aperture providers (later ++ r :: run)))
    stats.modelsCount = ((publishable data).map (·.id)).dedup.length ∧
      stats.providersCount = ((publishable data).map (·.provider)).dedup.length ∧
      (stats.providers.map (·.modelsCount)).sum = (publishable data).length ∧
      (stats.providers.map (·.name)).Perm ((publishable data).map (·.provider)).dedup := by
  rw [afterRefreshes_failed hlater]
  obtain ⟨hmodels, hproviders, hgroups⟩ := processModels_count data
  have hmatching := matching_processModels data
  have hstate : (env.afterRefreshes aperture providers (r :: run)).toDiscovered =
      processModels data := by
    show (env.refresh aperture r (env.afterRefreshes aperture providers run)).2.toDiscovered = _
    rw [refresh, h]
    rfl
  generalize env.afterRefreshes aperture providers (r :: run) = d at hstate
  have hd : d.models = (processModels data).models ∧ d.providers = (processModels data).providers ∧
      d.modelsByProvider = (processModels data).modelsByProvider := by
    rw [← hstate]
    exact ⟨rfl, rfl, rfl⟩
  simp only [getStats, snapshotOf, List.length_map, List.map_map, hd.1, hd.2.1, hd.2.2,
    (order.models.perm _).length_eq, (order.providers.perm _).length_eq]
  refine ⟨length_entries_eq_dedup hmodels, length_entries_eq_dedup hproviders, ?_, ?_⟩
  · rw [← hgroups]
    exact ((groupOrder.perm _).map _).sum_nat
  · refine ((groupOrder.perm _).map _).trans ?_
    refine (List.perm_ext_iff_of_nodup (processModels data).modelsByProvider.keys_nodup
      (List.nodup_dedup _)).mpr fun name => ?_
    rw [List.mem_dedup, ← hproviders, hmatching.providers]
    exact AList.mem_keys.symm

/-! ## A refresh that fails -/

/-- A gateway whose response has one model. -/
def sampleFetchEnv : FetchEnv where
  parseUrl _ := .ok ⟨"http", none⟩
  join baseUrl path := .ok (baseUrl ++ path)
  statusText _ := "200 OK"
  decode _ := .ok (sampleResponse "m" "a").data

def sampleAperture : ApertureConfig := { baseUrl := "http://aperture/" }

/-- A refresh with the same reply to all requests. -/
def sampleRefresh (reply : FetchReply) : Refresh where
  replies _ := reply
  now := 1
  order := sampleOrder
  groupOrder := .entries
  providerOrder := .entries

/-- The gateway answers, and then does not. -/
def answeredOnce : List Refresh :=
  [sampleRefresh (.error "connection refused"), sampleRefresh (.ok ⟨200, none, []⟩)]

theorem refreshes_published_answeredOnce :
    let d := sampleFetchEnv.afterRefreshes sampleAperture RegistryInner.sampleProviders answeredOnce
    (d.toDiscovered, d.lastRefresh) =
        (sampleFetchEnv.lastFetched sampleAperture answeredOnce).getD ({}, 0) ∧
      (∀ order, (snapshotOf order d).Consistent) ∧
      ∀ order model, d.registry.getProvidersForModel order model ≠ [] ↔
        (∃ p ∈ RegistryInner.sampleProviders, p.enabled = true ∧ model ∈ p.models) ∨
          ∃ name ids, d.modelsByProvider.get name = some ids ∧
            name ∉ RegistryInner.sampleProviders.map (·.name) ∧ model ∈ ids :=
  refreshes_published sampleFetchEnv sampleAperture RegistryInner.sampleProviders (by decide)
    answeredOnce

/-- An id twice, from two providers, one that is not valid, and a second one. -/
def repeatedData : List ApiModel :=
  [("m", "a"), ("m", "b"), ("not valid", "c"), ("n", "b")].flatMap fun e => (sampleResponse e.1 e.2).data

def repeatedFetchEnv : FetchEnv := { sampleFetchEnv with decode := fun _ => .ok repeatedData }

theorem stats_exact_repeatedData :
    (publishable repeatedData).map (fun e => (e.id, e.provider)) = [("m", "a"), ("m", "b"), ("n", "b")] ∧
      let stats := getStats sampleAperture .entries
        (snapshotOf sampleOrder (repeatedFetchEnv.afterRefreshes sampleAperture [] answeredOnce))
      stats.modelsCount = ((publishable repeatedData).map (·.id)).dedup.length ∧
        stats.providersCount = ((publishable repeatedData).map (·.provider)).dedup.length ∧
        (stats.providers.map (·.modelsCount)).sum = (publishable repeatedData).length ∧
        (stats.providers.map (·.name)).Perm ((publishable repeatedData).map (·.provider)).dedup := by
  have hfetched : repeatedFetchEnv.fetched sampleAperture (sampleRefresh (.ok ⟨200, none, []⟩)) =
      .ok (processModels repeatedData) := rfl
  have hlater : ∀ r ∈ [sampleRefresh (.error "connection refused")],
      ∃ e, repeatedFetchEnv.fetched sampleAperture r = .error e := by
    intro r hr
    rw [List.mem_singleton.mp hr]
    exact ⟨_, rfl⟩
  exact ⟨by decide +kernel,
    stats_exact repeatedFetchEnv sampleAperture [] hfetched hlater [] sampleOrder .entries⟩

end FetchEnv

end ApertureRouter
