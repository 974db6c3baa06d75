import ApertureRouter.Discovery.Snapshots
import ApertureRouter.Provider.Framing

/-!
# The registry and discovery

A refresh updates the registry with the snapshot that it has got, which may be older than what
discovery has by then.

* `PublishesLatest`: the condition on a step. A refresh updates the registry only if no other one
  has written the groups since its snapshot, or another one is still going to update the registry.
* `registry_current`: after a run of such steps in which all jobs are done, the registry has the
  groups that discovery has.
-/

namespace ApertureRouter

open Locks Locks.State

namespace RegistryInner

variable {inner : RegistryInner} {u : Update} {providers : List Provider}

/-! ## Names of the configuration -/

theorem mem_names_new {name : String} :
    name ∈ (new providers).staticProviders ∨ name ∈ (new providers).disabledStaticProviders ↔
      name ∈ providers.map (·.name) := by
  unfold new
  induction providers using List.reverseRecOn with
  | nil => simp
  | append_singleton providers p ih =>
    rw [List.foldl_append, List.foldl_cons, List.foldl_nil, List.map_append, List.mem_append, ← ih,
      addConfigured]
    split
    · simp only [List.mem_cons, List.map_cons, List.map_nil, List.not_mem_nil, or_false]
      tauto
    · simp only [List.mem_cons, List.map_cons, List.map_nil, List.not_mem_nil, or_false]
      tauto

/-- At first, the registry has providers of the configuration only. -/
theorem mem_static_of_mem_new {name : String} (h : name ∈ (new providers).providers) :
    name ∈ (new providers).staticProviders := by
  unfold new at h ⊢
  induction providers using List.reverseRecOn with
  | nil => simp at h
  | append_singleton providers p ih =>
    rw [List.foldl_append, List.foldl_cons, List.foldl_nil, addConfigured] at h ⊢
    split at h
    · rename_i henabled
      rw [if_pos henabled]
      rcases HashMap.mem_insert.mp h with rfl | h
      · exact List.mem_cons_self
      · exact List.mem_cons_of_mem _ (ih h)
    · rename_i henabled
      rw [if_neg henabled]
      exact ih h

/-- The registry knows the names of the configuration, and has no disabled provider. -/
structure Names (providers : List Provider) (inner : RegistryInner) : Prop where
  static : inner.staticProviders = (new providers).staticProviders
  disabled : inner.disabledStaticProviders = (new providers).disabledStaticProviders
  absent : ∀ name ∉ inner.staticProviders, name ∈ inner.disabledStaticProviders →
    name ∉ inner.providers

theorem names_new (providers : List Provider) : Names providers (new providers) :=
  ⟨rfl, rfl, fun _ hs _ h => hs (mem_static_of_mem_new h)⟩

theorem updateFromDiscovery_providers (inner : RegistryInner) (u : Update) :
    (inner.updateFromDiscovery u).providers = (inner.afterGroups u).providers := rfl

theorem Names.updateFromDiscovery (h : inner.Names providers) (u : Update) :
    (inner.updateFromDiscovery u).Names providers := by
  obtain ⟨hs, hd⟩ := @addGroups_names (inner.removeStale u) u.apertureUrl
    (u.groupOrder.list u.modelsByProvider)
  have hstatic : (inner.updateFromDiscovery u).staticProviders = inner.staticProviders := hs
  have hdisabled : (inner.updateFromDiscovery u).disabledStaticProviders =
      inner.disabledStaticProviders := hd
  refine ⟨hstatic.trans h.static, hdisabled.trans h.disabled, fun name hs hd => ?_⟩
  rw [hstatic] at hs
  rw [hdisabled] at hd
  rw [← HashMap.get_eq_none, updateFromDiscovery_providers,
    afterGroups_provider_of_notMem hs (h.absent name hs), if_pos hd]

/-- The auto-added providers and their models are the groups with names that the configuration does
not use. -/
def Current (providers : List Provider) (inner : RegistryInner)
    (modelsByProvider : HashMap String (List String)) : Prop :=
  ∀ name models,
    (∃ p, inner.providers.get name = some p ∧ name ∉ inner.staticProviders ∧ p.models = models) ↔
      modelsByProvider.get name = some models ∧ name ∉ providers.map (·.name)

theorem current_new (providers : List Provider) : Current providers (new providers) ∅ := by
  intro name models
  constructor
  · rintro ⟨p, hp, hs, -⟩
    exact absurd (mem_static_of_mem_new (HashMap.mem_iff_get.mpr ⟨p, hp⟩)) hs
  · rintro ⟨hget, -⟩
    cases hget

/-- An update makes the registry current. -/
theorem Names.current_update (h : inner.Names providers) (u : Update) :
    (inner.updateFromDiscovery u).Current providers u.modelsByProvider := by
  intro name models
  have hnames := (h.updateFromDiscovery u)
  have hstatic : (inner.updateFromDiscovery u).staticProviders = inner.staticProviders :=
    hnames.static.trans h.static.symm
  rw [hstatic, ← mem_names_new, not_or, ← h.static, ← h.disabled, updateFromDiscovery_providers]
  constructor
  · rintro ⟨p, hp, hs, rfl⟩
    rw [afterGroups_provider_of_notMem hs (h.absent name hs)] at hp
    split at hp
    · cases hp
    · rename_i hd
      obtain ⟨models, hget, rfl⟩ := Option.map_eq_some_iff.mp hp
      exact ⟨by rw [hget, updatedProvider_models hs], hs, hd⟩
  · rintro ⟨hget, hs, hd⟩
    refine ⟨inner.updatedProvider u.apertureUrl name models, ?_, hs, updatedProvider_models hs⟩
    rw [afterGroups_provider_of_notMem hs (h.absent name hs), if_neg hd, hget]
    rfl

end RegistryInner

/-! ## Runs -/

section

variable {τ : Type} {providers : List Provider} {jobs : τ → Job}
  {s s' : State Cell τ Shared DiscoverySnapshot} {t : τ}

/-- What every step of a run keeps. -/
structure SyncInv (providers : List Provider) (jobs : τ → Job)
    (s : State Cell τ Shared DiscoverySnapshot) : Prop where
  points : ∀ u, Always (Point (jobs u)) (s.mode u) (s.todo u)
  maps : MapsFrom jobs s
  names : s.data.registry.Names providers
  took : ∀ u, Publishes (s.todo u) → Takes (s.todo u) ∨ ∃ snapshot, s.got u = some snapshot
  seen : ∀ u snapshot, s.got u = some snapshot →
    snapshot.modelsByProvider = (mapsOf jobs (s.seen u .modelsByProvider)).modelsByProvider
  current : (∃ u, Publishes (s.todo u)) ∨
    s.data.registry.Current providers s.data.modelsByProvider

/-- A job that updates the registry takes a snapshot. -/
theorem takes_of_publishes (job : Job) (h : Publishes job.task) : Takes job.task := by
  cases job with
  | snapshot order => exact absurd h (by simp [Job.task, getSnapshot, Publishes, Act.puts])
  | refresh r sync =>
    by_cases hlimit : maxModelsPerSnapshot < r.data.length
    · simp [Job.task, if_pos hlimit, Publishes] at h
    · simp [Job.task, if_neg hlimit, processModelsResponse, getSnapshot, Takes, Act.gets]

theorem syncInv_start : SyncInv providers jobs (discoveryStart providers jobs) where
  points u := always_point (jobs u)
  maps := ⟨rfl, rfl, rfl⟩
  names := RegistryInner.names_new providers
  took u hu := .inl (takes_of_publishes (jobs u) hu)
  seen _ _ hgot := by cases hgot
  current := .inr (RegistryInner.current_new providers)

variable [DecidableEq τ] [Fintype τ]

/-- A refresh updates the registry with the groups that discovery has, or another one is still going
to update it. -/
def PublishesLatest (t : τ) (s : State Cell τ Shared DiscoverySnapshot) : Prop :=
  (s.todo t).head?.any (·.puts .registry) = true →
    s.seen t .modelsByProvider = s.lastPut .modelsByProvider ∨ ∃ u, u ≠ t ∧ Publishes (s.todo u)

instance (t : τ) (s : State Cell τ Shared DiscoverySnapshot) : Decidable (PublishesLatest t s) :=
  inferInstanceAs (Decidable (_ → _))

theorem SyncInv.took_step (h : SyncInv providers jobs s) (hs : s.step t = some s') (u : τ)
    (hu : Publishes (s'.todo u)) : Takes (s'.todo u) ∨ ∃ snapshot, s'.got u = some snapshot := by
  obtain ⟨act, rest, htodo, -, rfl⟩ := step_cases hs
  rw [next_todo] at hu ⊢
  by_cases hut : u = t
  · subst hut
    rw [Function.update_self] at hu ⊢
    have htook := h.took u
    rw [htodo] at htook
    have hpub : Publishes (act :: rest) := by
      rw [Publishes, List.any_cons, Bool.or_eq_true]
      exact .inr hu
    cases act with
    | get f => exact .inr ⟨_, Function.update_self ..⟩
    | _ =>
      refine (htook hpub).imp_left fun ht => ?_
      simpa [Takes, Act.gets] using ht
  · rw [Function.update_of_ne hut] at hu ⊢
    refine (h.took u hu).imp_right ?_
    rintro ⟨snapshot, hgot⟩
    refine ⟨snapshot, ?_⟩
    cases act with
    | get f => exact (Function.update_of_ne hut ..).trans hgot
    | _ => exact hgot

theorem SyncInv.seen_step (h : SyncInv providers jobs s) (hs : s.step t = some s') (u : τ)
    (snapshot : DiscoverySnapshot) (hgot : s'.got u = some snapshot) :
    snapshot.modelsByProvider = (mapsOf jobs (s'.seen u .modelsByProvider)).modelsByProvider := by
  obtain ⟨act, rest, htodo, -, rfl⟩ := step_cases hs
  cases act with
  | get f =>
    by_cases hut : u = t
    · subst hut
      have hpoint := (h.points u).now
      rw [htodo] at hpoint
      obtain ⟨-, -, order, rfl⟩ := hpoint
      have hsnapshot : snapshotOf order s.data = snapshot := by
        simpa [next] using hgot
      rw [← hsnapshot]
      simpa [next, snapshotOf] using h.maps.modelsByProvider
    · have hgot' : s.got u = some snapshot := by
        simpa [next, hut] using hgot
      simpa [next, hut] using h.seen u snapshot hgot'
  | _ => exact h.seen u snapshot hgot

theorem SyncInv.names_step (h : SyncInv providers jobs s) (hs : s.step t = some s') :
    s'.data.registry.Names providers := by
  obtain ⟨act, rest, htodo, -, rfl⟩ := step_cases hs
  cases act with
  | put k f =>
    have hpoint := (h.points t).now
    rw [htodo] at hpoint
    obtain ⟨-, -, hputs, -⟩ := hpoint
    generalize jobs t = job at hputs
    cases hputs with
    | registry r sync =>
      show (sync.publish (s.got t) s.data).registry.Names providers
      cases s.got t with
      | none => exact h.names
      | some snapshot => exact h.names.updateFromDiscovery _
    | _ => exact h.names
  | _ => exact h.names

/-- Another task than the one that does the step goes on to be about to update the registry. -/
theorem publishes_step (hs : s.step t = some s') {u : τ} (hut : u ≠ t) (hu : Publishes (s.todo u)) :
    Publishes (s'.todo u) := by
  obtain ⟨act, rest, -, -, rfl⟩ := step_cases hs
  rwa [next_todo, Function.update_of_ne hut]

theorem SyncInv.current_step (h : SyncInv providers jobs s) (hgood : PublishesLatest t s)
    (hs : s.step t = some s') : (∃ u, Publishes (s'.todo u)) ∨
      s'.data.registry.Current providers s'.data.modelsByProvider := by
  obtain ⟨act, rest, htodo, -, hnext⟩ := step_cases hs
  have htodo' : s'.todo t = rest := by rw [hnext, next_todo, Function.update_self]
  by_cases hput : ∃ k f, act = .put k f
  · obtain ⟨k, f, rfl⟩ := hput
    have hpoint := (h.points t).now
    rw [htodo] at hpoint
    obtain ⟨-, -, hputs, hrest⟩ := hpoint
    by_cases hk : k = .registry
    · subst hk
      rw [if_pos rfl] at hrest
      have hlatest : s.seen t .modelsByProvider = s.lastPut .modelsByProvider ∨
          ∃ u, u ≠ t ∧ Publishes (s.todo u) := by
        apply hgood
        rw [htodo]
        rfl
      rcases hlatest with hseen | ⟨u, hut, hu⟩
      · right
        have hpub : Publishes (s.todo t) := by rw [htodo]; rfl
        have hnot : ¬Takes (s.todo t) := by
          rw [htodo, Takes, List.any_cons]
          exact hrest
        obtain ⟨snapshot, hgot⟩ := (h.took t hpub).resolve_left hnot
        have hgroups : snapshot.modelsByProvider = s.data.modelsByProvider := by
          rw [h.seen t snapshot hgot, hseen, ← h.maps.modelsByProvider]
        generalize jobs t = job at hputs
        cases hputs with
        | registry r sync =>
          have hdata : s'.data = sync.publish (some snapshot) s.data := by rw [hnext, ← hgot]; rfl
          rw [hdata]
          show (s.data.registry.updateFromDiscovery (sync.update snapshot)).Current providers
            s.data.modelsByProvider
          rw [← hgroups]
          exact h.names.current_update (sync.update snapshot)
      · exact .inl ⟨u, publishes_step hs hut hu⟩
    · rw [if_neg hk] at hrest
      exact .inl ⟨t, by rwa [htodo']⟩
  · have hdata : s'.data = s.data := by
      rw [hnext]
      cases act with
      | put k f => exact absurd ⟨k, f, rfl⟩ hput
      | _ => rfl
    rw [hdata]
    refine h.current.imp_left ?_
    rintro ⟨u, hu⟩
    by_cases hut : u = t
    · subst hut
      refine ⟨u, ?_⟩
      rw [htodo, Publishes, List.any_cons] at hu
      rw [htodo', Publishes]
      cases act with
      | put k f => exact absurd ⟨k, f, rfl⟩ hput
      | _ => simpa [Act.puts] using hu
    · exact ⟨u, publishes_step hs hut hu⟩

theorem SyncInv.step (h : SyncInv providers jobs s) (hgood : PublishesLatest t s)
    (hs : s.step t = some s') : SyncInv providers jobs s' where
  points := Always.step h.points hs
  maps := h.maps.step h.points hs
  names := h.names_step hs
  took := h.took_step hs
  seen := h.seen_step hs
  current := h.current_step hgood hs

/-- **The registry.** When all jobs of a run are done in which a refresh has updated the registry
with old groups only while another one was still going to, the registry has the groups of
discovery. -/
theorem registry_current (h : Run PublishesLatest (discoveryStart providers jobs) s)
    (hdone : ∀ u, s.todo u = []) :
    s.data.registry.Current providers s.data.modelsByProvider := by
  have hinv : SyncInv providers jobs s :=
    h.invariant syncInv_start fun _ _ _ hi hgood hs => hi.step hgood hs
  refine hinv.current.resolve_left ?_
  rintro ⟨u, hu⟩
  rw [hdone u] at hu
  cases hu

end

/-! ## Two refreshes -/

def twoRefreshes : Bool → Job
  | false => .refresh (sampleResponse "m" "a") sampleSync
  | true => .refresh (sampleResponse "n" "b") sampleSync

/-- One after the other. -/
def oneByOne : List Bool := List.replicate 30 false ++ List.replicate 30 true

theorem registry_current_oneByOne :
    ∃ s, (discoveryStart [] twoRefreshes).runAll oneByOne = some s ∧
      s.data.registry.Current [] s.data.modelsByProvider := by
  have hdone : ((discoveryStart [] twoRefreshes).runAll oneByOne).map
      (fun s => decide (∀ u, (s.todo u).length = 0)) = some true := by
    decide +kernel
  obtain ⟨s, hs, htodo⟩ := Option.map_eq_some_iff.mp hdone
  refine ⟨s, hs, registry_current (.of_schedule hs (by decide +kernel)) fun u => ?_⟩
  exact List.length_eq_zero_iff.mp (of_decide_eq_true htodo u)

/-- The second one is done before the first one updates the registry. -/
def overtaken : List Bool :=
  List.replicate 27 false ++ List.replicate 30 true ++ List.replicate 3 false

/-- The registry is left with the groups of the first one. -/
theorem overtaken_not_current :
    ∃ s, Run (fun _ _ => True) (discoveryStart [] twoRefreshes) s ∧ (∀ u, s.todo u = []) ∧
      ¬s.data.registry.Current [] s.data.modelsByProvider := by
  have hview : ((discoveryStart [] twoRefreshes).runAll overtaken).map
      (fun s => (decide (∀ u, (s.todo u).length = 0), s.data.modelsByProvider.get "a",
        (s.data.registry.providers.get "a").map (·.models), s.data.registry.staticProviders)) =
      some (true, none, some ["m"], []) := by
    decide +kernel
  obtain ⟨s, hs, hfields⟩ := Option.map_eq_some_iff.mp hview
  simp only [Prod.mk.injEq, decide_eq_true_eq] at hfields
  obtain ⟨hdone, hgroup, hprovider, hstatic⟩ := hfields
  refine ⟨s, .of_schedule hs (by decide +kernel), fun u => List.length_eq_zero_iff.mp (hdone u),
    fun h => ?_⟩
  obtain ⟨p, hp, hmodels⟩ := Option.map_eq_some_iff.mp hprovider
  obtain ⟨hget, -⟩ := (h "a" ["m"]).mp ⟨p, hp, by rw [hstatic]; simp, hmodels⟩
  rw [hgroup] at hget
  cases hget

end ApertureRouter
