import ApertureRouter.Discovery.Models

/-!
# Consistent snapshots

The three maps of a snapshot match if they were written by one refresh. `get_snapshot` holds the
locks of all three, but a refresh writes them one after the other.

* `SnapshotOfOne`: the condition on a step. A `get_snapshot` takes the last of its three locks only
  while the three maps are those of one refresh.
* `snapshots_consistent`: in a run of such steps, every snapshot is consistent.
-/

namespace ApertureRouter

open Locks Locks.State

/-- The models are those of the groups, and the providers are the names of the groups. -/
structure DiscoverySnapshot.Consistent (s : DiscoverySnapshot) : Prop where
  models : ∀ id, id ∈ s.models.map (·.id) ↔
    ∃ name ids, s.modelsByProvider.get name = some ids ∧ id ∈ ids
  providers : ∀ name, name ∈ s.providers ↔ name ∈ s.modelsByProvider

theorem Discovered.Matching.consistent {d : Shared} (h : d.toDiscovered.Matching)
    (order : SnapshotOrder) : (snapshotOf order d).Consistent where
  models id := by
    show _ ↔ ∃ name ids, d.modelsByProvider.get name = some ids ∧ id ∈ ids
    rw [← h.models]
    simp only [snapshotOf, List.map_map, List.mem_map, Function.comp_apply]
    constructor
    · rintro ⟨⟨k, model⟩, he, rfl⟩
      have hget := order.models.mem_list.mp he
      exact HashMap.mem_iff_get.mpr ⟨model, (h.ids k model hget).symm ▸ hget⟩
    · intro hid
      obtain ⟨model, hget⟩ := HashMap.mem_iff_get.mp hid
      exact ⟨⟨id, model⟩, order.models.mem_list.mpr hget, h.ids id model hget⟩
  providers name := by
    show name ∈ (order.providers.list d.providers).map (·.1) ↔ name ∈ d.modelsByProvider
    rw [← h.providers, List.mem_map]
    constructor
    · rintro ⟨⟨k, u⟩, he, rfl⟩
      exact HashMap.mem_iff_get.mpr ⟨u, order.providers.mem_list.mp he⟩
    · intro hname
      obtain ⟨u, hget⟩ := HashMap.mem_iff_get.mp hname
      exact ⟨⟨name, u⟩, order.providers.mem_list.mpr hget, rfl⟩

/-! ## The points of the programs -/

/-- What a refresh changes under each lock. -/
inductive Puts : Job → Cell → (Option DiscoverySnapshot → Shared → Shared) → Prop
  | models (r : Response) (sync : Sync) : Puts (.refresh r sync) .models
      fun _ d => { d with models := (processModels r.data).models }
  | modelsByProvider (r : Response) (sync : Sync) : Puts (.refresh r sync) .modelsByProvider
      fun _ d => { d with modelsByProvider := (processModels r.data).modelsByProvider }
  | providers (r : Response) (sync : Sync) : Puts (.refresh r sync) .providers
      fun _ d => { d with providers := (processModels r.data).providers }
  | lastRefresh (r : Response) (sync : Sync) : Puts (.refresh r sync) .lastRefresh
      fun _ d => { d with lastRefresh := r.now }
  | registry (r : Response) (sync : Sync) : Puts (.refresh r sync) .registry sync.publish

/-- A program still has to update the registry. -/
def Publishes (p : Task) : Prop := p.any (·.puts .registry) = true

instance (p : Task) : Decidable (Publishes p) := inferInstanceAs (Decidable (_ = _))

/-- A program still has to take its snapshot. -/
def Takes (p : Task) : Prop := p.any (·.gets) = true

/-- While `models_by_provider` is read, so are the other two maps. -/
def Nested (mode : Cell → Mode) : Prop :=
  mode .modelsByProvider = .reading → mode .models = .reading ∧ mode .providers = .reading

/-- What the next action of a job is: it changes what it holds, and the registry at last; it takes a
snapshot while it reads the maps. -/
def NextAct (job : Job) (mode : Cell → Mode) : Task → Prop
  | .put k f :: rest => mode k = .writing ∧ Puts job k f ∧
    if k = .registry then ¬Takes rest else Publishes rest
  | .get f :: _ => mode .modelsByProvider = .reading ∧ ∃ order, f = snapshotOf order
  | _ => True

/-- A point of the program of a job. -/
def Point (job : Job) (mode : Cell → Mode) (p : Task) : Prop := Nested mode ∧ NextAct job mode p

theorem always_point (job : Job) : Always (Point job) (fun _ => .free) job.task := by
  cases job with
  | snapshot order =>
    simp [Job.task, getSnapshot, Always, Act.effect, Point, Nested, NextAct, Function.update]
  | refresh r sync =>
    have hmodels := Puts.models r sync
    have hby := Puts.modelsByProvider r sync
    have hproviders := Puts.providers r sync
    have hlast := Puts.lastRefresh r sync
    have hregistry := Puts.registry r sync
    by_cases hlimit : maxModelsPerSnapshot < r.data.length
    · simp [Job.task, if_pos hlimit, Always, Point, Nested, NextAct]
    · simp [Job.task, if_neg hlimit, processModelsResponse, detectChanges, updateState,
        logProviders, getSnapshot, updateRegistry, Always, Act.effect, Point, Nested, NextAct,
        Publishes, Takes, Act.puts, Act.gets, Function.update, hmodels, hby, hproviders, hlast,
        hregistry]

/-! ## The maps of one refresh -/

section

variable {τ : Type} {providers : List Provider} {jobs : τ → Job}
  {s s' : State Cell τ Shared DiscoverySnapshot} {t : τ}

/-- The maps of the response of a refresh. Nobody's maps are those that discovery starts with. -/
def mapsOf (jobs : τ → Job) : Option τ → Discovered
  | none => {}
  | some t =>
    match jobs t with
    | .refresh r _ => processModels r.data
    | .snapshot _ => {}

theorem matching_mapsOf (jobs : τ → Job) (o : Option τ) : (mapsOf jobs o).Matching := by
  unfold mapsOf
  split
  · exact Discovered.matching_empty
  · split
    · exact matching_processModels _
    · exact Discovered.matching_empty

/-- The three maps were written by one refresh, or none has been written. -/
def SameRefresh (s : State Cell τ Shared DiscoverySnapshot) : Prop :=
  s.lastPut .models = s.lastPut .modelsByProvider ∧
    s.lastPut .providers = s.lastPut .modelsByProvider

/-- When a snapshot takes the last of its three locks, the maps are those of one refresh. -/
def SnapshotOfOne (t : τ) (s : State Cell τ Shared DiscoverySnapshot) : Prop :=
  match s.todo t with
  | .read .modelsByProvider :: _ => SameRefresh s
  | _ => True

instance [DecidableEq τ] (t : τ) (s : State Cell τ Shared DiscoverySnapshot) :
    Decidable (SnapshotOfOne t s) := by
  unfold SnapshotOfOne SameRefresh
  split <;> infer_instance

/-- Every map is that of the refresh that changed it last. -/
structure MapsFrom (jobs : τ → Job) (s : State Cell τ Shared DiscoverySnapshot) : Prop where
  models : s.data.models = (mapsOf jobs (s.lastPut .models)).models
  modelsByProvider : s.data.modelsByProvider =
    (mapsOf jobs (s.lastPut .modelsByProvider)).modelsByProvider
  providers : s.data.providers = (mapsOf jobs (s.lastPut .providers)).providers

theorem MapsFrom.matching (h : MapsFrom jobs s) (hs : SameRefresh s) :
    s.data.toDiscovered.Matching := by
  have hmatching := matching_mapsOf jobs (s.lastPut .modelsByProvider)
  have hmodels := h.models
  have hproviders := h.providers
  have hgroups := h.modelsByProvider
  rw [hs.1] at hmodels
  rw [hs.2] at hproviders
  constructor
  · rw [hmodels, hgroups]
    exact hmatching.models
  · rw [hmodels]
    exact hmatching.ids
  · rw [hproviders, hgroups]
    exact hmatching.providers

/-! ## Runs -/

/-- What every step of a run keeps. -/
structure SnapshotInv (jobs : τ → Job) (s : State Cell τ Shared DiscoverySnapshot) : Prop where
  points : ∀ u, Always (Point (jobs u)) (s.mode u) (s.todo u)
  exclusive : s.Exclusive
  maps : MapsFrom jobs s
  same : ∀ u, s.mode u .modelsByProvider = .reading → SameRefresh s
  consistent : ∀ u snapshot, s.got u = some snapshot → snapshot.Consistent

theorem snapshotInv_start : SnapshotInv jobs (discoveryStart providers jobs) where
  points u := always_point (jobs u)
  exclusive _ _ hw := by cases hw
  maps := ⟨rfl, rfl, rfl⟩
  same _ hu := by cases hu
  consistent _ _ hgot := by cases hgot

theorem SnapshotInv.guarded (h : SnapshotInv jobs s) : s.Guarded where
  exclusive := h.exclusive
  putHeld u k f rest htodo := by
    have hpoint := (h.points u).now
    rw [htodo] at hpoint
    exact hpoint.2.1

variable [DecidableEq τ] [Fintype τ]

/-- What a change under a lock does to the maps. -/
theorem MapsFrom.step (h : MapsFrom jobs s)
    (hp : ∀ u, Always (Point (jobs u)) (s.mode u) (s.todo u)) (hs : s.step t = some s') :
    MapsFrom jobs s' := by
  obtain ⟨act, rest, htodo, -, rfl⟩ := step_cases hs
  cases act with
  | put k f =>
    have hpoint := (hp t).now
    rw [htodo] at hpoint
    obtain ⟨-, -, hputs, -⟩ := hpoint
    generalize hjob : jobs t = job at hputs
    have hmaps : ∀ r sync, job = .refresh r sync → mapsOf jobs (some t) = processModels r.data := by
      rintro r sync rfl
      simp only [mapsOf, hjob]
    cases hputs with
    | models r sync => exact ⟨by simp [next, hmaps r sync rfl], h.modelsByProvider, h.providers⟩
    | modelsByProvider r sync => exact ⟨h.models, by simp [next, hmaps r sync rfl], h.providers⟩
    | providers r sync => exact ⟨h.models, h.modelsByProvider, by simp [next, hmaps r sync rfl]⟩
    | lastRefresh r sync => exact ⟨h.models, h.modelsByProvider, h.providers⟩
    | registry r sync =>
      have hdata : (sync.publish (s.got t) s.data).toDiscovered = s.data.toDiscovered := by
        cases s.got t <;> rfl
      exact ⟨by simp [next, hdata, h.models], by simp [next, hdata, h.modelsByProvider],
        by simp [next, hdata, h.providers]⟩
  | _ => exact ⟨h.models, h.modelsByProvider, h.providers⟩

/-- While a task reads `models_by_provider`, nobody changes the maps. -/
theorem SnapshotInv.sameRefresh_step (h : SnapshotInv jobs s) (hs : s.step t = some s') {u : τ}
    (hu : s.mode u .modelsByProvider = .reading) : SameRefresh s' := by
  obtain ⟨hmodels, hproviders⟩ := (h.points u).now.1 hu
  have hsame := h.same u hu
  unfold SameRefresh at hsame ⊢
  rw [h.guarded.lastPut_eq hs hu, h.guarded.lastPut_eq hs hmodels,
    h.guarded.lastPut_eq hs hproviders]
  exact hsame

theorem SnapshotInv.step (h : SnapshotInv jobs s) (hgood : SnapshotOfOne t s)
    (hs : s.step t = some s') : SnapshotInv jobs s' where
  points := Always.step h.points hs
  exclusive := h.exclusive.step hs
  maps := h.maps.step h.points hs
  same u hu := by
    by_cases hold : s.mode u .modelsByProvider = .reading
    · exact h.sameRefresh_step hs hold
    · obtain ⟨act, rest, htodo, -, rfl⟩ := step_cases hs
      -- The step has taken the lock.
      rw [next_mode] at hu
      by_cases hut : u = t
      · subst hut
        rw [Function.update_self] at hu
        cases act with
        | read k =>
          by_cases hk : k = .modelsByProvider
          · subst hk
            have hsame : SameRefresh s := by simpa only [SnapshotOfOne, htodo] using hgood
            exact hsame
          · rw [Act.effect, Function.update_of_ne (Ne.symm hk)] at hu
            exact absurd hu hold
        | write k | release k =>
          by_cases hk : k = .modelsByProvider
          · subst hk
            rw [Act.effect, Function.update_self] at hu
            cases hu
          · rw [Act.effect, Function.update_of_ne (Ne.symm hk)] at hu
            exact absurd hu hold
        | get f | put k f => exact absurd hu hold
      · rw [Function.update_of_ne hut] at hu
        exact absurd hu hold
  consistent u snapshot hgot := by
    obtain ⟨act, rest, htodo, -, rfl⟩ := step_cases hs
    cases act with
    | get f =>
      by_cases hut : u = t
      · subst hut
        have hpoint := (h.points u).now
        rw [htodo] at hpoint
        obtain ⟨-, hreading, order, rfl⟩ := hpoint
        have hsnapshot : snapshotOf order s.data = snapshot := by
          simpa [next] using hgot
        rw [← hsnapshot]
        exact (h.maps.matching (h.same u hreading)).consistent order
      · have hgot' : s.got u = some snapshot := by
          simpa [next, hut] using hgot
        exact h.consistent u snapshot hgot'
    | _ => exact h.consistent u snapshot hgot

/-- **Snapshots.** In a run in which every snapshot is taken while the maps are those of one
refresh, every snapshot is consistent. -/
theorem snapshots_consistent (h : Run SnapshotOfOne (discoveryStart providers jobs) s) :
    ∀ u snapshot, s.got u = some snapshot → snapshot.Consistent :=
  (h.invariant snapshotInv_start fun _ _ _ hi hgood hs => hi.step hgood hs).consistent

end

/-! ## A refresh and a snapshot -/

def sampleOrder : SnapshotOrder := ⟨.entries, .entries⟩

def sampleSync : Sync := ⟨"http://aperture", .entries, .entries⟩

/-- A response with one model of a provider. -/
def sampleResponse (id provider : String) : Response where
  data := [{ id := id, metadata := some ⟨some ⟨some provider⟩⟩ }]
  now := 1
  order := sampleOrder

def refreshAndSnapshot : Bool → Job
  | false => .refresh (sampleResponse "m" "a") sampleSync
  | true => .snapshot sampleOrder

/-- The snapshot is taken after the refresh. -/
def snapshotAfter : List Bool := List.replicate 30 false ++ List.replicate 9 true

theorem snapshots_consistent_after :
    ∃ s, (discoveryStart [] refreshAndSnapshot).runAll snapshotAfter = some s ∧
      ∀ u snapshot, s.got u = some snapshot → snapshot.Consistent := by
  have hsome : ((discoveryStart [] refreshAndSnapshot).runAll snapshotAfter).isSome := by
    decide +kernel
  obtain ⟨s, hs⟩ := Option.isSome_iff_exists.mp hsome
  exact ⟨s, hs, snapshots_consistent (.of_schedule hs (by decide +kernel))⟩

/-- The snapshot is taken when only the models have been written. -/
def snapshotBetween : List Bool := List.replicate 7 false ++ List.replicate 9 true

/-- The models of such a snapshot are in none of its groups. -/
theorem snapshotBetween_inconsistent :
    ∃ s snapshot, Run (fun _ _ => True) (discoveryStart [] refreshAndSnapshot) s ∧
      s.got true = some snapshot ∧ ¬snapshot.Consistent := by
  have hview : ((discoveryStart [] refreshAndSnapshot).runAll snapshotBetween).map
      (fun s => (s.got true).map fun snapshot =>
        (snapshot.models.map (·.id), snapshot.modelsByProvider.entries.length)) =
      some (some (["m"], 0)) := by
    decide +kernel
  obtain ⟨s, hs, hgot⟩ := Option.map_eq_some_iff.mp hview
  obtain ⟨snapshot, hsnapshot, hfields⟩ := Option.map_eq_some_iff.mp hgot
  obtain ⟨hmodels, hgroups⟩ := Prod.mk.inj hfields
  refine ⟨s, snapshot, .of_schedule hs (by decide +kernel), hsnapshot, fun h => ?_⟩
  obtain ⟨name, ids, hget, -⟩ := (h.models "m").mp (by rw [hmodels]; simp)
  have hentry := HashMap.mem_entries.mpr hget
  rw [List.length_eq_zero_iff.mp hgroups] at hentry
  cases hentry

end ApertureRouter
