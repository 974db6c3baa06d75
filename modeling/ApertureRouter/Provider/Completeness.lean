import ApertureRouter.Provider.Registry

/-!
# The registry is complete

* `Sound`: providers have their names as keys and are enabled, and routes lead to providers. Each
  pass of an update keeps it.
* `Complete`: also, exactly the models that some provider lists have a route. The last two passes of
  an update bring it about (`Sound.fillRoutes`), whatever the passes before did to the routes.
* `registry_complete`: so it is after any history of updates, and a query gives providers if and only
  if there is one that lists the model.
-/

namespace ApertureRouter

namespace RegistryInner

/-- Some provider lists the model. -/
def Lists (inner : RegistryInner) (model : String) : Prop :=
  ∃ name p, inner.providers.get name = some p ∧ model ∈ p.models

structure Sound (inner : RegistryInner) : Prop where
  named : ∀ name p, inner.providers.get name = some p → p.name = name
  enabled : ∀ name p, inner.providers.get name = some p → p.enabled = true
  routed : ∀ model name, inner.modelToProvider.get model = some name → name ∈ inner.providers

structure Complete (inner : RegistryInner) : Prop extends Sound inner where
  listed : ∀ model, model ∈ inner.modelToProvider ↔ inner.Lists model

variable {inner : RegistryInner}

/-! ## The configuration -/

theorem complete_empty : Complete {} where
  named := by simp
  enabled := by simp
  routed := by simp
  listed := by simp [Lists]

/-- One provider of the configuration, under a new name. -/
theorem Complete.addConfigured (h : inner.Complete) {p : Provider} (hp : p.name ∉ inner.providers) :
    (inner.addConfigured p).Complete := by
  unfold RegistryInner.addConfigured
  cases he : p.enabled with
  | false => exact ⟨⟨h.named, h.enabled, h.routed⟩, h.listed⟩
  | true =>
    have hget := HashMap.get_insert inner.providers p.name
    have hnone := HashMap.get_eq_none.mpr hp
    refine ⟨⟨fun name q hq => ?_, fun name q hq => ?_, fun model name hr => ?_⟩, fun model => ?_⟩
    · simp only [if_true, hget] at hq
      split at hq
      · rename_i hn
        cases hq
        exact hn.symm
      · exact h.named name q hq
    · simp only [if_true, hget] at hq
      split at hq
      · cases hq
        exact he
      · exact h.enabled name q hq
    · simp only [if_true] at hr ⊢
      rw [HashMap.mem_insert]
      rcases HashMap.get_insertAll hr with hr | hr
      · exact .inr (h.routed model name hr)
      · obtain ⟨m, -, he⟩ := List.mem_map.mp hr
        cases he
        exact .inl rfl
    · simp only [if_true, routeAll, HashMap.mem_insertAll, List.map_map, h.listed, Lists, hget]
      constructor
      · rintro (⟨name, q, hq, hm⟩ | hm)
        · refine ⟨name, q, ?_, hm⟩
          rw [if_neg (by rintro rfl; simp [hnone] at hq), hq]
        · exact ⟨p.name, p, if_pos rfl, by simpa using hm⟩
      · rintro ⟨name, q, hq, hm⟩
        split at hq
        · cases hq
          exact .inr (by simpa using hm)
        · exact .inl ⟨name, q, hq, hm⟩

theorem addConfigured_providers {p : Provider} {name : String} (hn : name ≠ p.name) :
    name ∈ (inner.addConfigured p).providers ↔ name ∈ inner.providers := by
  unfold addConfigured
  split
  · rw [HashMap.mem_insert]
    exact or_iff_right hn
  · rfl

theorem complete_new {providers : List Provider} (hn : (providers.map (·.name)).Nodup) :
    (new providers).Complete := by
  suffices h : ∀ inner : RegistryInner, inner.Complete →
      (∀ p ∈ providers, p.name ∉ inner.providers) → (providers.foldl addConfigured inner).Complete from
    h {} complete_empty (by simp)
  induction providers with
  | nil => exact fun _ h _ => h
  | cons p providers ih =>
    obtain ⟨hp, hn⟩ := List.nodup_cons.mp hn
    intro inner h hfree
    refine ih hn _ (h.addConfigured (hfree p (by simp))) fun q hq => ?_
    have hne : q.name ≠ p.name := fun e => hp (List.mem_map.mpr ⟨q, hq, e⟩)
    rw [addConfigured_providers hne]
    exact hfree q (by simp [hq])

/-! ## The passes of an update -/

theorem Sound.removeStale (h : inner.Sound) (u : Update) : (inner.removeStale u).Sound where
  named name p hp := by
    rw [RegistryInner.removeStale, HashMap.get_retain, Option.filter_eq_some_iff] at hp
    exact h.named name p hp.1
  enabled name p hp := by
    rw [RegistryInner.removeStale, HashMap.get_retain, Option.filter_eq_some_iff] at hp
    exact h.enabled name p hp.1
  routed model name hr := by
    rw [RegistryInner.removeStale, HashMap.get_retain, Option.filter_eq_some_iff] at hr
    obtain ⟨p, hp⟩ := HashMap.mem_iff_get.mp (h.routed model name hr.1)
    exact HashMap.mem_retain.mpr ⟨p, hp, hr.2⟩

/-- A provider that is put in under its name, enabled. -/
theorem Sound.insertProvider (h : inner.Sound) {name : String} {p : Provider} (hn : p.name = name)
    (he : p.enabled = true) :
    Sound { inner with providers := inner.providers.insert name p } where
  named name' q hq := by
    simp only [HashMap.get_insert] at hq
    split at hq
    · rename_i e
      cases hq
      rw [hn, e]
    · exact h.named name' q hq
  enabled name' q hq := by
    simp only [HashMap.get_insert] at hq
    split at hq
    · cases hq
      exact he
    · exact h.enabled name' q hq
  routed model name' hr := HashMap.mem_insert.mpr (.inr (h.routed model name' hr))

theorem Sound.addProvider (h : inner.Sound) (apertureUrl providerId : String)
    (modelIds : List String) :
    (addProvider apertureUrl providerId modelIds inner).Sound ∧
      providerId ∈ (addProvider apertureUrl providerId modelIds inner).providers := by
  unfold RegistryInner.addProvider
  split
  · exact ⟨h.insertProvider rfl rfl, HashMap.mem_insert.mpr (.inl rfl)⟩
  · rename_i p hp
    split
    · exact ⟨h.insertProvider (h.named providerId p hp) (h.enabled providerId p hp),
        HashMap.mem_insert.mpr (.inl rfl)⟩
    · exact ⟨h, HashMap.mem_iff_get.mpr ⟨p, hp⟩⟩

theorem Sound.routeModel (h : inner.Sound) {providerId : String} (hp : providerId ∈ inner.providers)
    (modelId : String) :
    (routeModel providerId inner modelId).Sound ∧
      providerId ∈ (routeModel providerId inner modelId).providers := by
  unfold RegistryInner.routeModel
  split
  · exact ⟨h, hp⟩
  · refine ⟨⟨h.named, h.enabled, fun model name hr => ?_⟩, hp⟩
    simp only [HashMap.get_insert] at hr
    split at hr
    · cases hr
      exact hp
    · exact h.routed model name hr

theorem Sound.routeModels {providerId : String} (models : List String) (h : inner.Sound)
    (hp : providerId ∈ inner.providers) :
    (models.foldl (RegistryInner.routeModel providerId) inner).Sound := by
  induction models generalizing inner with
  | nil => exact h
  | cons model models ih =>
    obtain ⟨hs, hp'⟩ := h.routeModel hp model
    exact ih hs hp'

theorem Sound.addGroup (h : inner.Sound) (apertureUrl : String)
    (group : Sigma fun _ : String => List String) : (inner.addGroup apertureUrl group).Sound := by
  unfold RegistryInner.addGroup
  split
  · exact h
  · obtain ⟨hs, hp⟩ := h.addProvider apertureUrl group.1 group.2
    exact hs.routeModels group.2 hp

theorem Sound.addGroups (h : inner.Sound) (apertureUrl : String)
    (groups : List (Sigma fun _ : String => List String)) :
    (groups.foldl (RegistryInner.addGroup apertureUrl) inner).Sound := by
  induction groups generalizing inner with
  | nil => exact h
  | cons group groups ih => exact ih (h.addGroup apertureUrl group)

/-! ## The last passes -/

theorem mem_manualEntries {order : IterOrder String Provider} {model name : String} :
    (model, name) ∈ inner.manualEntries order ↔
      model ∉ inner.modelToProvider ∧ ∃ p, inner.providers.get name = some p ∧ model ∈ p.models := by
  rw [manualEntries, List.mem_flatMap]
  constructor
  · rintro ⟨⟨name', p⟩, he, hm⟩
    obtain ⟨m, hmem, heq⟩ := List.mem_map.mp hm
    cases heq
    obtain ⟨hm, hno⟩ := List.mem_filter.mp hmem
    exact ⟨by simpa using hno, p, order.mem_list.mp he, hm⟩
  · rintro ⟨hno, p, hp, hm⟩
    refine ⟨⟨name, p⟩, order.mem_list.mpr hp, List.mem_map.mpr ⟨model, ?_, rfl⟩⟩
    exact List.mem_filter.mpr ⟨hm, by simpa using hno⟩

theorem mem_allValidModels {model : String} : model ∈ inner.allValidModels ↔ inner.Lists model := by
  rw [allValidModels, List.mem_flatMap]
  constructor
  · rintro ⟨p, hp, hm⟩
    obtain ⟨name, hp⟩ := HashMap.mem_values.mp hp
    exact ⟨name, p, hp, hm⟩
  · rintro ⟨name, p, hp, hm⟩
    exact ⟨p, HashMap.mem_values.mpr ⟨name, hp⟩, hm⟩

theorem Sound.routeManual (h : inner.Sound) (order : IterOrder String Provider) :
    (inner.routeManual order).Sound ∧
      ∀ model, inner.Lists model → model ∈ (inner.routeManual order).modelToProvider := by
  refine ⟨⟨h.named, h.enabled, fun model name hr => ?_⟩, fun model => ?_⟩
  · rcases HashMap.get_insertAll hr with hr | hr
    · exact h.routed model name hr
    · obtain ⟨-, p, hp, -⟩ := mem_manualEntries.mp hr
      exact HashMap.mem_iff_get.mpr ⟨p, hp⟩
  · rintro ⟨name, p, hp, hm⟩
    rw [RegistryInner.routeManual, HashMap.mem_insertAll]
    by_cases hr : model ∈ inner.modelToProvider
    · exact .inl hr
    · exact .inr (List.mem_map.mpr ⟨_, mem_manualEntries.mpr ⟨hr, p, hp, hm⟩, rfl⟩)

/-- **The last two passes make the routes complete.** -/
theorem Sound.fillRoutes (h : inner.Sound) (order : IterOrder String Provider) :
    ((inner.routeManual order).pruneRoutes).Complete := by
  obtain ⟨hs, hall⟩ := h.routeManual order
  have hlists : ∀ model, (inner.routeManual order).Lists model ↔ inner.Lists model :=
    fun _ => Iff.rfl
  refine ⟨⟨hs.named, hs.enabled, fun model name hr => ?_⟩, fun model => ?_⟩
  · rw [pruneRoutes, HashMap.get_retain, Option.filter_eq_some_iff] at hr
    exact hs.routed model name hr.1
  · show model ∈ HashMap.retain _ _ ↔ inner.Lists model
    rw [HashMap.mem_retain]
    simp only [Bool.and_eq_true, decide_eq_true_eq, mem_allValidModels, hlists]
    constructor
    · rintro ⟨name, -, hl, -⟩
      exact hl
    · intro hl
      obtain ⟨name, hr⟩ := HashMap.mem_iff_get.mp (hall model hl)
      exact ⟨name, hr, hl, hs.routed model name hr⟩

theorem Complete.updateFromDiscovery (h : inner.Complete) (u : Update) :
    (inner.updateFromDiscovery u).Complete :=
  ((h.toSound.removeStale u).addGroups u.apertureUrl _).fillRoutes u.providerOrder

/-- Complete after any history. -/
theorem complete_afterUpdates {providers : List Provider} (hn : (providers.map (·.name)).Nodup)
    (updates : List Update) : (afterUpdates providers updates).Complete := by
  have hnew := complete_new hn
  unfold afterUpdates
  generalize new providers = inner at hnew
  induction updates generalizing inner with
  | nil => exact hnew
  | cons u updates ih => exact ih _ (hnew.updateFromDiscovery u)

/-! ## Queries -/

/-- The loop over the providers: it starts with `routed`, adds no name twice, adds only providers
that list the model, and has in the end each of them by name. -/
theorem collectProviders (model : String) (entries : List (Sigma fun _ : String => Provider))
    (routed : List Provider) :
    let result := entries.foldl (fun result e =>
      if e.2.enabled ∧ model ∈ e.2.models ∧ ∀ r ∈ result, r.name ≠ e.2.name then result ++ [e.2]
      else result) routed
    routed <+: result ∧ ((routed.map (·.name)).Nodup → (result.map (·.name)).Nodup) ∧
      (∀ p ∈ result, p ∈ routed ∨ ∃ e ∈ entries, model ∈ e.2.models) ∧
      ∀ e ∈ entries, e.2.enabled = true → model ∈ e.2.models → result ≠ [] := by
  induction entries generalizing routed with
  | nil => exact ⟨List.prefix_rfl, id, fun p hp => .inl hp, by simp⟩
  | cons e entries ih =>
    simp only [List.foldl_cons]
    split
    · rename_i hadd
      obtain ⟨hpre, hnodup, hmem, -⟩ := ih (routed ++ [e.2])
      refine ⟨(List.prefix_append _ _).trans hpre, fun hn => hnodup ?_, fun p hp => ?_,
        fun _ _ _ _ => ?_⟩
      · rw [List.map_append, List.nodup_append]
        refine ⟨hn, by simp, fun a ha b hb hab => ?_⟩
        obtain ⟨r, hr, rfl⟩ := List.mem_map.mp ha
        exact hadd.2.2 r hr (hab.trans (by simpa using hb))
      · rcases hmem p hp with hp | ⟨e', he', hm⟩
        · rcases List.mem_append.mp hp with hp | hp
          · exact .inl hp
          · exact .inr ⟨e, by simp, hadd.2.1⟩
        · exact .inr ⟨e', by simp [he'], hm⟩
      · exact List.ne_nil_of_mem (hpre.subset (by simp : e.2 ∈ routed ++ [e.2]))
    · rename_i hskip
      obtain ⟨hpre, hnodup, hmem, hall⟩ := ih routed
      refine ⟨hpre, hnodup, fun p hp => ?_, fun e' he' hen hm => ?_⟩
      · rcases hmem p hp with hp | ⟨e', he', hm⟩
        · exact .inl hp
        · exact .inr ⟨e', by simp [he'], hm⟩
      · rcases List.mem_cons.mp he' with rfl | he'
        · -- It was skipped because there is one of its name.
          have : ∃ r ∈ routed, r.name = e'.2.name := by
            by_contra hno
            exact hskip ⟨hen, hm, fun r hr he => hno ⟨r, hr, he⟩⟩
          obtain ⟨r, hr, -⟩ := this
          exact List.ne_nil_of_mem (hpre.subset hr)
        · exact hall e' he' hen hm

variable (order : IterOrder String Provider)

theorem Complete.getProvidersForModel (h : inner.Complete) (model : String) :
    (inner.getProvidersForModel order model ≠ [] ↔ inner.Lists model) ∧
      ((inner.getProvidersForModel order model).map (·.name)).Nodup ∧
      (inner.getProvidersForModel order model).head? = inner.getProviderForModel model := by
  obtain ⟨hpre, hnodup, hmem, hall⟩ := collectProviders model (order.list inner.providers)
    ((inner.getProviderForModel model).filter (·.enabled)).toList
  change _ <+: inner.getProvidersForModel order model at hpre
  have hsome : ∀ name, inner.modelToProvider.get model = some name →
      ∃ p, inner.getProviderForModel model = some p ∧ p.enabled = true := by
    intro name hr
    obtain ⟨p, hp⟩ := HashMap.mem_iff_get.mp (h.routed model name hr)
    exact ⟨p, by simp [getProviderForModel, hr, hp], h.enabled name p hp⟩
  have hlists : inner.getProvidersForModel order model ≠ [] ↔ inner.Lists model := by
    constructor
    · intro hne
      obtain ⟨p, hp⟩ := List.exists_mem_of_ne_nil _ hne
      rcases hmem p hp with hp | ⟨⟨name, q⟩, hq, hm⟩
      · rw [← h.listed, HashMap.mem_iff_get]
        cases hr : inner.modelToProvider.get model with
        | none => simp [getProviderForModel, hr] at hp
        | some name => exact ⟨name, rfl⟩
      · exact ⟨name, q, order.mem_list.mp hq, hm⟩
    · rintro ⟨name, p, hp, hm⟩
      exact hall ⟨name, p⟩ (order.mem_list.mpr hp) (h.enabled name p hp) hm
  refine ⟨hlists, hnodup ?_, ?_⟩
  · cases ((inner.getProviderForModel model).filter (·.enabled)) <;> simp
  · cases hr : inner.modelToProvider.get model with
    | some name =>
      obtain ⟨p, hp, he⟩ := hsome name hr
      rw [hp, Option.filter_some_pos he] at hpre
      obtain ⟨rest, hrest⟩ := hpre
      rw [hp, ← hrest]
      rfl
    | none =>
      have hno : ¬inner.Lists model := by
        rw [← h.listed, ← HashMap.get_eq_none]
        exact hr
      rw [not_ne_iff.mp (mt hlists.mp hno)]
      simp [getProviderForModel, hr]

/-- **Registry completeness.** After any history of updates of a configuration with unique names,
the routed models are those that some provider lists, routes lead to enabled providers, and the
providers for a model are none or start with the routed one, without one twice. -/
theorem registry_complete (providers : List Provider) (hn : (providers.map (·.name)).Nodup)
    (updates : List Update) :
    let inner := afterUpdates providers updates
    (∀ model, model ∈ inner.modelToProvider ↔ inner.Lists model) ∧
      (∀ model name, inner.modelToProvider.get model = some name →
        ∃ p, inner.providers.get name = some p ∧ p.enabled = true) ∧
      ∀ (order : IterOrder String Provider) (model : String),
        (inner.getProvidersForModel order model ≠ [] ↔ inner.Lists model) ∧
        ((inner.getProvidersForModel order model).map (·.name)).Nodup ∧
        (inner.getProvidersForModel order model).head? = inner.getProviderForModel model := by
  have h := complete_afterUpdates hn updates
  refine ⟨h.listed, fun model name hr => ?_, fun order model => h.getProvidersForModel order model⟩
  obtain ⟨p, hp⟩ := HashMap.mem_iff_get.mp (h.routed model name hr)
  exact ⟨p, hp, h.enabled name p hp⟩

/-- An enabled and a disabled provider. -/
def sampleProviders : List Provider :=
  [⟨"static", "https://static", none, .openaiV1, ["m"], true⟩,
    ⟨"off", "https://off", none, .openaiV1, ["x"], false⟩]

/-- A snapshot with a new group and a group of the disabled name. -/
def sampleUpdate : Update where
  modelsByProvider := HashMap.insertAll ∅ [("auto", ["m", "v/n"]), ("off", ["x"])]
  apertureUrl := "https://gateway"
  groupOrder := .entries
  providerOrder := .entries

theorem registry_complete_sample :
    let inner := afterUpdates sampleProviders [sampleUpdate]
    (∀ model, model ∈ inner.modelToProvider ↔ inner.Lists model) ∧
      (∀ model name, inner.modelToProvider.get model = some name →
        ∃ p, inner.providers.get name = some p ∧ p.enabled = true) ∧
      ∀ (order : IterOrder String Provider) (model : String),
        (inner.getProvidersForModel order model ≠ [] ↔ inner.Lists model) ∧
        ((inner.getProvidersForModel order model).map (·.name)).Nodup ∧
        (inner.getProvidersForModel order model).head? = inner.getProviderForModel model :=
  registry_complete sampleProviders (by decide) [sampleUpdate]

end RegistryInner

end ApertureRouter
