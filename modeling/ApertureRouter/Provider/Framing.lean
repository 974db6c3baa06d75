import Mathlib.Data.List.Induction
import ApertureRouter.Provider.Completeness

/-!
# What an update does, and what it leaves alone

* `Framed`: a complete registry in which the configured providers are there, the models they list
  are routed to configured providers, and the disabled names are not used.
* `Framed.update_provider`, `Framed.update_route_static`, `Framed.update_route_offered`,
  `Framed.update_route_none`: an update as two lookups. The pass over the models without a route
  finds none (`Framed.manualEntries_addGroups`), so what it does is decided by the groups in order
  (`firstGroup`) and by the routes that survive (`survivingRoute`).
* `Frames`: one registry has the configured part of another. Every update frames
  (`Framed.frames_update`), so every history does (`frames_afterUpdates`).
* `static_framed`: what this says about a configuration.
-/

namespace ApertureRouter

namespace RegistryInner

/-- A configured provider lists the model. -/
def StaticLists (inner : RegistryInner) (model : String) : Prop :=
  ∃ name ∈ inner.staticProviders, ∃ p, inner.providers.get name = some p ∧ model ∈ p.models

structure Framed (inner : RegistryInner) : Prop extends Complete inner where
  configured : ∀ name ∈ inner.staticProviders, name ∈ inner.providers
  disabled : ∀ name ∈ inner.disabledStaticProviders, name ∉ inner.providers
  staticRoute : ∀ model, inner.StaticLists model →
    ∃ name ∈ inner.staticProviders, inner.modelToProvider.get model = some name

/-- The route of the model, if its provider stays. -/
def survivingRoute (u : Update) (inner : RegistryInner) (model : String) : Option String :=
  (inner.modelToProvider.get model).filter (inner.stays u)

/-- The first group of the snapshot that lists the model, without the disabled ones. -/
def firstGroup (u : Update) (inner : RegistryInner) (model : String) : Option String :=
  ((u.groupOrder.list u.modelsByProvider).find? fun g =>
    decide (g.1 ∉ inner.disabledStaticProviders) && decide (model ∈ g.2)).map (·.1)

/-- A group of the snapshot lists the model, under a name that the configuration does not use. -/
def Offers (u : Update) (inner : RegistryInner) (model : String) : Prop :=
  ∃ name models, u.modelsByProvider.get name = some models ∧ name ∉ inner.staticProviders ∧
    name ∉ inner.disabledStaticProviders ∧ model ∈ models

/-- The provider of a group after an update. -/
def updatedProvider (apertureUrl : String) (inner : RegistryInner) (providerId : String)
    (modelIds : List String) : Provider :=
  match inner.providers.get providerId with
  | none => autoProvider apertureUrl providerId modelIds
  | some provider =>
    if providerId ∈ inner.staticProviders then provider else { provider with models := modelIds }

variable {inner : RegistryInner} {u : Update}

/-! ## One group -/

@[simp] theorem addProvider_staticProviders (url name : String) (models : List String) :
    (addProvider url name models inner).staticProviders = inner.staticProviders := by
  unfold addProvider
  split
  · rfl
  · split <;> rfl

@[simp] theorem addProvider_disabledStaticProviders (url name : String) (models : List String) :
    (addProvider url name models inner).disabledStaticProviders =
      inner.disabledStaticProviders := by
  unfold addProvider
  split
  · rfl
  · split <;> rfl

@[simp] theorem addProvider_modelToProvider (url name : String) (models : List String) :
    (addProvider url name models inner).modelToProvider = inner.modelToProvider := by
  unfold addProvider
  split
  · rfl
  · split <;> rfl

theorem get_addProvider (url name : String) (models : List String) (n : String) :
    (addProvider url name models inner).providers.get n =
      if n = name then some (inner.updatedProvider url name models) else inner.providers.get n := by
  unfold addProvider updatedProvider
  cases hp : inner.providers.get name with
  | none => exact HashMap.get_insert ..
  | some p =>
    by_cases hs : name ∈ inner.staticProviders
    · by_cases hn : n = name
      · simp [hs, hn, hp]
      · simp [hs, hn]
    · simp [hs, HashMap.get_insert]

/-- Routing models changes the routes only, and only those of models without one. -/
theorem routeModels_eq (name : String) (models : List String) :
    let routed := models.foldl (routeModel name) inner
    routed.providers = inner.providers ∧ routed.staticProviders = inner.staticProviders ∧
      routed.disabledStaticProviders = inner.disabledStaticProviders ∧
      ∀ m, routed.modelToProvider.get m =
        (inner.modelToProvider.get m).or (if m ∈ models then some name else none) := by
  induction models generalizing inner with
  | nil => simp
  | cons model models ih =>
    obtain ⟨hp, hs, hd, hr⟩ := @ih (routeModel name inner model)
    simp only [List.foldl_cons]
    have hstep : (routeModel name inner model).providers = inner.providers ∧
        (routeModel name inner model).staticProviders = inner.staticProviders ∧
        (routeModel name inner model).disabledStaticProviders = inner.disabledStaticProviders ∧
        ∀ m, (routeModel name inner model).modelToProvider.get m =
          (inner.modelToProvider.get m).or (if m = model then some name else none) := by
      unfold routeModel
      split
      · rename_i n hn
        refine ⟨rfl, rfl, rfl, fun m => ?_⟩
        by_cases hm : m = model
        · simp [hm, hn]
        · simp [hm]
      · rename_i hn
        refine ⟨rfl, rfl, rfl, fun m => ?_⟩
        rw [HashMap.get_insert]
        by_cases hm : m = model
        · simp [hm, hn]
        · simp [hm]
    refine ⟨hp.trans hstep.1, hs.trans hstep.2.1, hd.trans hstep.2.2.1, fun m => ?_⟩
    rw [hr, hstep.2.2.2, Option.or_assoc]
    by_cases hm : m = model <;> simp [hm]

/-- What a group does to the lookups. -/
theorem addGroup_eq (url : String) (g : Sigma fun _ : String => List String) :
    (inner.addGroup url g).staticProviders = inner.staticProviders ∧
      (inner.addGroup url g).disabledStaticProviders = inner.disabledStaticProviders ∧
      (∀ n, (inner.addGroup url g).providers.get n =
        if n = g.1 ∧ g.1 ∉ inner.disabledStaticProviders then
          some (inner.updatedProvider url g.1 g.2)
        else inner.providers.get n) ∧
      ∀ m, (inner.addGroup url g).modelToProvider.get m =
        (inner.modelToProvider.get m).or
          (if g.1 ∉ inner.disabledStaticProviders ∧ m ∈ g.2 then some g.1 else none) := by
  unfold addGroup
  by_cases hd : g.1 ∈ inner.disabledStaticProviders
  · simp [hd]
  · rw [if_neg hd]
    obtain ⟨hp, hs, hdis, hr⟩ := @routeModels_eq (addProvider url g.1 g.2 inner) g.1 g.2
    refine ⟨by simpa using hs, by simpa using hdis, fun n => ?_, fun m => ?_⟩
    · rw [hp, get_addProvider]
      simp [hd]
    · rw [hr]
      simp [hd]

/-! ## All groups -/

section Groups

variable (url : String) (groups : List (Sigma fun _ : String => List String))

theorem addGroups_names :
    (groups.foldl (addGroup url) inner).staticProviders = inner.staticProviders ∧
      (groups.foldl (addGroup url) inner).disabledStaticProviders =
        inner.disabledStaticProviders := by
  induction groups generalizing inner with
  | nil => exact ⟨rfl, rfl⟩
  | cons g groups ih =>
    obtain ⟨hs, hd, -⟩ := @addGroup_eq inner url g
    rw [List.foldl_cons, ih.1, ih.2]
    exact ⟨hs, hd⟩

/-- A name without a group, or a disabled one, keeps its provider. -/
theorem get_addGroups_of_notMem {n : String}
    (hn : n ∈ inner.disabledStaticProviders ∨ ∀ g ∈ groups, g.1 ≠ n) :
    (groups.foldl (addGroup url) inner).providers.get n = inner.providers.get n := by
  induction groups generalizing inner with
  | nil => rfl
  | cons g groups ih =>
    obtain ⟨-, hd, hp, -⟩ := @addGroup_eq inner url g
    rw [List.foldl_cons, ih, hp, if_neg]
    · rintro ⟨rfl, hnd⟩
      rcases hn with hn | hn
      · exact hnd hn
      · exact hn g (by simp) rfl
    · rw [hd]
      exact hn.imp_right fun h g' hg' => h g' (by simp [hg'])

variable {groups}

theorem get_addGroups_of_mem (hk : (groups.map (·.1)).Nodup) {n : String} {models : List String}
    (hg : ⟨n, models⟩ ∈ groups) (hd : n ∉ inner.disabledStaticProviders) :
    (groups.foldl (addGroup url) inner).providers.get n =
      some (inner.updatedProvider url n models) := by
  induction groups generalizing inner with
  | nil => cases hg
  | cons g groups ih =>
    obtain ⟨hnot, hk⟩ := List.nodup_cons.mp hk
    obtain ⟨hs, hdis, hp, -⟩ := @addGroup_eq inner url g
    rw [List.foldl_cons]
    rcases List.mem_cons.mp hg with rfl | hg
    · rw [get_addGroups_of_notMem, hp, if_pos ⟨rfl, hd⟩]
      exact .inr fun g' hg' e => hnot (List.mem_map.mpr ⟨g', hg', e⟩)
    · have hne : n ≠ g.1 := by
        rintro rfl
        exact hnot (List.mem_map.mpr ⟨_, hg, rfl⟩)
      have hsame : (inner.addGroup url g).updatedProvider url n models =
          inner.updatedProvider url n models := by
        unfold updatedProvider
        rw [hp, if_neg (fun h => hne h.1), hs]
      rw [ih hk hg (by rwa [hdis]), hsame]

theorem get_addGroups_route (m : String) :
    (groups.foldl (addGroup url) inner).modelToProvider.get m =
      (inner.modelToProvider.get m).or ((groups.find? fun g =>
        decide (g.1 ∉ inner.disabledStaticProviders) && decide (m ∈ g.2)).map (·.1)) := by
  induction groups generalizing inner with
  | nil => simp
  | cons g groups ih =>
    obtain ⟨-, hd, -, hr⟩ := @addGroup_eq inner url g
    rw [List.foldl_cons, ih, hr, hd, Option.or_assoc]
    congr 1
    by_cases hlist : g.1 ∉ inner.disabledStaticProviders ∧ m ∈ g.2
    · simp [hlist]
    · rw [if_neg hlist, Option.none_or, List.find?_cons_of_neg]
      simpa using hlist

end Groups

/-! ## The update as lookups -/

theorem groups_nodup (u : Update) :
    ((u.groupOrder.list u.modelsByProvider).map (·.1)).Nodup :=
  ((u.groupOrder.perm _).map _).nodup_iff.mpr u.modelsByProvider.nodupKeys

/-- The registry after the pass over the groups. -/
def afterGroups (u : Update) (inner : RegistryInner) : RegistryInner :=
  (u.groupOrder.list u.modelsByProvider).foldl (addGroup u.apertureUrl) (inner.removeStale u)

theorem firstGroup_isSome {m : String} (h : inner.Offers u m) : (inner.firstGroup u m).isSome := by
  obtain ⟨name, models, hg, -, hd, hm⟩ := h
  rw [firstGroup, Option.isSome_map, List.find?_isSome]
  exact ⟨⟨name, models⟩, u.groupOrder.mem_list.mpr hg, by simp [hd, hm]⟩

theorem firstGroup_eq_some {m name : String} (h : inner.firstGroup u m = some name) :
    ∃ models, u.modelsByProvider.get name = some models ∧
      name ∉ inner.disabledStaticProviders ∧ m ∈ models := by
  obtain ⟨⟨name', models⟩, hf, rfl⟩ := Option.map_eq_some_iff.mp h
  have hp := List.find?_some hf
  rw [Bool.and_eq_true, decide_eq_true_eq, decide_eq_true_eq] at hp
  exact ⟨models, u.groupOrder.mem_list.mp (List.mem_of_find?_eq_some hf), hp⟩

theorem afterGroups_route (m : String) :
    (inner.afterGroups u).modelToProvider.get m =
      (inner.survivingRoute u m).or (inner.firstGroup u m) := by
  rw [afterGroups, get_addGroups_route]
  simp only [removeStale, HashMap.get_retain]
  rfl

theorem removeStale_provider (n : String) : (inner.removeStale u).providers.get n =
    (inner.providers.get n).filter fun _ => inner.stays u n :=
  HashMap.get_retain ..

/-- The provider of a name that the configuration does not use, or only for a disabled one. -/
theorem afterGroups_provider_of_notMem {n : String} (hs : n ∉ inner.staticProviders)
    (hd : n ∈ inner.disabledStaticProviders → n ∉ inner.providers) :
    (inner.afterGroups u).providers.get n =
      if n ∈ inner.disabledStaticProviders then none
      else (u.modelsByProvider.get n).map (inner.updatedProvider u.apertureUrl n) := by
  unfold afterGroups
  by_cases hdis : n ∈ inner.disabledStaticProviders
  · rw [@get_addGroups_of_notMem (inner.removeStale u) _ _ _ (.inl hdis), removeStale_provider,
      HashMap.get_eq_none.mpr (hd hdis), if_pos hdis]
    rfl
  · rw [if_neg hdis]
    cases hg : u.modelsByProvider.get n with
    | none =>
      rw [get_addGroups_of_notMem, removeStale_provider]
      · simp [stays, hs, HashMap.get_eq_none.mp hg]
      · refine .inr ?_
        rintro ⟨n', models⟩ hm rfl
        rw [u.groupOrder.mem_list, hg] at hm
        cases hm
    | some models =>
      have hget : (inner.removeStale u).providers.get n = inner.providers.get n := by
        have hstays : inner.stays u n = true := by
          simp [stays, HashMap.mem_iff_get.mpr ⟨models, hg⟩]
        rw [removeStale_provider, hstays]
        cases inner.providers.get n <;> rfl
      have hnames : (inner.removeStale u).staticProviders = inner.staticProviders := rfl
      rw [@get_addGroups_of_mem (inner.removeStale u) _ _ (groups_nodup u) _ _
        (u.groupOrder.mem_list.mpr hg) hdis]
      unfold updatedProvider
      rw [hget, hnames]
      rfl

theorem Framed.afterGroups_provider (h : inner.Framed) (n : String) :
    (inner.afterGroups u).providers.get n =
      if n ∈ inner.staticProviders then inner.providers.get n
      else if n ∈ inner.disabledStaticProviders then none
      else (u.modelsByProvider.get n).map (inner.updatedProvider u.apertureUrl n) := by
  by_cases hs : n ∈ inner.staticProviders
  · have hd : n ∉ inner.disabledStaticProviders := fun hd => h.disabled n hd (h.configured n hs)
    obtain ⟨p, hp⟩ := HashMap.mem_iff_get.mp (h.configured n hs)
    have hstays : inner.stays u n = true := by simp [stays, hs]
    have hget : (inner.removeStale u).providers.get n = some p := by
      rw [removeStale_provider, hstays, hp]
      rfl
    rw [if_pos hs, afterGroups]
    cases hg : u.modelsByProvider.get n with
    | none =>
      rw [get_addGroups_of_notMem, hget, hp]
      refine .inr ?_
      rintro ⟨n', models⟩ hm rfl
      rw [u.groupOrder.mem_list, hg] at hm
      cases hm
    | some models =>
      have hnames : (inner.removeStale u).staticProviders = inner.staticProviders := rfl
      rw [@get_addGroups_of_mem (inner.removeStale u) _ _ (groups_nodup u) _ _
        (u.groupOrder.mem_list.mpr hg) hd, updatedProvider, hget, hnames, hp]
      simp [hs]
  · rw [if_neg hs, afterGroups_provider_of_notMem hs (h.disabled n)]

@[simp] theorem updatedProvider_models {name url : String} {models : List String}
    (hs : name ∉ inner.staticProviders) : (inner.updatedProvider url name models).models = models := by
  unfold updatedProvider
  split
  · rfl
  · rw [if_neg hs]

theorem Framed.afterGroups_lists (h : inner.Framed) (m : String) :
    (inner.afterGroups u).Lists m ↔ inner.StaticLists m ∨ inner.Offers u m := by
  constructor
  · rintro ⟨name, p, hp, hm⟩
    rw [h.afterGroups_provider] at hp
    by_cases hs : name ∈ inner.staticProviders
    · rw [if_pos hs] at hp
      exact .inl ⟨name, hs, p, hp, hm⟩
    · rw [if_neg hs] at hp
      by_cases hd : name ∈ inner.disabledStaticProviders
      · rw [if_pos hd] at hp
        cases hp
      · rw [if_neg hd, Option.map_eq_some_iff] at hp
        obtain ⟨models, hg, rfl⟩ := hp
        exact .inr ⟨name, models, hg, hs, hd, by simpa [hs] using hm⟩
  · rintro (⟨name, hs, p, hp, hm⟩ | ⟨name, models, hg, hs, hd, hm⟩)
    · exact ⟨name, p, by rw [h.afterGroups_provider, if_pos hs, hp], hm⟩
    · refine ⟨name, inner.updatedProvider u.apertureUrl name models, ?_, by simpa [hs] using hm⟩
      rw [h.afterGroups_provider, if_neg hs, if_neg hd, hg]
      rfl

theorem Framed.survivingRoute_static (h : inner.Framed) {m : String} (hm : inner.StaticLists m) :
    (inner.survivingRoute u m) = inner.modelToProvider.get m := by
  obtain ⟨name, hs, hr⟩ := h.staticRoute m hm
  rw [survivingRoute, hr]
  simp [stays, hs]

/-- Every model that a provider lists has a route before the last two passes. -/
theorem Framed.manualEntries_addGroups (h : inner.Framed) (order : IterOrder String Provider) :
    (inner.afterGroups u).manualEntries order = [] := by
  refine List.eq_nil_iff_forall_not_mem.mpr ?_
  rintro ⟨m, name⟩ he
  obtain ⟨hno, p, hp, hm⟩ := mem_manualEntries.mp he
  rw [← HashMap.get_eq_none, afterGroups_route, Option.or_eq_none_iff] at hno
  rcases (h.afterGroups_lists m).mp ⟨name, p, hp, hm⟩ with hs | ho
  · obtain ⟨name', -, hr⟩ := h.staticRoute m hs
    rw [h.survivingRoute_static hs, hr] at hno
    cases hno.1
  · have := firstGroup_isSome ho
    rw [hno.2] at this
    cases this

theorem Framed.update_eq (h : inner.Framed) :
    inner.updateFromDiscovery u = (inner.afterGroups u).pruneRoutes := by
  show ((inner.afterGroups u).routeManual u.providerOrder).pruneRoutes = _
  rw [routeManual, h.manualEntries_addGroups]
  rfl

theorem Framed.update_names (h : inner.Framed) :
    (inner.updateFromDiscovery u).staticProviders = inner.staticProviders ∧
      (inner.updateFromDiscovery u).disabledStaticProviders = inner.disabledStaticProviders := by
  rw [h.update_eq]
  exact addGroups_names ..

/-- **The provider table after an update.** -/
theorem Framed.update_provider (h : inner.Framed) (n : String) :
    (inner.updateFromDiscovery u).providers.get n =
      if n ∈ inner.staticProviders then inner.providers.get n
      else if n ∈ inner.disabledStaticProviders then none
      else (u.modelsByProvider.get n).map (inner.updatedProvider u.apertureUrl n) := by
  rw [h.update_eq]
  exact h.afterGroups_provider n

theorem Framed.update_route (h : inner.Framed) (m : String) :
    (inner.updateFromDiscovery u).modelToProvider.get m =
      ((inner.survivingRoute u m).or (inner.firstGroup u m)).filter fun _ =>
        decide (m ∈ (inner.afterGroups u).allValidModels) := by
  have hsound : (inner.afterGroups u).Sound := (h.toSound.removeStale u).addGroups u.apertureUrl _
  rw [h.update_eq, pruneRoutes, HashMap.get_retain, ← afterGroups_route]
  cases hr : (inner.afterGroups u).modelToProvider.get m with
  | none => rfl
  | some name => simp [Option.filter, hsound.routed m name hr]

/-- **The route of a model that the configuration lists stays.** -/
theorem Framed.update_route_static (h : inner.Framed) {m : String} (hm : inner.StaticLists m) :
    (inner.updateFromDiscovery u).modelToProvider.get m = inner.modelToProvider.get m := by
  obtain ⟨name, hs, hr⟩ := h.staticRoute m hm
  rw [h.update_route, h.survivingRoute_static hm, hr]
  simp [Option.filter, mem_allValidModels, h.afterGroups_lists, hm]

/-- **The route of a model that a group offers**: the one that it had, or the first group. -/
theorem Framed.update_route_offered (h : inner.Framed) {m : String} (hm : inner.Offers u m) :
    (inner.updateFromDiscovery u).modelToProvider.get m =
      (inner.survivingRoute u m).or (inner.firstGroup u m) := by
  rw [h.update_route]
  have hv : m ∈ (inner.afterGroups u).allValidModels := by
    rw [mem_allValidModels, h.afterGroups_lists]
    exact .inr hm
  cases (inner.survivingRoute u m).or (inner.firstGroup u m) <;> simp [hv]

/-- **No other model has a route.** -/
theorem Framed.update_route_none (h : inner.Framed) {m : String} (hs : ¬inner.StaticLists m)
    (ho : ¬inner.Offers u m) : (inner.updateFromDiscovery u).modelToProvider.get m = none := by
  rw [h.update_route]
  have hv : m ∉ (inner.afterGroups u).allValidModels := by
    rw [mem_allValidModels, h.afterGroups_lists]
    exact not_or_intro hs ho
  simp [hv]

/-! ## The configured part -/

/-- `inner'` has the configured providers of `inner` and the routes of what they list. -/
structure Frames (inner inner' : RegistryInner) : Prop where
  staticProviders : inner'.staticProviders = inner.staticProviders
  disabledStaticProviders : inner'.disabledStaticProviders = inner.disabledStaticProviders
  provider : ∀ name ∈ inner.staticProviders, inner'.providers.get name = inner.providers.get name
  route : ∀ model, inner.StaticLists model →
    inner'.modelToProvider.get model = inner.modelToProvider.get model

theorem Frames.refl (inner : RegistryInner) : inner.Frames inner :=
  ⟨rfl, rfl, fun _ _ => rfl, fun _ _ => rfl⟩

theorem Frames.staticLists {inner' : RegistryInner} (h : inner.Frames inner') {m : String} :
    inner'.StaticLists m ↔ inner.StaticLists m := by
  unfold StaticLists
  rw [h.staticProviders]
  constructor
  · rintro ⟨name, hs, hp⟩
    exact ⟨name, hs, by rwa [h.provider name hs] at hp⟩
  · rintro ⟨name, hs, hp⟩
    exact ⟨name, hs, by rwa [h.provider name hs]⟩

theorem Frames.trans {i₁ i₂ i₃ : RegistryInner} (h : i₁.Frames i₂) (h' : i₂.Frames i₃) :
    i₁.Frames i₃ where
  staticProviders := h'.staticProviders.trans h.staticProviders
  disabledStaticProviders := h'.disabledStaticProviders.trans h.disabledStaticProviders
  provider name hs :=
    (h'.provider name (by rwa [h.staticProviders])).trans (h.provider name hs)
  route m hm := (h'.route m (h.staticLists.mpr hm)).trans (h.route m hm)

/-- **An update frames the configured part.** -/
theorem Framed.frames_update (h : inner.Framed) (u : Update) :
    inner.Frames (inner.updateFromDiscovery u) where
  staticProviders := h.update_names.1
  disabledStaticProviders := h.update_names.2
  provider name hs := by rw [h.update_provider, if_pos hs]
  route _ hm := h.update_route_static hm

theorem Framed.updateFromDiscovery (h : inner.Framed) (u : Update) :
    (inner.updateFromDiscovery u).Framed := by
  have hf := h.frames_update u
  refine ⟨h.toComplete.updateFromDiscovery u, fun name hs => ?_, fun name hd => ?_, fun m hm => ?_⟩
  · rw [hf.staticProviders] at hs
    rw [HashMap.mem_iff_get, hf.provider name hs, ← HashMap.mem_iff_get]
    exact h.configured name hs
  · rw [hf.disabledStaticProviders] at hd
    rw [← HashMap.get_eq_none, h.update_provider]
    rw [if_neg fun hs => h.disabled name hd (h.configured name hs), if_pos hd]
  · rw [hf.staticLists] at hm
    rw [hf.staticProviders, hf.route m hm]
    exact h.staticRoute m hm

/-! ## From the configuration on -/

/-- What the configuration puts into the registry. -/
structure Configured (providers : List Provider) (inner : RegistryInner) : Prop where
  names : ∀ name, name ∈ inner.staticProviders ↔ ∃ p ∈ providers, p.enabled = true ∧ p.name = name
  disabled : ∀ name, name ∈ inner.disabledStaticProviders ↔
    ∃ p ∈ providers, p.enabled = false ∧ p.name = name
  table : ∀ name p, inner.providers.get name = some p ↔
    p ∈ providers ∧ p.enabled = true ∧ p.name = name
  routes : ∀ m name, inner.modelToProvider.get m = some name →
    ∃ p ∈ providers, p.enabled = true ∧ p.name = name ∧ m ∈ p.models

private theorem exists_mem_concat {providers : List Provider} {p : Provider}
    {P : Provider → Prop} :
    (∃ q ∈ providers ++ [p], P q) ↔ (∃ q ∈ providers, P q) ∨ P p := by
  simp [or_and_right, exists_or]

/-- A disabled provider adds its name only. -/
theorem Configured.concat_disabled {providers : List Provider} (h : inner.Configured providers)
    {p : Provider} (he : p.enabled = false) :
    (inner.addConfigured p).Configured (providers ++ [p]) := by
  unfold addConfigured
  rw [he]
  refine ⟨fun name => ?_, fun name => ?_, fun name q => ?_, fun m name hr => ?_⟩
  · rw [exists_mem_concat]
    simp [h.names, he]
  · simp only [Bool.false_eq_true, if_false, List.mem_cons, h.disabled, exists_mem_concat, he, true_and]
    exact or_comm.trans (or_congr_right eq_comm)
  · simp only [h.table, List.mem_append, List.mem_singleton, Bool.false_eq_true, if_false]
    constructor
    · exact And.imp_left .inl
    · rintro ⟨hq | rfl, hen, h⟩
      · exact ⟨hq, hen, h⟩
      · rw [he] at hen
        cases hen
  · obtain ⟨q, hq, h⟩ := h.routes m name hr
    exact ⟨q, by simp [hq], h⟩

/-- An enabled provider adds its entry and its routes. -/
theorem Configured.concat_enabled {providers : List Provider} (h : inner.Configured providers)
    {p : Provider} (he : p.enabled = true) (hp : p.name ∉ providers.map (·.name)) :
    (inner.addConfigured p).Configured (providers ++ [p]) := by
  unfold addConfigured
  rw [he]
  refine ⟨fun name => ?_, fun name => ?_, fun name q => ?_, fun m name hr => ?_⟩
  · simp only [if_true, List.mem_cons, h.names, exists_mem_concat, he, true_and]
    exact or_comm.trans (or_congr_right eq_comm)
  · rw [exists_mem_concat]
    simp [h.disabled, he]
  · simp only [if_true, HashMap.get_insert, List.mem_append, List.mem_singleton]
    by_cases hn : name = p.name
    · rw [if_pos hn, Option.some_inj]
      constructor
      · rintro rfl
        exact ⟨.inr rfl, he, hn.symm⟩
      · rintro ⟨hq | hq, -, hqn⟩
        · exact absurd (List.mem_map.mpr ⟨q, hq, hqn.trans hn⟩) hp
        · exact hq.symm
    · rw [if_neg hn, h.table]
      constructor
      · exact And.imp_left .inl
      · rintro ⟨hq | rfl, hen, hqn⟩
        · exact ⟨hq, hen, hqn⟩
        · exact absurd hqn.symm hn
  · simp only [if_true, routeAll] at hr
    rcases HashMap.get_insertAll hr with hr | hr
    · obtain ⟨q, hq, h⟩ := h.routes m name hr
      exact ⟨q, by simp [hq], h⟩
    · obtain ⟨m', hm, heq⟩ := List.mem_map.mp hr
      cases heq
      exact ⟨p, by simp, he, rfl, hm⟩

theorem Configured.concat {providers : List Provider} (h : inner.Configured providers)
    {p : Provider} (hp : p.name ∉ providers.map (·.name)) :
    (inner.addConfigured p).Configured (providers ++ [p]) := by
  cases he : p.enabled with
  | false => exact h.concat_disabled he
  | true => exact h.concat_enabled he hp

theorem configured_new {providers : List Provider} (hn : (providers.map (·.name)).Nodup) :
    (new providers).Configured providers := by
  induction providers using List.reverseRecOn with
  | nil => exact ⟨by simp [new], by simp [new], by simp [new], by simp [new]⟩
  | append_singleton providers p ih =>
    rw [List.map_append, List.nodup_append] at hn
    rw [new, List.foldl_append]
    refine (ih hn.1).concat fun hmem => ?_
    exact hn.2.2 _ hmem p.name (by simp) rfl

theorem Configured.notMem_disabled {providers : List Provider} (h : inner.Configured providers)
    (hn : (providers.map (·.name)).Nodup) {name : String}
    (hd : name ∈ inner.disabledStaticProviders) : name ∉ inner.providers := by
  rw [HashMap.mem_iff_get]
  rintro ⟨p, hp⟩
  obtain ⟨hmem, he, hname⟩ := (h.table name p).mp hp
  obtain ⟨q, hq, hqe, hqn⟩ := (h.disabled name).mp hd
  have : p = q := List.inj_on_of_nodup_map hn hmem hq (hname.trans hqn.symm)
  rw [this, hqe] at he
  cases he

theorem framed_new {providers : List Provider} (hn : (providers.map (·.name)).Nodup) :
    (new providers).Framed := by
  have hc := configured_new hn
  refine ⟨complete_new hn, fun name hs => ?_, fun name => hc.notMem_disabled hn, fun m hm => ?_⟩
  · obtain ⟨p, hp, he, hname⟩ := (hc.names name).mp hs
    exact HashMap.mem_iff_get.mpr ⟨p, (hc.table name p).mpr ⟨hp, he, hname⟩⟩
  · obtain ⟨name, -, p, hp, hmem⟩ := hm
    obtain ⟨name', hr⟩ := HashMap.mem_iff_get.mp
      (((complete_new hn).listed m).mpr ⟨name, p, hp, hmem⟩)
    obtain ⟨q, hq, he, hname, -⟩ := hc.routes m name' hr
    exact ⟨name', (hc.names name').mpr ⟨q, hq, he, hname⟩, hr⟩

/-- **Every history of updates frames the configured part.** -/
theorem frames_afterUpdates {providers : List Provider} (hn : (providers.map (·.name)).Nodup)
    (updates : List Update) :
    (afterUpdates providers updates).Framed ∧
      (new providers).Frames (afterUpdates providers updates) := by
  induction updates using List.reverseRecOn with
  | nil => exact ⟨framed_new hn, .refl _⟩
  | append_singleton updates u ih =>
    rw [afterUpdates, List.foldl_append]
    exact ⟨ih.1.updateFromDiscovery u, ih.2.trans (ih.1.frames_update u)⟩

/-- **Static providers are framed.** Whatever discovery reports, an enabled configured provider
keeps its entry and the models it lists keep their routes, and the name of a disabled one is neither
a provider nor the target of a route. -/
theorem static_framed (providers : List Provider) (hn : (providers.map (·.name)).Nodup)
    (updates : List Update) :
    let inner := afterUpdates providers updates
    (∀ p ∈ providers, p.enabled = true → inner.providers.get p.name = some p ∧
      ∀ m ∈ p.models, ∃ name, (new providers).modelToProvider.get m = some name ∧
        inner.modelToProvider.get m = some name) ∧
      ∀ p ∈ providers, p.enabled = false → p.name ∉ inner.providers ∧
        ∀ m, inner.modelToProvider.get m ≠ some p.name := by
  obtain ⟨hframed, hframes⟩ := frames_afterUpdates hn updates
  have hc := configured_new hn
  refine ⟨fun p hp he => ?_, fun p hp he => ?_⟩
  · have hs : p.name ∈ (new providers).staticProviders := (hc.names _).mpr ⟨p, hp, he, rfl⟩
    have hget : (new providers).providers.get p.name = some p :=
      (hc.table _ p).mpr ⟨hp, he, rfl⟩
    refine ⟨(hframes.provider _ hs).trans hget, fun m hm => ?_⟩
    have hlists : (new providers).StaticLists m := ⟨p.name, hs, p, hget, hm⟩
    obtain ⟨name, -, hr⟩ := (framed_new hn).staticRoute m hlists
    exact ⟨name, hr, (hframes.route m hlists).trans hr⟩
  · have hd : p.name ∈ (afterUpdates providers updates).disabledStaticProviders := by
      rw [hframes.disabledStaticProviders]
      exact (hc.disabled _).mpr ⟨p, hp, he, rfl⟩
    have hno := hframed.disabled _ hd
    exact ⟨hno, fun m hr => hno (hframed.routed m _ hr)⟩

theorem static_framed_sample :
    let inner := afterUpdates sampleProviders [sampleUpdate]
    (∀ p ∈ sampleProviders, p.enabled = true → inner.providers.get p.name = some p ∧
      ∀ m ∈ p.models, ∃ name, (new sampleProviders).modelToProvider.get m = some name ∧
        inner.modelToProvider.get m = some name) ∧
      ∀ p ∈ sampleProviders, p.enabled = false → p.name ∉ inner.providers ∧
        ∀ m, inner.modelToProvider.get m ≠ some p.name :=
  static_framed sampleProviders (by decide) [sampleUpdate]

end RegistryInner

end ApertureRouter
