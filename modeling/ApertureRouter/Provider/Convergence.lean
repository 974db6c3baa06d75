import ApertureRouter.Provider.Framing

/-!
# What a registry remembers

An update leaves a route alone, and the endpoint style of a provider, once they are there. These are
the places where a later state depends on more than the last snapshot.

* `registry_integrity_iff`: a route leads to a provider that lists the model, in every state of a
  run, if and only if every update of the run keeps it so (`KeepsOffers`).
* `registry_converges_iff`: an update gives what it gives to the fresh registry if and only if
  nothing it would decide differently is there (`Forgets`).
* `update_orderIndependent_iff`: an update gives one result for all iteration orders if and only if
  no model without a route has two groups to choose from (`OneGroup`).
* `update_idempotent`: the same snapshot again changes nothing, whatever the iteration orders are.
-/

namespace ApertureRouter

/-- The update with other iteration orders. -/
def Update.reordered (u : Update) (groupOrder : IterOrder String (List String))
    (providerOrder : IterOrder String Provider) : Update :=
  { u with groupOrder, providerOrder }

namespace RegistryInner

variable {inner : RegistryInner} {u : Update}

/-! ## Routes lead to providers that list the model -/

/-- Every route leads to a provider that lists the model. -/
def Integral (inner : RegistryInner) : Prop :=
  ∀ model name, inner.modelToProvider.get model = some name →
    ∃ p, inner.providers.get name = some p ∧ model ∈ p.models

/-- The update meets no route of an offered model to a group that no longer lists the model, and
gives no route to a group of a configured name. -/
structure KeepsOffers (u : Update) (inner : RegistryInner) : Prop where
  kept : ∀ model name models, inner.Offers u model →
    inner.modelToProvider.get model = some name → name ∉ inner.staticProviders →
    u.modelsByProvider.get name = some models → model ∈ models
  fresh : ∀ model name, inner.Offers u model → inner.survivingRoute u model = none →
    inner.firstGroup u model = some name → name ∉ inner.staticProviders

theorem integral_new {providers : List Provider} (hn : (providers.map (·.name)).Nodup) :
    (new providers).Integral := by
  intro m name hr
  have hc := configured_new hn
  obtain ⟨p, hp, he, hname, hm⟩ := hc.routes m name hr
  exact ⟨p, (hc.table name p).mpr ⟨hp, he, hname⟩, hm⟩

theorem survivingRoute_eq_some {m name : String} :
    inner.survivingRoute u m = some name ↔
      inner.modelToProvider.get m = some name ∧ inner.stays u name = true :=
  Option.filter_eq_some_iff

/-- A group that is not the configuration's has its models after the update. -/
theorem Framed.update_provider_group (h : inner.Framed) {name : String} {models : List String}
    (hg : u.modelsByProvider.get name = some models) (hs : name ∉ inner.staticProviders)
    (hd : name ∉ inner.disabledStaticProviders) :
    (inner.updateFromDiscovery u).providers.get name =
      some (inner.updatedProvider u.apertureUrl name models) := by
  rw [h.update_provider, if_neg hs, if_neg hd, hg]
  rfl

/-- **One update keeps the routes' integrity under `KeepsOffers`.** -/
theorem Framed.integral_update (h : inner.Framed) (hi : inner.Integral) (hu : KeepsOffers u inner) :
    (inner.updateFromDiscovery u).Integral := by
  intro m name hr
  by_cases hs : inner.StaticLists m
  · rw [h.update_route_static hs] at hr
    obtain ⟨name', hs', hr'⟩ := h.staticRoute m hs
    obtain rfl : name' = name := Option.some_inj.mp (hr'.symm.trans hr)
    rw [h.update_provider, if_pos hs']
    exact hi m name' hr
  · by_cases ho : inner.Offers u m
    · rw [h.update_route_offered ho] at hr
      cases hsur : inner.survivingRoute u m with
      | some name' =>
        rw [hsur, Option.some_or, Option.some_inj] at hr
        subst hr
        obtain ⟨hold, hstays⟩ := survivingRoute_eq_some.mp hsur
        by_cases hst : name' ∈ inner.staticProviders
        · rw [h.update_provider, if_pos hst]
          exact hi m name' hold
        · have hmem : name' ∈ u.modelsByProvider := by simpa [stays, hst] using hstays
          obtain ⟨models, hg⟩ := HashMap.mem_iff_get.mp hmem
          have hd : name' ∉ inner.disabledStaticProviders :=
            fun hd => h.disabled name' hd (h.routed m name' hold)
          refine ⟨_, h.update_provider_group hg hst hd, ?_⟩
          rw [updatedProvider_models hst]
          exact hu.kept m name' models ho hold hst hg
      | none =>
        rw [hsur, Option.none_or] at hr
        have hst := hu.fresh m name ho hsur hr
        obtain ⟨models, hg, hd, hm⟩ := firstGroup_eq_some hr
        refine ⟨_, h.update_provider_group hg hst hd, ?_⟩
        rw [updatedProvider_models hst]
        exact hm
    · rw [h.update_route_none hs ho] at hr
      cases hr

/-- An update after which the routes are integral met the condition. -/
theorem Framed.keepsOffers (h : inner.Framed) (ht : (inner.updateFromDiscovery u).Integral) :
    KeepsOffers u inner where
  kept m name models ho hold hst hg := by
    have hstays : inner.stays u name = true := by
      simp [stays, HashMap.mem_iff_get.mpr ⟨models, hg⟩]
    have hr : (inner.updateFromDiscovery u).modelToProvider.get m = some name := by
      rw [h.update_route_offered ho, survivingRoute_eq_some.mpr ⟨hold, hstays⟩]
      rfl
    have hd : name ∉ inner.disabledStaticProviders :=
      fun hd => h.disabled name hd (h.routed m name hold)
    obtain ⟨p, hp, hm⟩ := ht m name hr
    rw [h.update_provider_group hg hst hd, Option.some_inj] at hp
    rwa [← hp, updatedProvider_models hst] at hm
  fresh m name ho hsur hf hst := by
    have hr : (inner.updateFromDiscovery u).modelToProvider.get m = some name := by
      rw [h.update_route_offered ho, hsur, hf]
      rfl
    obtain ⟨p, hp, hm⟩ := ht m name hr
    -- A configured provider that lists the model has the model routed to the configuration.
    rw [h.update_provider, if_pos hst] at hp
    have hl : inner.StaticLists m := ⟨name, hst, p, hp, hm⟩
    obtain ⟨name', -, hr'⟩ := h.staticRoute m hl
    rw [h.survivingRoute_static hl, hr'] at hsur
    cases hsur

theorem afterUpdates_concat (providers : List Provider) (updates : List Update) (u : Update) :
    afterUpdates providers (updates ++ [u]) = (afterUpdates providers updates).updateFromDiscovery u :=
  List.foldl_append

/-- **Integrity of the routes.** In a run of updates every state is integral if and only if every
update meets `KeepsOffers` in the state before it. -/
theorem registry_integrity_iff (providers : List Provider) (hn : (providers.map (·.name)).Nodup)
    (updates : List Update) :
    (∀ run, run <+: updates → (afterUpdates providers run).Integral) ↔
      ∀ run u, run ++ [u] <+: updates → KeepsOffers u (afterUpdates providers run) := by
  constructor
  · intro h run u hrun
    refine (frames_afterUpdates hn run).1.keepsOffers ?_
    rw [← afterUpdates_concat]
    exact h _ hrun
  · intro h run hrun
    induction run using List.reverseRecOn with
    | nil => exact integral_new hn
    | append_singleton run u ih =>
      rw [afterUpdates_concat]
      exact (frames_afterUpdates hn run).1.integral_update
        (ih ((List.prefix_append _ _).trans hrun)) (h run u hrun)

/-- A snapshot of these groups, in an order that begins with the last. -/
def snapshot (groups : List (String × List String)) : Update where
  modelsByProvider := HashMap.insertAll ∅ groups
  apertureUrl := "https://gateway"
  groupOrder := .entries
  providerOrder := .entries

/-- Model `m` moves from group `a` to group `b`. -/
def movedModel : List Update := [snapshot [("a", ["m", "x"])], snapshot [("a", ["x"]), ("b", ["m"])]]

/-- The model that moved is left with the provider that lost it. -/
theorem movedModel_not_integral : ¬(afterUpdates [] movedModel).Integral := by
  intro h
  have hr : (afterUpdates [] movedModel).modelToProvider.get "m" = some "a" := by decide +kernel
  obtain ⟨p, hp, hm⟩ := h "m" "a" hr
  have hl : ((afterUpdates [] movedModel).providers.get "a").map (·.models) = some ["x"] := by
    decide +kernel
  rw [hp, Option.map_some, Option.some_inj] at hl
  rw [hl] at hm
  exact absurd hm (by decide)

theorem registry_integrity_iff_movedModel :
    (∀ run, run <+: movedModel → (afterUpdates [] run).Integral) ↔
      ∀ run u, run ++ [u] <+: movedModel → KeepsOffers u (afterUpdates [] run) :=
  registry_integrity_iff [] (by decide) movedModel

/-! ## The last snapshot alone -/

/-- What convergence compares of a provider. -/
def discoveredView (p : Provider) : String × List String × EndpointStyle :=
  (p.name, p.models, p.endpointStyle)

/-- The same auto-added providers and the same routes. -/
structure SameDiscovered (inner₁ inner₂ : RegistryInner) : Prop where
  provider : ∀ name ∉ inner₁.staticProviders,
    (inner₁.providers.get name).map discoveredView = (inner₂.providers.get name).map discoveredView
  route : ∀ model, inner₁.modelToProvider.get model = inner₂.modelToProvider.get model

/-- Nothing is there that the update would decide differently: an auto-added provider of a group has
the style of the group's models, and a route that survives, of an offered model that the
configuration does not route, leads to the first group that lists the model. -/
structure Forgets (u : Update) (fresh inner : RegistryInner) : Prop where
  style : ∀ name p models, inner.providers.get name = some p → name ∉ inner.staticProviders →
    u.modelsByProvider.get name = some models → p.endpointStyle = inferredStyle models
  route : ∀ model name, model ∉ fresh.modelToProvider → inner.Offers u model →
    inner.survivingRoute u model = some name → inner.firstGroup u model = some name

theorem Frames.offers {inner' : RegistryInner} (h : inner.Frames inner') {m : String} :
    inner'.Offers u m ↔ inner.Offers u m := by
  unfold Offers
  rw [h.staticProviders, h.disabledStaticProviders]

theorem Frames.firstGroup {inner' : RegistryInner} (h : inner.Frames inner') (m : String) :
    inner'.firstGroup u m = inner.firstGroup u m := by
  unfold RegistryInner.firstGroup
  rw [h.disabledStaticProviders]

/-- In the registry of a configuration a model has a route if the configuration lists it. -/
theorem staticLists_new {providers : List Provider} (hn : (providers.map (·.name)).Nodup)
    {m : String} : (new providers).StaticLists m ↔ m ∈ (new providers).modelToProvider := by
  have hc := configured_new hn
  constructor
  · rintro ⟨name, -, p, hp, hm⟩
    exact ((complete_new hn).listed m).mpr ⟨name, p, hp, hm⟩
  · intro hm
    obtain ⟨name, hr⟩ := HashMap.mem_iff_get.mp hm
    obtain ⟨p, hp, he, hname, hmem⟩ := hc.routes m name hr
    exact ⟨name, (hc.names name).mpr ⟨p, hp, he, hname⟩, p,
      (hc.table name p).mpr ⟨hp, he, hname⟩, hmem⟩

section Converges

variable {providers : List Provider} (hn : (providers.map (·.name)).Nodup) (h : inner.Framed)
  (hf : (new providers).Frames inner)

include hn in
/-- The registry of the configuration has no provider for a name that is not configured. -/
theorem updatedProvider_new {name : String} (hs : name ∉ (new providers).staticProviders)
    (url : String) (models : List String) :
    (new providers).updatedProvider url name models = autoProvider url name models := by
  have hc := configured_new hn
  unfold updatedProvider
  cases hp : (new providers).providers.get name with
  | none => rfl
  | some p =>
    obtain ⟨hmem, he, hname⟩ := (hc.table name p).mp hp
    exact absurd ((hc.names name).mpr ⟨p, hmem, he, hname⟩) hs

include h in
theorem discoveredView_updatedProvider {name url : String} {models : List String}
    (hs : name ∉ inner.staticProviders) :
    discoveredView (inner.updatedProvider url name models) =
        discoveredView (autoProvider url name models) ↔
      ∀ p, inner.providers.get name = some p → p.endpointStyle = inferredStyle models := by
  unfold updatedProvider
  cases hp : inner.providers.get name with
  | none => simp
  | some p => simp [discoveredView, autoProvider, hs, h.named name p hp]

include hn h hf in
/-- The providers agree if and only if the styles do. -/
theorem sameDiscovered_provider :
    (∀ name ∉ inner.staticProviders,
      ((inner.updateFromDiscovery u).providers.get name).map discoveredView =
        (((new providers).updateFromDiscovery u).providers.get name).map discoveredView) ↔
      ∀ name p models, inner.providers.get name = some p → name ∉ inner.staticProviders →
        u.modelsByProvider.get name = some models → p.endpointStyle = inferredStyle models := by
  have hnew := framed_new hn
  have hboth : ∀ name models, u.modelsByProvider.get name = some models →
      name ∉ inner.staticProviders → name ∉ inner.disabledStaticProviders →
      (((inner.updateFromDiscovery u).providers.get name).map discoveredView =
        (((new providers).updateFromDiscovery u).providers.get name).map discoveredView ↔
      ∀ p, inner.providers.get name = some p → p.endpointStyle = inferredStyle models) := by
    intro name models hg hs hd
    have hs' := hs
    have hd' := hd
    rw [hf.staticProviders] at hs'
    rw [hf.disabledStaticProviders] at hd'
    rw [h.update_provider_group hg hs hd, hnew.update_provider_group hg hs' hd',
      updatedProvider_new hn hs', ← @discoveredView_updatedProvider _ h _ u.apertureUrl _ hs]
    simp
  constructor
  · intro hsame name p models hp hs hg
    have hd : name ∉ inner.disabledStaticProviders :=
      fun hd => h.disabled name hd (HashMap.mem_iff_get.mpr ⟨p, hp⟩)
    exact (hboth name models hg hs hd).mp (hsame name hs) p hp
  · intro hstyle name hs
    by_cases hd : name ∈ inner.disabledStaticProviders
    · rw [h.update_provider, hnew.update_provider, ← hf.staticProviders,
        ← hf.disabledStaticProviders, if_neg hs, if_neg hs, if_pos hd, if_pos hd]
    · cases hg : u.modelsByProvider.get name with
      | none =>
        rw [h.update_provider, hnew.update_provider, ← hf.staticProviders,
          ← hf.disabledStaticProviders, if_neg hs, if_neg hs, if_neg hd, if_neg hd, hg]
        rfl
      | some models =>
        exact (hboth name models hg hs hd).mpr fun p hp => hstyle name p models hp hs hg

include hn h hf in
/-- The routes agree if and only if no surviving route differs from the first group. -/
theorem sameDiscovered_route :
    (∀ m, (inner.updateFromDiscovery u).modelToProvider.get m =
        ((new providers).updateFromDiscovery u).modelToProvider.get m) ↔
      ∀ m name, m ∉ (new providers).modelToProvider → inner.Offers u m →
        inner.survivingRoute u m = some name → inner.firstGroup u m = some name := by
  have hnew := framed_new hn
  -- The fresh registry has no route of its own for a model that is not configured.
  have hfresh : ∀ m, m ∉ (new providers).modelToProvider → inner.Offers u m →
      ((new providers).updateFromDiscovery u).modelToProvider.get m = inner.firstGroup u m := by
    intro m hm ho
    rw [hnew.update_route_offered (hf.offers.mp ho), survivingRoute,
      HashMap.get_eq_none.mpr hm, hf.firstGroup]
    rfl
  constructor
  · intro hsame m name hm ho hsur
    have := hsame m
    rw [hfresh m hm ho, h.update_route_offered ho, hsur] at this
    exact this.symm
  · intro hroute m
    by_cases hm : m ∈ (new providers).modelToProvider
    · have hl := (staticLists_new hn).mpr hm
      rw [h.update_route_static (hf.staticLists.mpr hl), hnew.update_route_static hl, hf.route m hl]
    · have hl : ¬(new providers).StaticLists m := fun hl => hm ((staticLists_new hn).mp hl)
      by_cases ho : inner.Offers u m
      · rw [hfresh m hm ho, h.update_route_offered ho]
        cases hsur : inner.survivingRoute u m with
        | none => rfl
        | some name => exact (hroute m name hm ho hsur).symm
      · rw [h.update_route_none (fun hl' => hl (hf.staticLists.mp hl')) ho,
          hnew.update_route_none hl (fun ho' => ho (hf.offers.mpr ho'))]

end Converges

/-- **Convergence.** An update after a history gives the auto-added providers and the routes of the
fresh registry if and only if the history left nothing that it would decide differently. -/
theorem registry_converges_iff (providers : List Provider) (hn : (providers.map (·.name)).Nodup)
    (history : List Update) (d : Update) :
    SameDiscovered (afterUpdates providers (history ++ [d])) (afterUpdates providers [d]) ↔
      Forgets d (new providers) (afterUpdates providers history) := by
  obtain ⟨h, hf⟩ := frames_afterUpdates hn history
  have hp := sameDiscovered_provider (u := d) hn h hf
  have hr := sameDiscovered_route (u := d) hn h hf
  rw [afterUpdates_concat]
  constructor
  · intro hsame
    exact ⟨hp.mp fun name hs => hsame.provider name (by rwa [h.update_names.1]), hr.mp hsame.route⟩
  · intro hforget
    refine ⟨fun name hs => ?_, hr.mpr hforget.route⟩
    rw [h.update_names.1] at hs
    exact hp.mpr hforget.style name hs

/-- The models of group `a` lose their vendor. -/
def lostVendor : List Update := [snapshot [("a", ["v/m"])]]

/-- The provider keeps the endpoint style that it was added with. -/
theorem lostVendor_not_sameDiscovered :
    ¬SameDiscovered (afterUpdates [] (lostVendor ++ [snapshot [("a", ["m"])]]))
      (afterUpdates [] [snapshot [("a", ["m"])]]) := by
  intro h
  have hview : discoveredView (autoProvider "" "a" ["v/m"]) = ("a", ["v/m"], .openaiV1) ∧
      discoveredView (autoProvider "" "a" ["m"]) = ("a", ["m"], .openaiDirect) := by
    constructor <;> simp [discoveredView, autoProvider, inferredStyle]
  have hp : some ("a", ["m"], (autoProvider "" "a" ["v/m"]).endpointStyle) =
      some (discoveredView (autoProvider "" "a" ["m"])) := h.provider "a" (by decide)
  rw [hview.2, show (autoProvider "" "a" ["v/m"]).endpointStyle = .openaiV1 from
    congrArg (·.2.2) hview.1] at hp
  exact absurd hp (by decide)

theorem registry_converges_iff_lostVendor :
    SameDiscovered (afterUpdates [] (lostVendor ++ [snapshot [("a", ["m"])]]))
        (afterUpdates [] [snapshot [("a", ["m"])]]) ↔
      Forgets (snapshot [("a", ["m"])]) (new []) (afterUpdates [] lostVendor) :=
  registry_converges_iff [] (by decide) lostVendor (snapshot [("a", ["m"])])

/-! ## Iteration orders -/

/-- The same provider table and the same routes. -/
structure SameTables (inner₁ inner₂ : RegistryInner) : Prop where
  provider : ∀ name, inner₁.providers.get name = inner₂.providers.get name
  route : ∀ model, inner₁.modelToProvider.get model = inner₂.modelToProvider.get model

/-- An offered model without a surviving route is listed by one group that is not disabled. -/
def OneGroup (u : Update) (inner : RegistryInner) : Prop :=
  ∀ model, inner.Offers u model → inner.survivingRoute u model = none →
    ∀ name₁ name₂ models₁ models₂, u.modelsByProvider.get name₁ = some models₁ →
      u.modelsByProvider.get name₂ = some models₂ → name₁ ∉ inner.disabledStaticProviders →
      name₂ ∉ inner.disabledStaticProviders → model ∈ models₁ → model ∈ models₂ → name₁ = name₂

theorem firstGroup_startingWith {m name : String} {models : List String}
    (hg : u.modelsByProvider.get name = some models) (hd : name ∉ inner.disabledStaticProviders)
    (hm : m ∈ models) (order : IterOrder String Provider) :
    inner.firstGroup (u.reordered (.startingWith name) order) m = some name := by
  show (((IterOrder.startingWith name).list u.modelsByProvider).find? _).map _ = _
  rw [IterOrder.find?_startingWith hg (by simp [hd, hm])]
  rfl

/-- A group that comes first gets the models that it offers and that have no surviving route. -/
theorem Framed.route_startingWith (h : inner.Framed) {m name : String} {models : List String}
    (ho : inner.Offers u m) (hsur : inner.survivingRoute u m = none)
    (hg : u.modelsByProvider.get name = some models) (hd : name ∉ inner.disabledStaticProviders)
    (hm : m ∈ models) (order : IterOrder String Provider) :
    (inner.updateFromDiscovery
      (u.reordered (.startingWith name) order)).modelToProvider.get m = some name := by
  have ho' : inner.Offers (u.reordered (.startingWith name) order) m := ho
  rw [h.update_route_offered ho', firstGroup_startingWith hg hd hm]
  exact congrArg (Option.or · (some name)) hsur

/-- If one group only offers a model, it is the first one in every order. -/
theorem OneGroup.firstGroup_eq (hone : OneGroup u inner) {m : String} (ho : inner.Offers u m)
    (hsur : inner.survivingRoute u m = none) (o₁ o₂ : IterOrder String (List String))
    (q₁ q₂ : IterOrder String Provider) :
    inner.firstGroup (u.reordered o₁ q₁) m = inner.firstGroup (u.reordered o₂ q₂) m := by
  have ho₁ : inner.Offers (u.reordered o₁ q₁) m := ho
  have ho₂ : inner.Offers (u.reordered o₂ q₂) m := ho
  obtain ⟨name₁, hf₁⟩ := Option.isSome_iff_exists.mp (firstGroup_isSome ho₁)
  obtain ⟨name₂, hf₂⟩ := Option.isSome_iff_exists.mp (firstGroup_isSome ho₂)
  obtain ⟨models₁, hg₁, hd₁, hm₁⟩ := firstGroup_eq_some hf₁
  obtain ⟨models₂, hg₂, hd₂, hm₂⟩ := firstGroup_eq_some hf₂
  rw [hf₁, hf₂, hone m ho hsur name₁ name₂ models₁ models₂ hg₁ hg₂ hd₁ hd₂ hm₁ hm₂]

/-- **The iteration order.** The result of an update of a reachable registry does not depend on the
order of its loops if and only if `OneGroup` holds. -/
theorem update_orderIndependent_iff (providers : List Provider)
    (hn : (providers.map (·.name)).Nodup) (history : List Update) (u : Update) :
    let inner := afterUpdates providers history
    (∀ groupOrder₁ groupOrder₂ providerOrder₁ providerOrder₂,
      SameTables (inner.updateFromDiscovery (u.reordered groupOrder₁ providerOrder₁))
        (inner.updateFromDiscovery (u.reordered groupOrder₂ providerOrder₂))) ↔
      OneGroup u inner := by
  intro inner
  have h : inner.Framed := (frames_afterUpdates hn history).1
  constructor
  · intro hall m ho hsur name₁ name₂ models₁ models₂ hg₁ hg₂ hd₁ hd₂ hm₁ hm₂
    have hsame := (hall (.startingWith name₁) (.startingWith name₂) u.providerOrder
      u.providerOrder).route m
    rw [h.route_startingWith ho hsur hg₁ hd₁ hm₁, h.route_startingWith ho hsur hg₂ hd₂ hm₂] at hsame
    exact Option.some_inj.mp hsame
  · intro hone o₁ o₂ q₁ q₂
    refine ⟨fun name => ?_, fun m => ?_⟩
    · rw [h.update_provider, h.update_provider]
      rfl
    · by_cases hs : inner.StaticLists m
      · rw [h.update_route_static hs, h.update_route_static hs]
      · by_cases ho : inner.Offers u m
        · have ho₁ : inner.Offers (u.reordered o₁ q₁) m := ho
          have ho₂ : inner.Offers (u.reordered o₂ q₂) m := ho
          rw [h.update_route_offered ho₁, h.update_route_offered ho₂]
          show (inner.survivingRoute u m).or _ = (inner.survivingRoute u m).or _
          cases hsur : inner.survivingRoute u m with
          | some name => rfl
          | none => rw [hone.firstGroup_eq ho hsur o₁ o₂ q₁ q₂]
        · rw [h.update_route_none hs (u := u.reordered o₁ q₁) ho,
            h.update_route_none hs (u := u.reordered o₂ q₂) ho]

/-- Two groups offer model `m`. -/
def sharedModel : Update := snapshot [("a", ["m"]), ("b", ["m"])]

/-- The model is routed to the group that comes first. -/
theorem sharedModel_orderDependent :
    ¬∀ groupOrder₁ groupOrder₂ providerOrder₁ providerOrder₂,
      SameTables
        ((afterUpdates [] []).updateFromDiscovery
          (sharedModel.reordered groupOrder₁ providerOrder₁))
        ((afterUpdates [] []).updateFromDiscovery
          (sharedModel.reordered groupOrder₂ providerOrder₂)) := by
  intro h
  exact absurd ((h (.startingWith "a") (.startingWith "b") .entries .entries).route "m")
    (by decide +kernel)

theorem update_orderIndependent_iff_sharedModel :
    (∀ groupOrder₁ groupOrder₂ providerOrder₁ providerOrder₂,
      SameTables
        ((afterUpdates [] []).updateFromDiscovery
          (sharedModel.reordered groupOrder₁ providerOrder₁))
        ((afterUpdates [] []).updateFromDiscovery
          (sharedModel.reordered groupOrder₂ providerOrder₂))) ↔
      OneGroup sharedModel (afterUpdates [] []) :=
  update_orderIndependent_iff [] (by decide) [] sharedModel

/-! ## The same snapshot again -/

/-- An update again meets the providers as it has left them. -/
theorem updatedProvider_updatedProvider {again : RegistryInner} {url name : String}
    {models : List String} (hs : again.staticProviders = inner.staticProviders)
    (hp : again.providers.get name = some (inner.updatedProvider url name models)) :
    again.updatedProvider url name models = inner.updatedProvider url name models := by
  have hupdated : again.updatedProvider url name models =
      if name ∈ inner.staticProviders then inner.updatedProvider url name models
      else { inner.updatedProvider url name models with models := models } := by
    rw [updatedProvider, hp, hs]
  rw [hupdated]
  split
  · rfl
  · rename_i hname
    have hmodels := @updatedProvider_models inner name url models hname
    generalize inner.updatedProvider url name models = p at hmodels ⊢
    subst hmodels
    rfl

/-- The route that an update gives to an offered model survives the update again. -/
theorem Framed.stays_of_route (h : inner.Framed) {m name : String} (ho : inner.Offers u m)
    (hr : (inner.updateFromDiscovery u).modelToProvider.get m = some name) :
    inner.stays u name = true := by
  rw [h.update_route_offered ho] at hr
  cases hsur : inner.survivingRoute u m with
  | some name' =>
    rw [hsur, Option.some_or, Option.some_inj] at hr
    rw [← hr]
    exact (survivingRoute_eq_some.mp hsur).2
  | none =>
    rw [hsur, Option.none_or] at hr
    obtain ⟨models, hg, -, -⟩ := firstGroup_eq_some hr
    simp [stays, HashMap.mem_iff_get.mpr ⟨models, hg⟩]

/-- **The same snapshot again.** -/
theorem Framed.update_again (h : inner.Framed) (groupOrder : IterOrder String (List String))
    (providerOrder : IterOrder String Provider) :
    SameTables ((inner.updateFromDiscovery u).updateFromDiscovery
      (u.reordered groupOrder providerOrder)) (inner.updateFromDiscovery u) := by
  have hf := h.frames_update u
  have hagain := h.updateFromDiscovery u
  refine ⟨fun name => ?_, fun m => ?_⟩
  · rw [hagain.update_provider, hf.staticProviders, hf.disabledStaticProviders]
    by_cases hs : name ∈ inner.staticProviders
    · rw [if_pos hs]
    · rw [if_neg hs]
      by_cases hd : name ∈ inner.disabledStaticProviders
      · rw [if_pos hd, h.update_provider, if_neg hs, if_pos hd]
      · rw [if_neg hd]
        show (u.modelsByProvider.get name).map _ = _
        cases hg : u.modelsByProvider.get name with
        | none => rw [h.update_provider, if_neg hs, if_neg hd, hg, Option.map_none, Option.map_none]
        | some models =>
          have hp := h.update_provider_group hg hs hd
          rw [hp, Option.map_some]
          exact congrArg some (updatedProvider_updatedProvider hf.staticProviders hp)
  · by_cases hs : inner.StaticLists m
    · exact hagain.update_route_static (hf.staticLists.mpr hs)
    · by_cases ho : inner.Offers u m
      · have ho' : (inner.updateFromDiscovery u).Offers (u.reordered groupOrder providerOrder) m :=
          (hf.offers (u := u)).mpr ho
        obtain ⟨name, hr⟩ : ∃ name,
            (inner.updateFromDiscovery u).modelToProvider.get m = some name := by
          rw [h.update_route_offered ho]
          obtain ⟨name, hname⟩ := Option.isSome_iff_exists.mp (firstGroup_isSome ho)
          cases inner.survivingRoute u m with
          | some name' => exact ⟨name', rfl⟩
          | none => exact ⟨name, hname⟩
        have hstays : (inner.updateFromDiscovery u).stays (u.reordered groupOrder providerOrder)
            name = true := by
          rw [stays, hf.staticProviders]
          exact h.stays_of_route (u := u) ho hr
        rw [hagain.update_route_offered ho', survivingRoute_eq_some.mpr ⟨hr, hstays⟩, hr]
        rfl
      · have ho' : ¬(inner.updateFromDiscovery u).Offers (u.reordered groupOrder providerOrder) m :=
          fun ho' => ho ((hf.offers (u := u)).mp ho')
        rw [hagain.update_route_none (fun hs' => hs (hf.staticLists.mp hs')) ho',
          h.update_route_none hs ho]

/-- **Updates are idempotent.** After any history a snapshot that comes again changes nothing, in
whatever orders the loops run. -/
theorem update_idempotent (providers : List Provider) (hn : (providers.map (·.name)).Nodup)
    (history : List Update) (u : Update) (groupOrder : IterOrder String (List String))
    (providerOrder : IterOrder String Provider) :
    SameTables
      (afterUpdates providers (history ++ [u, u.reordered groupOrder providerOrder]))
      (afterUpdates providers (history ++ [u])) := by
  have hframed := (frames_afterUpdates hn history).1
  have hagain : afterUpdates providers (history ++ [u, u.reordered groupOrder providerOrder]) =
      ((afterUpdates providers history).updateFromDiscovery u).updateFromDiscovery
        (u.reordered groupOrder providerOrder) := List.foldl_append
  rw [hagain, afterUpdates_concat]
  exact hframed.update_again groupOrder providerOrder

theorem update_idempotent_sharedModel :
    SameTables
      (afterUpdates [] (movedModel ++ [sharedModel,
        sharedModel.reordered (.startingWith "b") .entries]))
      (afterUpdates [] (movedModel ++ [sharedModel])) :=
  update_idempotent [] (by decide) movedModel sharedModel (.startingWith "b") .entries

end RegistryInner

end ApertureRouter
