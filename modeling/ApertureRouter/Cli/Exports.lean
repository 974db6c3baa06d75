import ApertureRouter.Cli.OpenclawExport

/-!
# Runs of exports

`config export` is called again after the models of the gateway have changed. Each call merges what it
generates into the `openclaw.json` that the calls before have left (`src/cli/commands.rs`).

* `exportAll`: a run of exports to one document.
* `Mergeable`: the documents that the merge takes. After one export all the others succeed.
* `openclaw_exports`: what a run leaves. Each provider is the one of the last export that has it, so those of
  models that are gone stay. The default model is the user's, or else that of the first export.
-/

namespace ApertureRouter

namespace OpenClawConfig

variable {self : OpenClawConfig}

/-! ## What a merge writes -/

/-- The entry of a document at `models.providers`. -/
def providerOf (fields : List (String × Value)) (key : String) : Option Value :=
  jsonDocs.fieldOf (jsonDocs.fieldOf (fields.lookup "models") "providers") key

/-- Entries with different keys are all there after they are put in. -/
theorem foldl_set_mem {entries fields fields' : List (String × Value)}
    (hnodup : (entries.map Prod.fst).Nodup)
    (h : entries.foldl (fun value entry => value.set entry.1 entry.2) (Value.object fields) =
      .object fields') {entry : String × Value} (hmem : entry ∈ entries) :
    fields'.lookup entry.1 = some entry.2 := by
  induction entries generalizing fields with
  | nil => cases hmem
  | cons first entries ih =>
    rw [List.map_cons, List.nodup_cons] at hnodup
    rw [List.foldl_cons, Value.set] at h
    rcases List.mem_cons.mp hmem with rfl | hmem
    · obtain ⟨fields'', hfields, hkept⟩ := foldl_set entries (Value.setField entry.1 entry.2 fields)
      obtain rfl := Value.object.inj (hfields.symm.trans h)
      rw [hkept _ hnodup.1, Value.lookup_setField, if_pos rfl]
    · exact ih hnodup.2 h hmem

theorem newProviders_nodup : (self.newProviders.map Prod.fst).Nodup := by
  rw [newProviders_eq, List.map_map]
  exact self.models.providers.nodupKeys

theorem mem_newProviders_of_get {key : String} {provider : OpenClawProvider}
    (h : self.models.providers.get key = some provider) : (key, provider.toValue) ∈ self.newProviders := by
  rw [newProviders_eq]
  exact List.mem_map.mpr ⟨⟨key, provider⟩, HashMap.mem_entries.mpr h, rfl⟩

theorem mergeModels_written {models : List (String × Value)} {merged : Value}
    (h : self.mergeModels (.object models) = .ok merged) {key : String} {provider : OpenClawProvider}
    (hget : self.models.providers.get key = some provider) :
    jsonDocs.fieldOf (merged.get "providers") key = some provider.toValue := by
  obtain ⟨models1, hmode, -⟩ := orInsert_object models "mode" (.string "merge")
  obtain ⟨models2, hproviders, -⟩ := orInsert_object models1 "providers" (.object [])
  unfold mergeModels at h
  rw [hmode, hproviders] at h
  dsimp only at h
  split at h
  · rename_i providers hp
    obtain rfl := Except.ok.inj h
    obtain ⟨providers', hmerged, -⟩ := foldl_set self.newProviders providers
    have hwritten := foldl_set_mem newProviders_nodup hmerged (mem_newProviders_of_get hget)
    rw [Value.get_set, if_pos rfl, mergeProviders, hmerged]
    exact hwritten
  · cases h

/-- The generated providers are in the merged document. -/
theorem merge_written {fields merged : List (String × Value)}
    (h : self.merge (.object fields) = .ok (.object merged)) {key : String} {provider : OpenClawProvider}
    (hget : self.models.providers.get key = some provider) :
    providerOf merged key = some provider.toValue := by
  obtain ⟨fields1, hmodels, -⟩ := orInsert_object fields "models" (.object [])
  unfold merge at h
  simp only [hmodels] at h
  split at h
  · rename_i models hm
    cases hmerged : self.mergeModels (.object models) with
    | error e =>
      rw [hmerged] at h
      cases h
    | ok models' =>
      rw [hmerged] at h
      obtain ⟨merged', hvalue, -, hkept⟩ :=
        @mergeAgents_object self _ (Value.setField "models" models' fields1) rfl
      have heq : Value.object merged' = .object merged := hvalue.symm.trans (Except.ok.inj h)
      obtain rfl := Value.object.inj heq
      rw [providerOf, hkept _ (by decide), Value.lookup_setField, if_pos rfl]
      exact mergeModels_written hmerged hget
  · cases h

/-- One export at the providers. -/
theorem providerOf_merge {fields merged : List (String × Value)}
    (h : self.merge (.object fields) = .ok (.object merged)) (key : String) :
    providerOf merged key =
      ((self.models.providers.get key).map OpenClawProvider.toValue <|> providerOf fields key) := by
  cases hget : self.models.providers.get key with
  | some provider => exact merge_written h hget
  | none =>
    obtain ⟨merged', hvalue, hmerged⟩ := merge_ok h
    obtain rfl := Value.object.inj hvalue
    obtain ⟨models', hmodels, hsection⟩ := hmerged.models
    obtain ⟨providers', hproviders, hkept⟩ := hsection.providers
    rw [providerOf, hmodels, fieldOf_object, hproviders, fieldOf_object]
    exact hkept key (HashMap.get_eq_none.mp hget)

/-! ## What a merge takes -/

/-- The document has no `models`, or an object with no `providers` or an object of them. -/
def Mergeable (fields : List (String × Value)) : Prop :=
  ObjectIfAny (fields.lookup "models") ∧
    ObjectIfAny (jsonDocs.fieldOf (fields.lookup "models") "providers")

/-- A section that is made if it is missing is an object. -/
theorem ObjectIfAny.getD {o : Option Value} (h : ObjectIfAny o) :
    ∃ fields, o.getD (.object []) = .object fields ∧
      ∀ key, fields.lookup key = jsonDocs.fieldOf o key := by
  rcases h with rfl | ⟨fields, rfl⟩
  · exact ⟨[], rfl, fun _ => rfl⟩
  · exact ⟨fields, rfl, fun _ => rfl⟩

theorem merge_ok_iff {fields : List (String × Value)} :
    (∃ value, self.merge (.object fields) = .ok value) ↔ Mergeable fields := by
  constructor
  · rintro ⟨value, h⟩
    obtain ⟨merged, -, hmerged⟩ := merge_ok h
    obtain ⟨models', -, hsection⟩ := hmerged.models
    exact ⟨hmerged.object, hsection.object⟩
  · rintro ⟨hmodels, hproviders⟩
    obtain ⟨models, hsection, hkeys⟩ := hmodels.getD
    obtain ⟨providers, hentries, -⟩ := hproviders.getD
    obtain ⟨fields1, hfields, hlookup⟩ := orInsert_object fields "models" (.object [])
    obtain ⟨models1, hmode, hlookup1⟩ := orInsert_object models "mode" (.string "merge")
    obtain ⟨models2, hinsert, hlookup2⟩ := orInsert_object models1 "providers" (.object [])
    have hfound : models2.lookup "providers" = some (.object providers) := by
      rw [hlookup2, if_pos rfl, hlookup1, if_neg (by decide), hkeys, hentries]
    unfold merge mergeModels
    simp only [hfields, Value.get_object, hlookup, if_true, hsection, hmode, hinsert, hfound]
    exact ⟨_, rfl⟩

/-- A merged document is taken again. -/
theorem mergeable_merge {fields merged : List (String × Value)}
    (h : self.merge (.object fields) = .ok (.object merged)) : Mergeable merged := by
  obtain ⟨merged', hvalue, hmerged⟩ := merge_ok h
  obtain rfl := Value.object.inj hvalue
  obtain ⟨models', hmodels, hsection⟩ := hmerged.models
  obtain ⟨providers', hproviders, -⟩ := hsection.providers
  rw [Mergeable, hmodels, fieldOf_object, hproviders]
  exact ⟨.inr ⟨models', rfl⟩, .inr ⟨providers', rfl⟩⟩

/-! ## Runs -/

/-- Exports to a document, one after the other. -/
def exportAll (exports : List OpenClawConfig) (existing : Value) : Except String Value :=
  exports.foldlM (fun existing self => self.merge existing) existing

theorem exportAll_append (exports : List OpenClawConfig) (existing : Value) :
    exportAll (exports ++ [self]) existing = exportAll exports existing >>= self.merge := by
  unfold exportAll
  rw [List.foldlM_append]
  cases exports.foldlM (fun existing self => self.merge existing) existing with
  | error e => rfl
  | ok value =>
    show (self.merge value >>= pure) = self.merge value
    cases self.merge value <;> rfl

/-- The provider of the last export that has it. -/
def lastProvider (exports : List OpenClawConfig) (key : String) : Option Value :=
  exports.reverse.findSome? fun self => (self.models.providers.get key).map OpenClawProvider.toValue

theorem lastProvider_append (exports : List OpenClawConfig) (key : String) :
    lastProvider (exports ++ [self]) key =
      ((self.models.providers.get key).map OpenClawProvider.toValue <|> lastProvider exports key) := by
  unfold lastProvider
  rw [List.reverse_append, List.reverse_singleton, List.singleton_append, List.findSome?_cons]
  cases self.models.providers.get key <;> rfl

/-- The agents of the first export that has any. -/
def firstAgents (exports : List OpenClawConfig) : Option Value :=
  (exports.findSome? (·.agents)).map agentsValue

/-- What a run of exports makes of the document. -/
structure Exported (exports : List OpenClawConfig) (fields merged : List (String × Value)) : Prop where
  providers : ∀ key, providerOf merged key = (lastProvider exports key <|> providerOf fields key)
  agents : merged.lookup "agents" =
    if (agentsModel (.object fields)).isSome then fields.lookup "agents"
    else firstAgents exports <|> fields.lookup "agents"
  other : ∀ key, key ≠ "models" → key ≠ "agents" → merged.lookup key = fields.lookup key

theorem exported_nil (fields : List (String × Value)) : Exported [] fields fields where
  providers _ := rfl
  agents := by
    split <;> rfl
  other _ _ _ := rfl

/-- A model of the agents that a run has found or written. -/
theorem Exported.agentsModel_isSome {exports : List OpenClawConfig} {fields merged : List (String × Value)}
    (h : Exported exports fields merged) : (agentsModel (.object merged)).isSome =
      ((agentsModel (.object fields)).isSome || (firstAgents exports).isSome) := by
  have hmodel : ∀ fields' : List (String × Value), agentsModel (.object fields') =
      (fields'.lookup "agents" >>= (·.get "defaults") >>= (·.get "model")) := fun _ => rfl
  rw [hmodel merged, h.agents]
  split
  · rename_i hsome
    rw [← hmodel, hsome, Bool.true_or]
  · rename_i hnone
    cases hfirst : firstAgents exports with
    | none =>
      rw [Option.isSome_none, Bool.or_false]
      rfl
    | some agents =>
      obtain ⟨model, -, rfl⟩ := Option.map_eq_some_iff.mp hfirst
      rw [Option.isSome_some, Bool.or_true]
      rfl

/-- One export more. -/
theorem Exported.step {exports : List OpenClawConfig} {fields merged merged' : List (String × Value)}
    (h : Exported exports fields merged) (hmerge : self.merge (.object merged) = .ok (.object merged')) :
    Exported (exports ++ [self]) fields merged' := by
  obtain ⟨merged'', hvalue, hmerged⟩ := merge_ok hmerge
  obtain rfl := Value.object.inj hvalue
  refine ⟨fun key => ?_, ?_, fun key hmodels hagents => ?_⟩
  · rw [providerOf_merge hmerge, h.providers, lastProvider_append]
    cases self.models.providers.get key <;> rfl
  · have hfirst : firstAgents (exports ++ [self]) =
        (firstAgents exports <|> self.agents.map agentsValue) := by
      unfold firstAgents
      rw [List.findSome?_append]
      cases exports.findSome? (·.agents) with
      | none => cases hagents : self.agents <;> simp [hagents]
      | some model => rfl
    rw [hmerged.agents, agentsAfter, h.agentsModel_isSome, h.agents, hfirst]
    cases hown : (agentsModel (.object fields)).isSome <;> cases firstAgents exports <;>
      cases self.agents <;> rfl
  · rw [hmerged.other key hmodels hagents, h.other key hmodels hagents]

/-- A run, and whether another export can follow. -/
theorem exportAll_ok {exports : List OpenClawConfig} {fields : List (String × Value)} {value : Value}
    (h : exportAll exports (.object fields) = .ok value) :
    ∃ merged, value = .object merged ∧ Exported exports fields merged ∧
      (exports ≠ [] → Mergeable merged) := by
  induction exports using List.reverseRecOn generalizing value with
  | nil =>
    obtain rfl := Except.ok.inj h
    exact ⟨fields, rfl, exported_nil fields, fun hne => absurd rfl hne⟩
  | append_singleton exports self ih =>
    rw [exportAll_append] at h
    obtain ⟨existing, hexports, hmerge⟩ := Config.bind_eq_ok.mp h
    obtain ⟨merged, rfl, hexported, -⟩ := ih hexports
    obtain ⟨merged', rfl, -⟩ := merge_ok hmerge
    exact ⟨merged', rfl, hexported.step hmerge, fun _ => mergeable_merge hmerge⟩

/-- All exports of a run succeed if the first one does. -/
theorem exportAll_ok_iff {exports : List OpenClawConfig} {fields : List (String × Value)} :
    (∃ value, exportAll exports (.object fields) = .ok value) ↔ exports = [] ∨ Mergeable fields := by
  induction exports using List.reverseRecOn with
  | nil => exact iff_of_true ⟨_, rfl⟩ (.inl rfl)
  | append_singleton exports self ih =>
    have hne : exports ++ [self] ≠ [] := by simp
    rw [exportAll_append, or_iff_right hne]
    constructor
    · rintro ⟨value, h⟩
      obtain ⟨existing, hexports, hmerge⟩ := Config.bind_eq_ok.mp h
      rcases ih.mp ⟨existing, hexports⟩ with rfl | hmergeable
      · obtain rfl := Except.ok.inj hexports
        exact merge_ok_iff.mp ⟨value, hmerge⟩
      · exact hmergeable
    · intro hmergeable
      obtain ⟨existing, hexports⟩ := ih.mpr (.inr hmergeable)
      obtain ⟨merged, rfl, -, hagain⟩ := exportAll_ok hexports
      have hmerged : Mergeable merged := by
        by_cases hempty : exports = []
        · subst hempty
          obtain rfl := Value.object.inj (Except.ok.inj hexports)
          exact hmergeable
        · exact hagain hempty
      obtain ⟨value, hmerge⟩ := (@merge_ok_iff self merged).mpr hmerged
      exact ⟨value, Config.bind_eq_ok.mpr ⟨_, hexports, hmerge⟩⟩

/-- **Runs of exports.** All exports to a document succeed if and only if the first one does. After them each
provider is that of the last export that has it, or else the user's; the agents are the user's if these have a
model, or else those of the first export that has any; all but `models` and `agents` is kept. -/
theorem openclaw_exports (exports : List OpenClawConfig) (fields : List (String × Value)) :
    ((∃ value, exportAll exports (.object fields) = .ok value) ↔ exports = [] ∨ Mergeable fields) ∧
      ∀ value, exportAll exports (.object fields) = .ok value →
        ∃ merged, value = .object merged ∧ Exported exports fields merged := by
  refine ⟨exportAll_ok_iff, fun value h => ?_⟩
  obtain ⟨merged, hvalue, hexported, -⟩ := exportAll_ok h
  exact ⟨merged, hvalue, hexported⟩

end OpenClawConfig

/-! ## A model that is gone -/

/-- What is generated after the gateway has another model. -/
def laterOpenclaw : OpenClawConfig :=
  OpenClawConfig.fromRouterConfig [⟨"kimi-k2", "moonshot", "moonshot/kimi-k2", "kimi-k2 [moonshot]"⟩]
    "http://127.0.0.1:8765"

/-- The provider of the first export is still there, and the default model is its model. -/
theorem openclaw_exports_modelGone :
    ∃ merged, OpenClawConfig.exportAll [generatedOpenclaw, laterOpenclaw] (.object userOpenclaw) =
        .ok (.object merged) ∧
      (OpenClawConfig.providerOf merged "aperture-glm").isSome = true ∧
      merged.lookup "agents" = some (agentsValue "aperture-glm/GLM-5") := by
  obtain ⟨hiff, hall⟩ := OpenClawConfig.openclaw_exports [generatedOpenclaw, laterOpenclaw] userOpenclaw
  obtain ⟨value, hvalue⟩ := hiff.mpr (.inr ⟨.inl rfl, .inl rfl⟩)
  obtain ⟨merged, rfl, hexported⟩ := hall value hvalue
  refine ⟨merged, hvalue, ?_, ?_⟩
  · rw [hexported.providers]
    rfl
  · rw [hexported.agents]
    rfl

end ApertureRouter
