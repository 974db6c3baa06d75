import ApertureRouter.Discovery.Models
import ApertureRouter.Types.Validation

/-!
# Models that can be requested

An id of the gateway passes `validate_discovered_id` before it is published, and a model name of a
request passes `validate_model_name`. The two have the same rules, but for the length: 256 bytes
for an id, 128 for a name.

* `validateModelName_ok_iff`: a name is a valid id that is short enough.
* `published_requestable_iff`: every published model can be requested exactly if no valid id of the
  response is longer than a name can be.
-/

namespace ApertureRouter

/-- What `process_models_response` publishes: nothing if the response is over the limit. -/
def publishedModels (data : List ApiModel) : Except String Discovered :=
  if maxModelsPerSnapshot < data.length then
    .error s!"Gateway reported {data.length} models, exceeding the {maxModelsPerSnapshot} limit"
  else .ok (processModels data)

/-- The id is in `/v1/models`, or in a group that the registry gets. -/
def Discovered.Publishes (d : Discovered) (id : String) : Prop :=
  id ∈ d.models ∨ ∃ name ids, d.modelsByProvider.get name = some ids ∧ id ∈ ids

/-! ## The two validators -/

/-- The bytes that a model name can have. -/
def maxModelNameLen : Nat := 128

/-- The characters of an id are those of a model name. -/
theorem isModelChar_eq (c : Char) :
    (c.isAlphanum || decide (c ∈ ['-', '_', '.', '/', ':'])) = isModelChar c := by
  simp only [isModelChar, List.mem_cons, List.not_mem_nil, or_false, Bool.decide_or, Bool.or_assoc]

theorem validateDiscoveredId_ok_iff {id : String} :
    validateDiscoveredId id = .ok () ↔ id.isEmpty = false ∧ id.utf8ByteSize ≤ 256 ∧
      ¬ ['.', '.'] <:+: id.toList ∧ id.toList.all isModelChar = true := by
  unfold validateDiscoveredId
  simp only [isModelChar_eq]
  cases id.isEmpty with
  | true => simp
  | false =>
    by_cases hlen : 256 < id.utf8ByteSize
    · simp [hlen]
    · by_cases hdots : ['.', '.'] <:+: id.toList
      · simp [hlen, hdots, show "..".toList = ['.', '.'] from rfl]
      · cases hall : id.toList.all isModelChar <;>
          simp [hlen, hdots, Nat.le_of_not_lt hlen, show "..".toList = ['.', '.'] from rfl]

theorem validateModelName_eq_ok_iff {name : String} :
    validateModelName name = .ok () ↔ name.isEmpty = false ∧ name.utf8ByteSize ≤ maxModelNameLen ∧
      ¬ ['.', '.'] <:+: name.toList ∧ name.toList.all isModelChar = true := by
  unfold validateModelName maxModelNameLen
  cases name.isEmpty with
  | true => simp
  | false =>
    by_cases hlen : 128 < name.utf8ByteSize
    · simp [hlen]
    · by_cases hdots : ['.', '.'] <:+: name.toList
      · simp [hlen, hdots]
      · cases hall : name.toList.all isModelChar <;> simp [hlen, hdots, Nat.le_of_not_lt hlen]

/-- **The two rules.** -/
theorem validateModelName_ok_iff {name : String} :
    validateModelName name = .ok () ↔
      validateDiscoveredId name = .ok () ∧ name.utf8ByteSize ≤ maxModelNameLen := by
  rw [validateModelName_eq_ok_iff, validateDiscoveredId_ok_iff]
  unfold maxModelNameLen
  constructor
  · rintro ⟨hempty, hlen, hdots, hchars⟩
    exact ⟨⟨hempty, by omega, hdots, hchars⟩, hlen⟩
  · rintro ⟨⟨hempty, -, hdots, hchars⟩, hlen⟩
    exact ⟨hempty, hlen, hdots, hchars⟩

/-! ## What is published -/

/-- The models are the ones of the response with a valid id. -/
theorem mem_processModels {data : List ApiModel} {id : String} :
    id ∈ (processModels data).models ↔
      validateDiscoveredId id = .ok () ∧ ∃ apiModel ∈ data, apiModel.id = id := by
  unfold processModels
  induction data using List.reverseRecOn with
  | nil => simp
  | append_singleton data apiModel ih =>
    rw [List.foldl_append, List.foldl_cons, List.foldl_nil, Discovered.add]
    cases hvalid : validateDiscoveredId apiModel.id with
    | error e =>
      rw [ih]
      refine and_congr_right fun hid => ?_
      have hne : apiModel.id ≠ id := fun heq => by
        rw [heq, hid] at hvalid
        cases hvalid
      simp [hne]
    | ok u =>
      dsimp only
      rw [HashMap.mem_insert, ih]
      constructor
      · rintro (rfl | ⟨hid, other, hother, rfl⟩)
        · exact ⟨hvalid, apiModel, by simp, rfl⟩
        · exact ⟨hid, other, by simp [hother], rfl⟩
      · rintro ⟨hid, other, hother, rfl⟩
        rcases List.mem_append.mp hother with hother | hother
        · exact .inr ⟨hid, other, hother, rfl⟩
        · exact .inl (congrArg ApiModel.id (List.mem_singleton.mp hother))

theorem publishes_processModels {data : List ApiModel} {id : String} :
    (processModels data).Publishes id ↔
      validateDiscoveredId id = .ok () ∧ ∃ apiModel ∈ data, apiModel.id = id := by
  have hmatching := (matching_processModels data).models id
  unfold Discovered.Publishes
  rw [← hmatching, or_self, mem_processModels]

/-- **Every published model can be requested**, exactly if no valid id is too long for a name. -/
theorem published_requestable_iff (data : List ApiModel) :
    (∀ d, publishedModels data = .ok d → ∀ id, d.Publishes id → validateModelName id = .ok ()) ↔
      (data.length ≤ maxModelsPerSnapshot → ∀ apiModel ∈ data,
        validateDiscoveredId apiModel.id = .ok () → apiModel.id.utf8ByteSize ≤ maxModelNameLen) := by
  unfold publishedModels
  split
  · exact iff_of_true (fun d h => by cases h) fun h => absurd h (by omega)
  · rename_i hlimit
    constructor
    · intro h _ apiModel hmem hid
      exact (validateModelName_ok_iff.mp
        (h _ rfl apiModel.id (publishes_processModels.mpr ⟨hid, apiModel, hmem, rfl⟩))).2
    · intro h d hd id hpublished
      cases hd
      obtain ⟨hid, apiModel, hmem, rfl⟩ := publishes_processModels.mp hpublished
      exact validateModelName_ok_iff.mpr ⟨hid, h (Nat.le_of_not_lt hlimit) apiModel hmem hid⟩

/-- An id that is one byte longer than a name. -/
def longId : String := String.ofList (List.replicate 129 'a')

/-- It is listed, and cannot be requested. -/
theorem longId_not_requestable :
    (∃ d, publishedModels [{ id := longId }] = .ok d ∧ d.Publishes longId) ∧
      validateModelName longId ≠ .ok () := by
  have hsize : longId.utf8ByteSize = 129 := by decide +kernel
  have hvalid : validateDiscoveredId longId = .ok () := by decide +kernel
  refine ⟨⟨_, rfl, publishes_processModels.mpr ⟨hvalid, _, List.mem_cons_self, rfl⟩⟩, fun h => ?_⟩
  have hlen := (validateModelName_ok_iff.mp h).2
  rw [hsize] at hlen
  exact absurd hlen (by decide)

end ApertureRouter
