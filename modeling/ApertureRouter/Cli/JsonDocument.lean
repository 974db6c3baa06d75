import Mathlib.Data.Set.Insert
import ApertureRouter.Json
import ApertureRouter.Lib.Frames

/-!
# Exported configurations

What the exports of the command line share: the models they are made from, the text of a JSON file, and
the frame of a merge into the document of a user.

* `jsonDocs`: JSON documents, their fields and shapes. `Value.orInsert` adds a field if it is missing.
* `sameExcept_object`, `sameExcept_field`: a document that an object has taken the place of.
-/

namespace ApertureRouter

/-- `EnrichedModel`. -/
structure EnrichedModel where
  id : String
  providerId : String
  canonicalId : String
  displayName : String

/-- `serde_json::from_str` and `serde_json::to_string_pretty`. -/
structure JsonText where
  fromStr : String → Except String Value
  toStringPretty : Value → String

/-- `serde_json` on a text and on what becomes of its document. -/
def oneDocument (text : String) (document : Value) (written : String) : JsonText where
  fromStr s := if s = text then .ok document else .error "expected value at line 1 column 1"
  toStringPretty _ := written

theorem oneDocument_fromStr (text : String) (document : Value) (written : String) :
    (oneDocument text document written).fromStr text = .ok document := if_pos rfl

/-- A value without the fields of an object. -/
def Value.shape : Value → Value
  | .object _ => .object []
  | value => value

/-- JSON documents. -/
def jsonDocs : DocKind Value String Value where
  field := Value.get
  shape := Value.shape
  inner := .object []

/-- Adds the field unless it is there. -/
def Value.orInsert (value : Value) (key : String) (v : Value) : Value :=
  if (value.get key).isSome then value else value.set key v

/-- There is nothing, or an object without any other field. -/
def OnlyField (key : String) (o : Option Value) : Prop :=
  o = none ∨ ∃ fields, o = some (.object fields) ∧ ∀ key', key' ≠ key → fields.lookup key' = none

@[simp] theorem fieldOf_none (key : String) : jsonDocs.fieldOf none key = none := rfl

@[simp] theorem fieldOf_object (fields : List (String × Value)) (key : String) :
    jsonDocs.fieldOf (some (.object fields)) key = fields.lookup key := rfl

/-- An object with the field. -/
theorem orInsert_object (fields : List (String × Value)) (key : String) (v : Value) :
    ∃ fields', (Value.object fields).orInsert key v = .object fields' ∧
      ∀ key', fields'.lookup key' =
        if key' = key then some ((fields.lookup key).getD v) else fields.lookup key' := by
  unfold Value.orInsert
  cases hfield : fields.lookup key with
  | none =>
    refine ⟨Value.setField key v fields, by simp [hfield, Value.set], fun key' => ?_⟩
    rw [Value.lookup_setField, Option.getD_none]
  | some w =>
    refine ⟨fields, by simp [hfield], fun key' => ?_⟩
    split
    · next h => rw [h, hfield, Option.getD_some]
    · rfl

/-- An object in the place of a document. -/
theorem sameExcept_object {E M : Set (List String)} (h : [] ∉ E) {o : Option Value}
    {fields : List (String × Value)} :
    jsonDocs.SameExcept E M o (some (.object fields)) ↔
      (o = none ∧ [] ∈ M ∨ ∃ fields', o = some (.object fields')) ∧
        ∀ key, jsonDocs.SameExcept (DocKind.below key E) (DocKind.below key M)
          (jsonDocs.fieldOf o key) (fields.lookup key) := by
  rw [DocKind.sameExcept_iff h]
  refine and_congr ?_ Iff.rfl
  have hmade : jsonDocs.Made M o (some (.object fields)) [] ↔ o = none ∧ [] ∈ M := by
    unfold DocKind.Made
    constructor
    · rintro ⟨hnone, -, hmade⟩
      exact ⟨Option.map_eq_none_iff.mp hnone, hmade⟩
    · rintro ⟨rfl, hmade⟩
      exact ⟨rfl, rfl, hmade⟩
  rw [hmade, or_comm]
  refine or_congr Iff.rfl ?_
  cases o with
  | none => exact iff_of_false nofun (by rintro ⟨fields', h⟩; cases h)
  | some value =>
    cases value with
    | object fields' => exact iff_of_true rfl ⟨fields', rfl⟩
    | _ => exact iff_of_false nofun (by rintro ⟨fields', h⟩; cases h)

/-- An object with one field in the place of a document. -/
theorem sameExcept_field {M : Set (List String)} (hmade : [] ∈ M) {key : String} {path : List String}
    {v : Value} {o : Option Value} :
    jsonDocs.SameExcept {key :: path} M o (some (.object [(key, v)])) ↔
      OnlyField key o ∧
        jsonDocs.SameExcept {path} (DocKind.below key M) (jsonDocs.fieldOf o key) (some v) := by
  have hbelow : DocKind.below key {key :: path} = {path} := by
    ext rest
    simp
  have hother : ∀ key', key' ≠ key → DocKind.below key' {key :: path} = ∅ := by
    intro key' hne
    ext rest
    simp [hne]
  have hfields : (∀ key', jsonDocs.SameExcept (DocKind.below key' {key :: path})
      (DocKind.below key' M) (jsonDocs.fieldOf o key') ([(key, v)].lookup key')) ↔
      (∀ key', key' ≠ key → jsonDocs.fieldOf o key' = none) ∧
        jsonDocs.SameExcept {path} (DocKind.below key M) (jsonDocs.fieldOf o key) (some v) := by
    constructor
    · intro hall
      refine ⟨fun key' hne => ?_, ?_⟩
      · have hkey := hall key'
        rw [hother key' hne, Value.lookup_field, if_neg hne] at hkey
        exact DocKind.sameExcept_empty_none.mp hkey
      · have hkey := hall key
        rwa [hbelow, Value.lookup_field, if_pos rfl] at hkey
    · rintro ⟨hnone, hsame⟩ key'
      by_cases hne : key' = key
      · subst hne
        rwa [hbelow, Value.lookup_field, if_pos rfl]
      · rw [hother key' hne, Value.lookup_field, if_neg hne]
        exact DocKind.sameExcept_empty_none.mpr (hnone key' hne)
  rw [sameExcept_object (by simp), hfields, ← and_assoc]
  refine and_congr_left fun _ => ?_
  unfold OnlyField
  cases o with
  | none => simp [hmade]
  | some value =>
    cases value with
    | object fields' => simp
    | _ => exact iff_of_false (by simp) (by simp)

end ApertureRouter
