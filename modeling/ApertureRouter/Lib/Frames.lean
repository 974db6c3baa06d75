import Mathlib.Data.Set.Basic

/-!
# Frames of documents

A document `δ` has fields under keys `κ`, which are documents, and a shape: what there is to see of it
without its fields. A kind of documents is a `DocKind`.

* `DocKind.SameExcept D E M o o'`: `o'` has the shapes of `o` at every path that does not go through one
  of `E`. At a path of `M` a document without a shape of its own may have been made, where there was none.
* `sameExcept_iff`: field by field, with what is left of `E` and `M` below the key.
* `sameExcept_refl`, `sameExcept_empty_none`, `sameExcept_of_nil_mem`: what ends such a descent.
  `not_sameExcept_of_gone`: a path that refutes it.
-/

/-- A kind of documents. -/
structure DocKind (δ κ σ : Type) where
  field : δ → κ → Option δ
  shape : δ → σ
  /-- The shape of a document with fields. -/
  inner : σ

namespace DocKind

variable {δ κ σ : Type} (D : DocKind δ κ σ)

/-- The field of a document, if it is there. -/
def fieldOf (o : Option δ) (key : κ) : Option δ := o.bind (D.field · key)

/-- The document at the end of a path. -/
def valueAt : Option δ → List κ → Option δ
  | o, [] => o
  | o, key :: path => valueAt (D.fieldOf o key) path

/-- Its shape. -/
def shapeAt (o : Option δ) (path : List κ) : Option σ := (D.valueAt o path).map D.shape

/-- What is left of the paths that begin with the key. -/
def below (key : κ) (E : Set (List κ)) : Set (List κ) := {path | key :: path ∈ E}

/-- A document was made at the path. -/
def Made (M : Set (List κ)) (o o' : Option δ) (path : List κ) : Prop :=
  D.shapeAt o path = none ∧ D.shapeAt o' path = some D.inner ∧ path ∈ M

/-- The same everywhere but at `E` and below, and where a document was made. -/
def SameExcept (E M : Set (List κ)) (o o' : Option δ) : Prop :=
  ∀ path, (∀ e ∈ E, ¬e <+: path) → D.shapeAt o' path = D.shapeAt o path ∨ D.Made M o o' path

variable {D} {E M : Set (List κ)} {o o' : Option δ}

@[simp] theorem mem_below {key : κ} {path : List κ} : path ∈ below key E ↔ key :: path ∈ E := Iff.rfl

theorem sameExcept_refl (E M : Set (List κ)) (o : Option δ) : D.SameExcept E M o o :=
  fun _ _ => .inl rfl

/-- Everything is excepted. -/
theorem sameExcept_of_nil_mem (h : [] ∈ E) : D.SameExcept E M o o' :=
  fun _ hpath => absurd List.nil_prefix (hpath [] h)

/-- **Field by field.** -/
theorem sameExcept_iff (h : [] ∉ E) : D.SameExcept E M o o' ↔
    (o'.map D.shape = o.map D.shape ∨ D.Made M o o' []) ∧
      ∀ key, D.SameExcept (below key E) (below key M) (D.fieldOf o key) (D.fieldOf o' key) := by
  constructor
  · intro hsame
    refine ⟨hsame [] fun e he hpre => ?_, fun key path hpath => ?_⟩
    · rw [List.prefix_nil] at hpre
      exact h (hpre ▸ he)
    · refine hsame (key :: path) fun e he hpre => ?_
      cases e with
      | nil => exact h he
      | cons key' e =>
        obtain ⟨rfl, hrest⟩ := List.cons_prefix_cons.mp hpre
        exact hpath e he hrest
  · rintro ⟨hroot, hfields⟩ path hpath
    cases path with
    | nil => exact hroot
    | cons key path =>
      refine hfields key path fun e he hpre => ?_
      exact hpath (key :: e) he (List.cons_prefix_cons.mpr ⟨rfl, hpre⟩)

/-- What is not excepted cannot go. -/
theorem sameExcept_empty_none : D.SameExcept ∅ M o none ↔ o = none := by
  constructor
  · intro hsame
    rcases hsame [] fun _ he => absurd he (Set.notMem_empty _) with hroot | hmade
    · exact Option.map_eq_none_iff.mp hroot.symm
    · cases hmade.2.1
  · rintro rfl
    exact sameExcept_refl _ _ _

/-- What was there and is gone, at a path that is not excepted. -/
theorem not_sameExcept_of_gone {path : List κ} {d : δ} (hpath : ∀ e ∈ E, ¬e <+: path)
    (hthere : D.valueAt o path = some d) (hgone : D.valueAt o' path = none) :
    ¬D.SameExcept E M o o' := by
  intro hsame
  rcases hsame path hpath with hkept | ⟨hmade, -⟩
  · rw [shapeAt, shapeAt, hthere, hgone] at hkept
    cases hkept
  · rw [shapeAt, hthere] at hmade
    cases hmade

end DocKind
