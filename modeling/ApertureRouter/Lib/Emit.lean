import Mathlib.Data.List.Forall2

/-!
# Programs that emit

A program on states `σ` that emits a list of `ω` (`Prog σ ω`): a parser callback, a stream
converter, a logger. `f >> g` runs `f`, then `g`, and emits what both emit, in order.

* `Prog.forEach`: one program for each item of a list. `forEach_append` makes it an action of
  concatenation, so a run over `l₁ ++ l₂` is a run over `l₁` and then one over `l₂`.
* `Along good f s l`: every step of the run of `forEach f l` from `s` starts in a state that is
  `good` for its item. `gather w f s l`: what the steps of this run leave behind.
* `Accepts step f s m m'`: a reader in state `m` that follows the emitted items with `step` accepts
  what `f` emits. `Accepts.forEach` is a forward simulation over a run: a relation between program
  and reader that one step keeps, up to what it leaves behind. `Along.accepts_iff`: a reader that
  checks a guard accepts exactly the guarded runs; `keeping` lets a guard speak of the history.
* `Agree f g s P`: two programs side by side. `Agree.forEach` compares two runs item by item.
-/

namespace Emit

variable {σ ω α : Type}

/-- A program on states `σ` that emits items `ω`. -/
def Prog (σ ω : Type) : Type := σ → σ × List ω

namespace Prog

/-- Changes nothing and emits nothing. -/
def skip : Prog σ ω := fun s => (s, [])

/-- Emits `es s` in state `s`. -/
def emit (es : σ → List ω) : Prog σ ω := fun s => (s, es s)

/-- Changes the state to `g s`. -/
def modify (g : σ → σ) : Prog σ ω := fun s => (g s, [])

/-- `f`, then `g`. -/
def seq (f g : Prog σ ω) : Prog σ ω := fun s => ((g (f s).1).1, (f s).2 ++ (g (f s).1).2)

instance : AndThen (Prog σ ω) := ⟨fun f g => f.seq (g ())⟩

/-- `f` in the states where `p` holds. -/
def cond (p : σ → Bool) (f : Prog σ ω) : Prog σ ω := fun s => if p s then f s else (s, [])

/-- `f a` if there is a value `a` (`if let Some(a) = x`). -/
def ifSome (f : α → Prog σ ω) : Option α → Prog σ ω
  | some a => f a
  | none => skip

/-- `f a` for each item `a` of a list, in order. -/
def forEach (f : α → Prog σ ω) : List α → Prog σ ω
  | [] => skip
  | a :: l => f a >> forEach f l

@[simp] theorem skip_apply (s : σ) : (skip : Prog σ ω) s = (s, []) := rfl

@[simp] theorem emit_apply (es : σ → List ω) (s : σ) : emit es s = (s, es s) := rfl

@[simp] theorem modify_apply (g : σ → σ) (s : σ) : (modify g : Prog σ ω) s = (g s, []) := rfl

@[simp] theorem andThen_apply (f g : Prog σ ω) (s : σ) :
    (f >> g) s = ((g (f s).1).1, (f s).2 ++ (g (f s).1).2) := rfl

theorem cond_apply (p : σ → Bool) (f : Prog σ ω) (s : σ) :
    cond p f s = if p s then f s else (s, []) := rfl

theorem cond_pos {p : σ → Bool} {s : σ} (h : p s = true) (f : Prog σ ω) : cond p f s = f s := by
  simp [cond, h]

theorem cond_neg {p : σ → Bool} {s : σ} (h : p s = false) (f : Prog σ ω) :
    cond p f s = (s, []) := by
  simp [cond, h]

theorem andThen_assoc (f g h : Prog σ ω) : ((f >> g) >> h) = (f >> (g >> h)) := by
  funext s
  simp [List.append_assoc]

@[simp] theorem ifSome_some (f : α → Prog σ ω) (a : α) : ifSome f (some a) = f a := rfl

@[simp] theorem ifSome_none (f : α → Prog σ ω) : ifSome f none = skip := rfl

@[simp] theorem forEach_nil (f : α → Prog σ ω) : forEach f [] = skip := rfl

@[simp] theorem forEach_cons (f : α → Prog σ ω) (a : α) (l : List α) :
    forEach f (a :: l) = (f a >> forEach f l) := rfl

/-- A run over `l₁ ++ l₂` is a run over `l₁` and then one over `l₂`. -/
theorem forEach_append (f : α → Prog σ ω) (l₁ l₂ : List α) :
    forEach f (l₁ ++ l₂) = (forEach f l₁ >> forEach f l₂) := by
  induction l₁ with
  | nil => funext s; simp
  | cons a l ih => rw [List.cons_append, forEach_cons, ih, forEach_cons, andThen_assoc]

theorem forEach_filterMap {β : Type} (f : β → Prog σ ω) (g : α → Option β) (l : List α) :
    forEach f (l.filterMap g) = forEach (fun a => ifSome f (g a)) l := by
  induction l with
  | nil => rfl
  | cons a l ih =>
    cases h : g a with
    | none =>
      rw [List.filterMap_cons_none h, ih, forEach_cons, h]
      funext s
      simp
    | some b => rw [List.filterMap_cons_some h, forEach_cons, ih, forEach_cons, h, ifSome_some]

/-- A run over lists is a run over the items of the lists. -/
theorem forEach_flatMap {β : Type} (f : β → Prog σ ω) (g : α → List β) (l : List α) :
    forEach f (l.flatMap g) = forEach (fun a => forEach f (g a)) l := by
  induction l with
  | nil => rfl
  | cons a l ih => rw [List.flatMap_cons, forEach_append, ih, forEach_cons]

/-- Runs of two programs that agree on every item of the list are the same. -/
theorem forEach_congr {f g : α → Prog σ ω} {l : List α} (h : ∀ a ∈ l, f a = g a) :
    forEach f l = forEach g l := by
  induction l with
  | nil => rfl
  | cons a l ih =>
    rw [forEach_cons, forEach_cons, h a (by simp), ih fun b hb => h b (by simp [hb])]

end Prog

/-! ## What a program can emit -/

/-- From a state in `I`, `f` stays in `I` and emits only items that are `ok`. -/
def Emits (I : σ → Prop) (ok : ω → Prop) (f : Prog σ ω) : Prop :=
  ∀ s, I s → I (f s).1 ∧ ∀ e ∈ (f s).2, ok e

namespace Emits

variable {I : σ → Prop} {ok : ω → Prop} {f g : Prog σ ω}

theorem skip : Emits I ok Prog.skip := fun _ h => ⟨h, by simp⟩

theorem modify {u : σ → σ} (h : ∀ s, I s → I (u s)) : Emits I ok (Prog.modify u) :=
  fun s hs => ⟨h s hs, by simp⟩

theorem emit {es : σ → List ω} (h : ∀ s, ∀ e ∈ es s, ok e) : Emits I ok (Prog.emit es) :=
  fun s hs => ⟨hs, h s⟩

theorem andThen (hf : Emits I ok f) (hg : Emits I ok g) : Emits I ok (f >> g) := by
  intro s hs
  obtain ⟨h₁, he₁⟩ := hf s hs
  obtain ⟨h₂, he₂⟩ := hg _ h₁
  refine ⟨h₂, fun e he => ?_⟩
  rcases List.mem_append.mp he with h | h
  · exact he₁ e h
  · exact he₂ e h

theorem cond {p : σ → Bool} (h : Emits I ok f) : Emits I ok (Prog.cond p f) := by
  intro s hs
  cases hp : p s with
  | true => rw [Prog.cond_pos hp]; exact h s hs
  | false => rw [Prog.cond_neg hp]; exact skip s hs

/-- A program that does not run in the states of `I`. -/
theorem cond_off {p : σ → Bool} (h : ∀ s, I s → p s = false) : Emits I ok (Prog.cond p f) := by
  intro s hs
  rw [Prog.cond_neg (h s hs)]
  exact skip s hs

theorem ifSome {f : α → Prog σ ω} (h : ∀ a, Emits I ok (f a)) (x : Option α) :
    Emits I ok (Prog.ifSome f x) := by
  cases x with
  | none => exact skip
  | some a => exact h a

theorem forEach {f : α → Prog σ ω} {l : List α} (h : ∀ a ∈ l, Emits I ok (f a)) :
    Emits I ok (Prog.forEach f l) := by
  induction l with
  | nil => exact skip
  | cons a l ih => exact (h a (by simp)).andThen (ih fun b hb => h b (by simp [hb]))

end Emits

/-! ## Guarded runs -/

/-- Every step of the run of `forEach f l` from `s` starts in a state that is `good` for its
item. -/
def Along (good : σ → α → Prop) (f : α → Prog σ ω) : σ → List α → Prop
  | _, [] => True
  | s, a :: l => good s a ∧ Along good f (f a s).1 l

namespace Along

variable {good : σ → α → Prop} {f : α → Prog σ ω}

instance [∀ s a, Decidable (good s a)] : ∀ s l, Decidable (Along good f s l)
  | _, [] => isTrue trivial
  | s, a :: l =>
    have := instDecidable (f a s).1 l
    inferInstanceAs (Decidable (good s a ∧ Along good f (f a s).1 l))

theorem append {s : σ} {l₁ l₂ : List α} :
    Along good f s (l₁ ++ l₂) ↔ Along good f s l₁ ∧ Along good f (Prog.forEach f l₁ s).1 l₂ := by
  induction l₁ generalizing s with
  | nil => simp [Along]
  | cons a l ih => simp only [List.cons_append, Along, ih, and_assoc]; rfl

/-- A guarded run meets its guard at every split of its list. -/
theorem iff_split {s : σ} {l : List α} :
    Along good f s l ↔ ∀ pre a post, l = pre ++ a :: post → good (Prog.forEach f pre s).1 a := by
  constructor
  · rintro h pre a post rfl
    exact (append.mp h).2.1
  · intro h
    induction l generalizing s with
    | nil => trivial
    | cons a l ih =>
      refine ⟨h [] a l rfl, ih fun pre b post e => ?_⟩
      exact h (a :: pre) b post (by rw [e]; rfl)

/-- A run emits nothing exactly if every step emits nothing. -/
theorem forEach_eq_nil (h : ∀ {s a}, (f a s).2 = [] ↔ good s a) {s : σ} {l : List α} :
    (Prog.forEach f l s).2 = [] ↔ Along good f s l := by
  induction l generalizing s with
  | nil => simp [Along]
  | cons a l ih =>
    rw [Prog.forEach_cons, Prog.andThen_apply, List.append_eq_nil_iff, h, ih, Along]

/-- A run emits only items with a property exactly if every step does. -/
theorem forall_mem_forEach {ok : ω → Prop} (h : ∀ s a, (∀ e ∈ (f a s).2, ok e) ↔ good s a) {s : σ}
    {l : List α} : (∀ e ∈ (Prog.forEach f l s).2, ok e) ↔ Along good f s l := by
  induction l generalizing s with
  | nil => simp [Along]
  | cons a l ih =>
    rw [Prog.forEach_cons, Prog.andThen_apply, List.forall_mem_append, h, ih, Along]

/-- A guard that holds in every state with an invariant. -/
theorem of_invariant {I : σ → Prop} (h : ∀ a s, I s → I (f a s).1) (hg : ∀ a s, I s → good s a)
    (l : List α) {s : σ} (hs : I s) : Along good f s l := by
  induction l generalizing s with
  | nil => trivial
  | cons a l ih => exact ⟨hg a s hs, ih (h a s hs)⟩

/-- Two guards that agree where a third one holds. -/
theorem congr {good' base : σ → α → Prop} (h : ∀ s a, base s a → (good s a ↔ good' s a)) {s : σ}
    {l : List α} (hb : Along base f s l) : Along good f s l ↔ Along good' f s l := by
  induction l generalizing s with
  | nil => rfl
  | cons a l ih => exact and_congr (h s a hb.1) (ih hb.2)

end Along

/-! ## Runs that leave a trace -/

/-- What the steps of the run of `forEach f l` from `s` leave, in order: `w s a` for item `a` in
state `s`. -/
def gather {γ : Type} (w : σ → α → List γ) (f : α → Prog σ ω) : σ → List α → List γ
  | _, [] => []
  | s, a :: l => w s a ++ gather w f (f a s).1 l

/-- A run leaves nothing exactly if no step does. -/
theorem gather_eq_nil {γ : Type} {w : σ → α → List γ} {f : α → Prog σ ω} {s : σ} {l : List α} :
    gather w f s l = [] ↔ Along (fun s a => w s a = []) f s l := by
  induction l generalizing s with
  | nil => simp [gather, Along]
  | cons a l ih => rw [gather, List.append_eq_nil_iff, ih, Along]

/-- `f`, with a history of what its steps leave (`w`) beside the state. -/
def keeping {γ : Type} (w : σ → α → List γ) (f : α → Prog σ ω) (a : α) : Prog (List γ × σ) ω :=
  fun p => ((p.1 ++ w p.2 a, (f a p.2).1), (f a p.2).2)

/-- The history does not change what a run emits. -/
theorem forEach_keeping {γ : Type} (w : σ → α → List γ) (f : α → Prog σ ω) (l : List α)
    (p : List γ × σ) : (Prog.forEach (keeping w f) l p).2 = (Prog.forEach f l p.2).2 := by
  induction l generalizing p with
  | nil => rfl
  | cons a l ih => exact congrArg ((f a p.2).2 ++ ·) (ih (keeping w f a p).1)

/-! ## Two runs -/

/-- From `s`, `f` and `g` go to one state and emit as many items, the same ones exactly if `P`. -/
def Agree (f g : Prog σ ω) (s : σ) (P : Prop) : Prop :=
  (f s).1 = (g s).1 ∧ (f s).2.length = (g s).2.length ∧ ((f s).2 = (g s).2 ↔ P)

/-- **Two runs.** Over items that are pairwise `R`, two runs emit the same exactly if the items are
pairwise `P`. -/
theorem Agree.forEach {R P : α → α → Prop} {f : α → Prog σ ω}
    (h : ∀ a b s, R a b → Agree (f a) (f b) s (P a b)) {l₁ l₂ : List α}
    (hl : List.Forall₂ R l₁ l₂) (s : σ) :
    Agree (Prog.forEach f l₁) (Prog.forEach f l₂) s (List.Forall₂ P l₁ l₂) := by
  induction hl generalizing s with
  | nil => exact ⟨rfl, rfl, iff_of_true rfl .nil⟩
  | cons hab _ ih =>
    obtain ⟨hs, hlen, heq⟩ := h _ _ s hab
    obtain ⟨hs', hlen', heq'⟩ := ih (f _ s).1
    simp only [Agree, Prog.forEach_cons, Prog.andThen_apply]
    rw [← hs, List.length_append, List.length_append, List.forall₂_cons, ← heq, ← heq']
    refine ⟨hs', by omega, fun e => List.append_inj e hlen, ?_⟩
    rintro ⟨e, e'⟩
    rw [e, e']

/-- The same for lists that are made of equally long pieces. -/
theorem flatMap_eq_iff {R P : α → α → Prop} {f : α → List ω}
    (h : ∀ a b, R a b → (f a).length = (f b).length ∧ (f a = f b ↔ P a b)) {l₁ l₂ : List α}
    (hl : List.Forall₂ R l₁ l₂) : l₁.flatMap f = l₂.flatMap f ↔ List.Forall₂ P l₁ l₂ := by
  have hagree : Agree (Prog.forEach (fun a (_ : Unit) => ((), f a)) l₁)
      (Prog.forEach (fun a (_ : Unit) => ((), f a)) l₂) () (List.Forall₂ P l₁ l₂) :=
    Agree.forEach (fun a b _ hab => ⟨rfl, h a b hab⟩) hl ()
  have hrun : ∀ l : List α,
      (Prog.forEach (fun a (_ : Unit) => ((), f a)) l ()).2 = l.flatMap f := fun l => by
    induction l with
    | nil => rfl
    | cons a l ih => rw [List.flatMap_cons, ← ih]; rfl
  rw [← hrun, ← hrun]
  exact hagree.2.2

/-! ## A reader of the emitted items -/

section Accepts

variable {μ : Type} (step : μ → ω → Option μ)

/-- The reader in `m` accepts what `f` emits from `s`, and is in `m'` after it. -/
def Accepts (f : Prog σ ω) (s : σ) (m m' : μ) : Prop := (f s).2.foldlM step m = some m'

variable {step} {f g : Prog σ ω} {s : σ} {m m₁ m₂ : μ}

namespace Accepts

/-- What emits nothing is accepted. -/
theorem silent (h : (f s).2 = []) : Accepts step f s m m := by simp [Accepts, h]

theorem one {e : ω} (h : (f s).2 = [e]) (he : step m e = some m₁) : Accepts step f s m m₁ := by
  simp [Accepts, h, he]

theorem andThen (hf : Accepts step f s m m₁) (hg : Accepts step g (f s).1 m₁ m₂) :
    Accepts step (f >> g) s m m₂ := by
  show List.foldlM step m ((f s).2 ++ (g (f s).1).2) = some m₂
  rw [List.foldlM_append, hf]
  exact hg

/-- A relation to the reader that every step keeps, up to what the step leaves, is kept by the
run, up to what the run leaves. -/
theorem forEach {γ : Type} {w : σ → α → List γ} {f : α → Prog σ ω} {R : List γ → σ → μ → Prop}
    (h : ∀ t s m a, R t s m → ∃ m', Accepts step (f a) s m m' ∧ R (t ++ w s a) (f a s).1 m')
    (l : List α) {t : List γ} {s : σ} {m : μ} (hr : R t s m) :
    ∃ m', Accepts step (Prog.forEach f l) s m m' ∧
      R (t ++ gather w f s l) (Prog.forEach f l s).1 m' := by
  induction l generalizing t s m with
  | nil => exact ⟨m, silent rfl, by simpa [gather] using hr⟩
  | cons a l ih =>
    obtain ⟨m₁, hm₁, hr₁⟩ := h t s m a hr
    obtain ⟨m₂, hm₂, hr₂⟩ := ih hr₁
    refine ⟨m₂, hm₁.andThen hm₂, ?_⟩
    rw [gather, ← List.append_assoc]
    exact hr₂

end Accepts

/-- The reader in `m` gives up on what `f` emits from `s`. -/
def Rejects (step : μ → ω → Option μ) (f : Prog σ ω) (s : σ) (m : μ) : Prop :=
  (f s).2.foldlM step m = none

theorem Rejects.andThen_left (hf : Rejects step f s m) : Rejects step (f >> g) s m := by
  show List.foldlM step m ((f s).2 ++ (g (f s).1).2) = none
  rw [List.foldlM_append, show List.foldlM step m (f s).2 = none from hf]
  rfl

theorem Accepts.andThen_rejects (hf : Accepts step f s m m₁) (hg : Rejects step g (f s).1 m₁) :
    Rejects step (f >> g) s m := by
  show List.foldlM step m ((f s).2 ++ (g (f s).1).2) = none
  rw [List.foldlM_append, hf]
  exact hg

/-- **A guard that the reader checks.** If a relation to the reader is kept by the steps that meet
the guard, and the reader gives up at the others, then the reader accepts a run exactly if the run
meets the guard all along. -/
theorem Along.accepts_iff {good : σ → α → Prop} {f : α → Prog σ ω} {R : σ → μ → Prop}
    (hgood : ∀ s m a, R s m → good s a → ∃ m', Accepts step (f a) s m m' ∧ R (f a s).1 m')
    (hbad : ∀ s m a, R s m → ¬good s a → Rejects step (f a) s m) (l : List α) {s : σ} {m : μ}
    (hr : R s m) :
    (∃ m', Accepts step (Prog.forEach f l) s m m') ↔ Along good f s l := by
  induction l generalizing s m with
  | nil => exact ⟨fun _ => trivial, fun _ => ⟨m, .silent rfl⟩⟩
  | cons a l ih =>
    by_cases hg : good s a
    · obtain ⟨m₁, hm₁, hr₁⟩ := hgood s m a hr hg
      rw [Along, and_iff_right hg, ← ih hr₁]
      constructor
      · rintro ⟨m', hm'⟩
        have hm' : List.foldlM step m ((f a s).2 ++ _) = some m' := hm'
        rw [List.foldlM_append, hm₁] at hm'
        exact ⟨m', hm'⟩
      · rintro ⟨m', hm'⟩
        exact ⟨m', hm₁.andThen hm'⟩
    · refine iff_of_false ?_ fun h => hg h.1
      rintro ⟨m', hm'⟩
      have := (hbad s m a hr hg).andThen_left (g := Prog.forEach f l)
      exact absurd (hm'.symm.trans this) (by simp)

end Accepts

end Emit
