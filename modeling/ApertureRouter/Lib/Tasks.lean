import Mathlib.Algebra.GroupWithZero.Nat
import Mathlib.Data.Finset.Max
import ApertureRouter.Lib.Dialog
import ApertureRouter.Lib.Locks

/-!
# Tasks that branch, lock and ask

A program of a task (`Proc`) takes and releases read-write locks, changes the data and goes on with what
it was before, and asks its environment. What it does next can depend on all of that. One action is one
step, and any task may be the one to go on, if the lock that it wants is not held against it (`Reach`).

* `Laws`: what the tasks agree on. Data has an invariant; what a lock protects has one as well, which
  holds whenever nobody writes it (`resource`). A task relies on what the others leave alone (`rely`). A
  query needs a permission that nobody takes back (`allowed`), and no lock is held meanwhile. Locks are
  taken in the order of their ranks.
* `Laws.Meets`: a program keeps to the laws, whatever the others do that keep to them too. It is read off
  the program; `Meets.bind` takes it through one that is made of parts.
* `Valid.reach`: if all programs keep to the laws, every reachable state does. Between two steps of a task
  the others do what it relies on (`Valid.rely_of_steps`).
* `Valid.progress`: as long as there are tasks that neither are done nor wait for a reply, one of them can
  go on whose next action needs no lock, or one that nobody holds. So no queue in front of a lock, fair or
  not, stops all of them, and no reply that does not come.
-/

namespace Tasks

open Locks (Mode)

variable {κ τ σ θ α β : Type} {ρ : θ → Type}

/-- A program with the locks `κ`, the data `σ` and the queries `θ`, that returns an `α`. -/
inductive Proc (κ σ θ : Type) (ρ : θ → Type) (α : Type) where
  | done (a : α)
  | read (k : κ) (p : Proc κ σ θ ρ α)
  | write (k : κ) (p : Proc κ σ θ ρ α)
  | release (k : κ) (p : Proc κ σ θ ρ α)
  | act (f : σ → σ) (p : σ → Proc κ σ θ ρ α)
  | ask (q : θ) (p : ρ q → Proc κ σ θ ρ α)

namespace Proc

/-- `p`, then `f` with what it returns. -/
def bind : Proc κ σ θ ρ α → (α → Proc κ σ θ ρ β) → Proc κ σ θ ρ β
  | done a, f => f a
  | read k p, f => read k (p.bind f)
  | write k p, f => write k (p.bind f)
  | release k p, f => release k (p.bind f)
  | act g p, f => act g fun d => (p d).bind f
  | ask q p, f => ask q fun r => (p r).bind f

instance : Monad (Proc κ σ θ ρ) where
  pure := done
  bind := bind

@[simp] theorem done_bind (a : α) (f : α → Proc κ σ θ ρ β) :
    (done a : Proc κ σ θ ρ α) >>= f = f a := rfl

@[simp] theorem read_bind (k : κ) (p : Proc κ σ θ ρ α) (f : α → Proc κ σ θ ρ β) :
    read k p >>= f = read k (p >>= f) := rfl

@[simp] theorem write_bind (k : κ) (p : Proc κ σ θ ρ α) (f : α → Proc κ σ θ ρ β) :
    write k p >>= f = write k (p >>= f) := rfl

@[simp] theorem release_bind (k : κ) (p : Proc κ σ θ ρ α) (f : α → Proc κ σ θ ρ β) :
    release k p >>= f = release k (p >>= f) := rfl

@[simp] theorem act_bind (g : σ → σ) (p : σ → Proc κ σ θ ρ α) (f : α → Proc κ σ θ ρ β) :
    act g p >>= f = act g fun d => p d >>= f := rfl

@[simp] theorem ask_bind (q : θ) (p : ρ q → Proc κ σ θ ρ α) (f : α → Proc κ σ θ ρ β) :
    ask q p >>= f = ask q fun r => p r >>= f := rfl

/-- A program that only asks. -/
def ofDialog {κ' ρ' : Type} (wrap : κ' → θ) (unwrap : ∀ q, ρ (wrap q) → ρ') :
    Dialog κ' ρ' α → Proc κ σ θ ρ α
  | .done a => done a
  | .ask q k => ask (wrap q) fun r => ofDialog wrap unwrap (k (unwrap q r))

theorem ofDialog_bind {κ' ρ' : Type} {wrap : κ' → θ} {unwrap : ∀ q, ρ (wrap q) → ρ'}
    (dialog : Dialog κ' ρ' α) (f : α → Dialog κ' ρ' β) :
    (ofDialog wrap unwrap dialog >>= fun a => ofDialog wrap unwrap (f a) : Proc κ σ θ ρ β) =
      ofDialog wrap unwrap (dialog >>= f) := by
  induction dialog with
  | done a => rfl
  | ask q k ih => exact congrArg (ask (wrap q)) (funext fun r => ih (unwrap q r))

/-- A straight program: its locks are among the locks, and its data is a part of the data. It returns what
it has got. -/
def ofProgram {κ' σ' ω : Type} (lock : κ' → κ) (get : σ → σ') (set : σ' → σ → σ) :
    Option ω → Locks.Program κ' σ' ω → Proc κ σ θ ρ (Option ω)
  | got, [] => done got
  | got, .read k :: rest => read (lock k) (ofProgram lock get set got rest)
  | got, .write k :: rest => write (lock k) (ofProgram lock get set got rest)
  | got, .release k :: rest => release (lock k) (ofProgram lock get set got rest)
  | _, .get f :: rest => act id fun d => ofProgram lock get set (some (f (get d))) rest
  | got, .put _ f :: rest =>
    act (fun d => set (f got (get d)) d) fun _ => ofProgram lock get set got rest

/-- The program run alone from `d`, with these replies: what it leaves and what it returns. -/
def runAlone : (Nat → ∀ q, ρ q) → σ → Proc κ σ θ ρ α → σ × α
  | _, d, done a => (d, a)
  | replies, d, read _ p | replies, d, write _ p | replies, d, release _ p => runAlone replies d p
  | replies, d, act f p => runAlone replies (f d) (p d)
  | replies, d, ask q p => runAlone (fun n => replies (n + 1)) d (p (replies 0 q))

end Proc

/-! ## States -/

/-- The data and the tasks `τ`. What has been asked, the last query first, and the number of steps of each
task are for the statements. -/
structure State (κ τ σ θ : Type) (ρ : θ → Type) (α : Type) where
  data : σ
  todo : τ → Proc κ σ θ ρ α
  mode : τ → κ → Mode := fun _ _ => .free
  asked : List (τ × θ) := []
  steps : τ → Nat := fun _ => 0

namespace State

section

variable [DecidableEq κ] [DecidableEq τ]

/-- The task has done an action that leaves it with `p`. -/
def moved (s : State κ τ σ θ ρ α) (t : τ) (p : Proc κ σ θ ρ α) : State κ τ σ θ ρ α :=
  { s with todo := Function.update s.todo t p, steps := Function.update s.steps t (s.steps t + 1) }

/-- The task holds the lock like this. -/
def held (s : State κ τ σ θ ρ α) (t : τ) (k : κ) (mode : Mode) : State κ τ σ θ ρ α :=
  { s with mode := Function.update s.mode t (Function.update (s.mode t) k mode) }

theorem held_moved_mode (s : State κ τ σ θ ρ α) (t : τ) (p : Proc κ σ θ ρ α) (k : κ) (mode : Mode) :
    ((s.moved t p).held t k mode).mode =
      Function.update s.mode t (Function.update (s.mode t) k mode) := rfl

/-- A step of the task `t`, with the reply to whatever it asks. -/
def next [Fintype τ] (s : State κ τ σ θ ρ α) (t : τ) (reply : ∀ q, ρ q) :
    Option (State κ τ σ θ ρ α) :=
  match s.todo t with
  | .done _ => none
  | .read k p => if ∀ u, s.mode u k ≠ .writing then some ((s.moved t p).held t k .reading) else none
  | .write k p => if ∀ u, s.mode u k = .free then some ((s.moved t p).held t k .writing) else none
  | .release k p => some ((s.moved t p).held t k .free)
  | .act f p => some { s.moved t (p s.data) with data := f s.data }
  | .ask q p => some { s.moved t (p (reply q)) with asked := (t, q) :: s.asked }

/-- What can be reached from `s₀` by steps of the tasks and of the environment. -/
inductive Reach [Fintype τ] (env : σ → σ → Prop) (s₀ : State κ τ σ θ ρ α) : State κ τ σ θ ρ α → Prop
  | start : Reach env s₀ s₀
  | task {s s' : State κ τ σ θ ρ α} (t : τ) (reply : ∀ q, ρ q) : Reach env s₀ s →
      s.next t reply = some s' → Reach env s₀ s'
  | env {s : State κ τ σ θ ρ α} {d : σ} : Reach env s₀ s → env s.data d →
      Reach env s₀ { s with data := d }

/-- The run of a schedule, with these replies. -/
def runAll [Fintype τ] (reply : ∀ q, ρ q) (s₀ : State κ τ σ θ ρ α) (schedule : List τ) :
    Option (State κ τ σ θ ρ α) :=
  schedule.foldlM (fun s t => s.next t reply) s₀

theorem Reach.runAll [Fintype τ] {env : σ → σ → Prop} {reply : ∀ q, ρ q}
    {s₀ s s' : State κ τ σ θ ρ α} {schedule : List τ} (h : Reach env s₀ s)
    (hs : s.runAll reply schedule = some s') : Reach env s₀ s' := by
  induction schedule generalizing s with
  | nil =>
    obtain rfl := Option.some.inj hs
    exact h
  | cons t schedule ih =>
    rw [State.runAll, List.foldlM_cons] at hs
    obtain ⟨s₁, hstep, hrest⟩ := Option.bind_eq_some_iff.mp hs
    exact ih (h.task t reply hstep) hrest

/-- A step changes only what belongs to its task, and asks once at most. -/
theorem next_frame [Fintype τ] {s s' : State κ τ σ θ ρ α} {t : τ} {reply : ∀ q, ρ q}
    (hs : s.next t reply = some s') :
    s'.todo = Function.update s.todo t (s'.todo t) ∧
      s'.mode = Function.update s.mode t (s'.mode t) ∧
      s'.steps = Function.update s.steps t (s.steps t + 1) ∧
      (s'.asked = s.asked ∨ ∃ q, s'.asked = (t, q) :: s.asked) := by
  unfold next at hs
  cases hp : s.todo t with
  | done a =>
    rw [hp] at hs
    cases hs
  | read k p | write k p =>
    rw [hp] at hs
    dsimp only at hs
    split at hs
    · rw [← Option.some.inj hs]
      exact ⟨by simp [held, moved], by simp [held, moved], rfl, .inl rfl⟩
    · cases hs
  | release k p | act f p =>
    rw [hp] at hs
    rw [← Option.some.inj hs]
    exact ⟨by simp [held, moved], by simp [held, moved], rfl, .inl rfl⟩
  | ask q p =>
    rw [hp] at hs
    rw [← Option.some.inj hs]
    exact ⟨by simp [moved], by simp [moved], rfl, .inr ⟨q, rfl⟩⟩

theorem Reach.trans [Fintype τ] {env : σ → σ → Prop} {s₀ s s' : State κ τ σ θ ρ α}
    (h : Reach env s₀ s) (h' : Reach env s s') : Reach env s₀ s' := by
  induction h' with
  | start => exact h
  | task t reply _ hs ih => exact ih.task t reply hs
  | env _ hd ih => exact ih.env hd

theorem Reach.steps_mono [Fintype τ] {env : σ → σ → Prop} {s₀ s : State κ τ σ θ ρ α}
    (h : Reach env s₀ s) (t : τ) : s₀.steps t ≤ s.steps t := by
  induction h with
  | start => exact Nat.le_refl _
  | env _ _ ih => exact ih
  | task u reply _ hs ih =>
    obtain ⟨-, -, hsteps, -⟩ := next_frame hs
    rw [hsteps]
    by_cases ht : t = u
    · subst ht
      rw [Function.update_self]
      exact Nat.le_succ_of_le ih
    · rwa [Function.update_of_ne ht]

end

end State

/-! ## Laws -/

/-- The locks of the one are not held against the other. -/
def Compatible (mode mode' : κ → Mode) : Prop :=
  ∀ k, (mode k = .writing → mode' k = .free) ∧ (mode' k = .writing → mode k = .free)

/-- What the tasks agree on, if what they return is an `α`. -/
structure Laws (κ τ σ θ α : Type) where
  /-- The order in which the locks are taken. -/
  rank : κ → Nat
  /-- What holds of the data all along. -/
  inv : σ → Prop
  /-- What holds of the data as long as nobody writes what the lock protects. -/
  resource : κ → σ → Prop
  /-- How the others can change the data while a task holds its locks. -/
  rely : τ → (κ → Mode) → σ → σ → Prop
  /-- The task may ask. -/
  allowed : τ → σ → θ → Prop
  /-- The task may return. -/
  result : τ → σ → α → Prop
  rely_refl : ∀ t mode d, rely t mode d d
  rely_trans : ∀ t mode d d' d'', rely t mode d d' → rely t mode d' d'' → rely t mode d d''
  result_rely : ∀ t mode d d' a, rely t mode d d' → result t d a → result t d' a

namespace Laws

variable {γ : Type} (L : Laws κ τ σ θ γ)

/-- The data may be changed from `d` to `d'` by someone who holds `mode`: by the task `t`, or by the
environment. -/
structure Guarantee (t : Option τ) (mode : κ → Mode) (d d' : σ) : Prop where
  inv : L.inv d'
  resource : ∀ k, mode k ≠ .writing → L.resource k d → L.resource k d'
  rely : ∀ u, some u ≠ t → ∀ mode', Compatible mode mode' → L.rely u mode' d d'
  allowed : ∀ u q, L.allowed u d q → L.allowed u d' q

/-- No lock is held. -/
def Free (mode : κ → Mode) : Prop := ∀ k, mode k = .free

/-- The lock is above all that are held. -/
def Above (mode : κ → Mode) (k : κ) : Prop := ∀ j, mode j ≠ .free → L.rank j < L.rank k

/-- The rest `p` of the program of a task keeps to the laws and returns what satisfies `post`. The task
has left `d`, and before each action the others may have changed it. -/
def Meets [DecidableEq κ] (t : τ) : (κ → Mode) → σ → Proc κ σ θ ρ α →
    ((κ → Mode) → σ → α → Prop) → Prop
  | mode, d, .done a, post => post mode d a
  | mode, d, .read k p, post => L.Above mode k ∧ ∀ d', L.rely t mode d d' → L.inv d' →
      L.resource k d' → Meets t (Function.update mode k .reading) d' p post
  | mode, d, .write k p, post => L.Above mode k ∧ ∀ d', L.rely t mode d d' → L.inv d' →
      L.resource k d' → Meets t (Function.update mode k .writing) d' p post
  | mode, d, .release k p, post => ∀ d', L.rely t mode d d' → L.inv d' →
      (mode k = .writing → L.resource k d') ∧ Meets t (Function.update mode k .free) d' p post
  | mode, d, .act f p, post => ∀ d', L.rely t mode d d' → L.inv d' →
      (∀ k, mode k = .reading → L.resource k d') →
        L.Guarantee (some t) mode d' (f d') ∧ Meets t mode (f d') (p d') post
  | mode, d, .ask q p, post => Free mode ∧ ∀ d', L.rely t mode d d' → L.inv d' →
      L.allowed t d' q ∧ ∀ r, Meets t mode d' (p r) post

/-- A task that is done holds no lock, and has returned what it may. -/
def ended (t : τ) (mode : κ → Mode) (d : σ) (a : γ) : Prop := Free mode ∧ L.result t d a

variable {L} in
theorem ended.rely {t : τ} {mode : κ → Mode} {d d' : σ} (hrely : L.rely t mode d d') (a : γ)
    (h : L.ended t mode d a) : L.ended t mode d' a :=
  h.imp_right (L.result_rely t mode d d' a hrely)

variable {L} in
theorem Free.above {mode : κ → Mode} (h : Free mode) (k : κ) : L.Above mode k :=
  fun j hj => absurd (h j) hj

variable {L} in
theorem Above.update [DecidableEq κ] {mode : κ → Mode} {j k : κ} (h : L.Above mode k)
    (hlt : L.rank j < L.rank k) (x : Mode) : L.Above (Function.update mode j x) k := by
  intro i hi
  by_cases hij : i = j
  · rwa [hij]
  · rw [Function.update_of_ne hij] at hi
    exact h i hi

/-- The only lock that is held is released. -/
theorem free_update [DecidableEq κ] {mode : κ → Mode} {k : κ} (h : ∀ j, j ≠ k → mode j = .free) :
    Free (Function.update mode k .free) := by
  intro j
  by_cases hj : j = k
  · rw [hj, Function.update_self]
  · rw [Function.update_of_ne hj, h j hj]

variable {L} in
/-- Nothing is changed. -/
theorem Guarantee.refl {t : Option τ} {mode : κ → Mode} {d : σ} (h : L.inv d) :
    L.Guarantee t mode d d where
  inv := h
  resource _ _ hres := hres
  rely u _ mode' _ := L.rely_refl u mode' d
  allowed _ _ hq := hq

section

variable {L} [DecidableEq κ] {t : τ} {mode : κ → Mode} {d d' : σ} {p : Proc κ σ θ ρ α}

theorem Meets.bind {f : α → Proc κ σ θ ρ β} {post : (κ → Mode) → σ → α → Prop}
    {post' : (κ → Mode) → σ → β → Prop} (h : L.Meets t mode d p post)
    (hf : ∀ mode d a, post mode d a → L.Meets t mode d (f a) post') :
    L.Meets t mode d (p >>= f) post' := by
  induction p generalizing mode d with
  | done a => exact hf mode d a h
  | read k p ih => exact ⟨h.1, fun d' hrely hinv hres => ih (h.2 d' hrely hinv hres)⟩
  | write k p ih => exact ⟨h.1, fun d' hrely hinv hres => ih (h.2 d' hrely hinv hres)⟩
  | release k p ih => exact fun d' hrely hinv => (h d' hrely hinv).imp_right ih
  | act g p ih => exact fun d' hrely hinv hres => (h d' hrely hinv hres).imp_right (ih d')
  | ask q p ih =>
    exact ⟨h.1, fun d' hrely hinv => (h.2 d' hrely hinv).imp_right fun h r => ih r (h r)⟩

/-- Something is made of what the program returns. -/
theorem Meets.of_map {g : α → β} {post : (κ → Mode) → σ → β → Prop}
    (h : L.Meets t mode d (p >>= fun a => Proc.done (g a)) post) :
    L.Meets t mode d p fun mode d a => post mode d (g a) := by
  induction p generalizing mode d with
  | done a => exact h
  | read k p ih => exact ⟨h.1, fun d' hrely hinv hres => ih (h.2 d' hrely hinv hres)⟩
  | write k p ih => exact ⟨h.1, fun d' hrely hinv hres => ih (h.2 d' hrely hinv hres)⟩
  | release k p ih => exact fun d' hrely hinv => (h d' hrely hinv).imp_right ih
  | act g p ih => exact fun d' hrely hinv hres => (h d' hrely hinv hres).imp_right (ih d')
  | ask q p ih =>
    exact ⟨h.1, fun d' hrely hinv => (h.2 d' hrely hinv).imp_right fun h r => ih r (h r)⟩

/-- The others may go on. -/
theorem Meets.rely {post : (κ → Mode) → σ → α → Prop} (h : L.Meets t mode d p post)
    (hrely : L.rely t mode d d') (hpost : ∀ a, post mode d a → post mode d' a) :
    L.Meets t mode d' p post := by
  cases p with
  | done a => exact hpost a h
  | read k p =>
    exact ⟨h.1, fun d'' hrely' => h.2 d'' (L.rely_trans t mode d d' d'' hrely hrely')⟩
  | write k p =>
    exact ⟨h.1, fun d'' hrely' => h.2 d'' (L.rely_trans t mode d d' d'' hrely hrely')⟩
  | release k p => exact fun d'' hrely' => h d'' (L.rely_trans t mode d d' d'' hrely hrely')
  | act g p => exact fun d'' hrely' => h d'' (L.rely_trans t mode d d' d'' hrely hrely')
  | ask q p =>
    exact ⟨h.1, fun d'' hrely' => h.2 d'' (L.rely_trans t mode d d' d'' hrely hrely')⟩

theorem Meets.mono {post post' : (κ → Mode) → σ → α → Prop} (h : L.Meets t mode d p post)
    (hpost : ∀ mode d a, post mode d a → post' mode d a) : L.Meets t mode d p post' := by
  induction p generalizing mode d with
  | done a => exact hpost mode d a h
  | read k p ih => exact ⟨h.1, fun d' hrely hinv hres => ih (h.2 d' hrely hinv hres)⟩
  | write k p ih => exact ⟨h.1, fun d' hrely hinv hres => ih (h.2 d' hrely hinv hres)⟩
  | release k p ih => exact fun d' hrely hinv => (h d' hrely hinv).imp_right ih
  | act g p ih => exact fun d' hrely hinv hres => (h d' hrely hinv hres).imp_right (ih d')
  | ask q p ih =>
    exact ⟨h.1, fun d' hrely hinv => (h.2 d' hrely hinv).imp_right fun h r => ih r (h r)⟩

/-- A program that only asks what is allowed all along. -/
theorem meets_ofDialog {κ' ρ' : Type} {wrap : κ' → θ} {unwrap : ∀ q, ρ (wrap q) → ρ'}
    {dialog : Dialog κ' ρ' α} {post : (κ → Mode) → σ → α → Prop} (hfree : Free mode)
    (hallowed : ∀ d', L.rely t mode d d' → ∀ q, L.allowed t d' (wrap q))
    (hpost : ∀ d', L.rely t mode d d' → ∀ a, post mode d' a) :
    L.Meets t mode d (Proc.ofDialog wrap unwrap dialog) post := by
  induction dialog generalizing d with
  | done a => exact hpost d (L.rely_refl t mode d) a
  | ask q k ih =>
    refine ⟨hfree, fun d' hrely _ =>
      ⟨hallowed d' hrely q, fun r => ih _ (fun d'' hrely' => ?_) fun d'' hrely' => ?_⟩⟩
    · exact hallowed d'' (L.rely_trans t mode d d' d'' hrely hrely')
    · exact hpost d'' (L.rely_trans t mode d d' d'' hrely hrely')

end

/-! ## Straight programs -/

/-- The lock that an action takes. -/
def takes {κ' σ' ω : Type} : Locks.Act κ' σ' ω → Option κ'
  | .read k | .write k => some k
  | .get _ | .put _ _ | .release _ => none

/-- The next action of a straight program takes a lock above those that are held, and at its end none is
held. -/
def Ascending {κ' σ' ω : Type} (rank : κ' → Nat) (mode : κ' → Mode) : Locks.Program κ' σ' ω → Prop
  | [] => Free mode
  | act :: _ => ∀ k ∈ takes act, ∀ j, mode j ≠ .free → rank j < rank k

instance {κ' σ' ω : Type} [Fintype κ'] (rank : κ' → Nat) (mode : κ' → Mode)
    (p : Locks.Program κ' σ' ω) : Decidable (Ascending rank mode p) := by
  cases p with
  | nil => exact inferInstanceAs (Decidable (∀ k, mode k = .free))
  | cons act rest =>
    exact inferInstanceAs (Decidable (∀ k ∈ takes act, ∀ j, mode j ≠ .free → rank j < rank k))

/-- Whether a condition holds at all points of a straight program is decided point by point. -/
def decidableAlways {κ' σ' ω : Type} [DecidableEq κ']
    {Q : (κ' → Mode) → Locks.Program κ' σ' ω → Prop} [∀ mode p, Decidable (Q mode p)] :
    ∀ mode p, Decidable (Locks.State.Always Q mode p)
  | mode, [] => inferInstanceAs (Decidable (Q mode []))
  | mode, act :: rest =>
    have : Decidable (Locks.State.Always Q (act.effect mode) rest) := decidableAlways _ rest
    inferInstanceAs (Decidable (Q mode (act :: rest) ∧ Locks.State.Always Q (act.effect mode) rest))

section

variable {L} [DecidableEq κ] {t : τ} {mode : κ → Mode} {d : σ}

/-- **A straight program** that takes its locks in order keeps to the laws if its locks protect nothing
and its data is nobody else's concern. It keeps what all the others keep. -/
theorem meets_ofProgram {κ' σ' ω : Type} [DecidableEq κ'] {lock : κ' → κ} {get : σ → σ'}
    {set : σ' → σ → σ} {mode' : κ' → Mode} {program : Locks.Program κ' σ' ω} {got : Option ω}
    {J : σ → Prop} (hrely : ∀ mode d d', L.rely t mode d d' → J d → J d')
    (hJset : ∀ d x, J d → J (set x d)) (hJ : J d)
    (hlock : Function.Injective lock) (hmode : ∀ k, mode (lock k) = mode' k)
    (hothers : ∀ k, (∀ j, lock j ≠ k) → mode k = .free) (hres : ∀ k d, L.resource (lock k) d)
    (hset : ∀ mode d x, L.inv d → L.Guarantee (some t) mode d (set x d))
    (h : Locks.State.Always (Ascending fun k => L.rank (lock k)) mode' program) :
    L.Meets t mode d (Proc.ofProgram lock get set got program : Proc κ σ θ ρ (Option ω))
      fun mode d _ => Free mode ∧ J d := by
  have hupdate : ∀ (mode : κ → Mode) (mode' : κ' → Mode), (∀ k, mode (lock k) = mode' k) →
      ∀ k x j, Function.update mode (lock k) x (lock j) = Function.update mode' k x j := by
    intro mode mode' hmode k x j
    by_cases hj : j = k
    · rw [hj, Function.update_self, Function.update_self]
    · rw [Function.update_of_ne hj, Function.update_of_ne fun e => hj (hlock e), hmode]
  have hout : ∀ (mode : κ → Mode), (∀ k, (∀ j, lock j ≠ k) → mode k = .free) →
      ∀ k x j, (∀ i, lock i ≠ j) → Function.update mode (lock k) x j = .free := by
    intro mode hothers k x j hj
    rw [Function.update_of_ne (Ne.symm (hj k)), hothers j hj]
  induction program generalizing mode mode' d got with
  | nil =>
    refine ⟨fun k => ?_, hJ⟩
    by_cases hk : ∃ j, lock j = k
    · obtain ⟨j, rfl⟩ := hk
      rw [hmode]
      exact h j
    · exact hothers k fun j hj => hk ⟨j, hj⟩
  | cons act rest ih =>
    have habove : ∀ k ∈ takes act, L.Above mode (lock k) := by
      intro k hk j hj
      by_cases hin : ∃ i, lock i = j
      · obtain ⟨i, rfl⟩ := hin
        rw [hmode] at hj
        exact h.1 k hk i hj
      · exact absurd (hothers j fun i hi => hin ⟨i, hi⟩) hj
    cases act with
    | read k =>
      exact ⟨habove k rfl, fun d' hd' _ _ => ih (hrely _ _ _ hd' hJ)
        (hupdate mode mode' hmode k .reading) (hout mode hothers k .reading) h.2⟩
    | write k =>
      exact ⟨habove k rfl, fun d' hd' _ _ => ih (hrely _ _ _ hd' hJ)
        (hupdate mode mode' hmode k .writing) (hout mode hothers k .writing) h.2⟩
    | release k =>
      exact fun d' hd' _ => ⟨fun _ => hres k d', ih (hrely _ _ _ hd' hJ)
        (hupdate mode mode' hmode k .free) (hout mode hothers k .free) h.2⟩
    | get f =>
      exact fun d' hd' hinv _ => ⟨.refl hinv, ih (hrely _ _ _ hd' hJ) hmode hothers h.2⟩
    | put k f =>
      exact fun d' hd' hinv _ =>
        ⟨hset mode d' _ hinv, ih (hJset d' _ (hrely _ _ _ hd' hJ)) hmode hothers h.2⟩

end

/-! ## States that keep to the laws -/

/-- The state keeps to the laws, and so will what is still to be done. -/
structure Valid [DecidableEq κ] (s : State κ τ σ θ ρ γ) : Prop where
  inv : L.inv s.data
  exclusive : ∀ t u, t ≠ u → Compatible (s.mode t) (s.mode u)
  resource : ∀ k, (∀ t, s.mode t k ≠ .writing) → L.resource k s.data
  meets : ∀ t, L.Meets t (s.mode t) s.data (s.todo t) (L.ended t)
  asked : ∀ e ∈ s.asked, L.allowed e.1 s.data e.2

section

variable {L} [DecidableEq κ] {s s' : State κ τ σ θ ρ γ} {t : τ}

/-- Nobody holds a lock at first. -/
theorem Valid.start {d : σ} {todo : τ → Proc κ σ θ ρ γ} (hinv : L.inv d)
    (hresource : ∀ k, L.resource k d) (hmeets : ∀ t, L.Meets t (fun _ => .free) d (todo t) (L.ended t)) :
    L.Valid ({ data := d, todo := todo } : State κ τ σ θ ρ γ) where
  inv := hinv
  exclusive _ _ _ _ := ⟨nofun, nofun⟩
  resource k _ := hresource k
  meets := hmeets
  asked _ h := by cases h

/-- The environment keeps to the laws. -/
theorem Valid.env (h : L.Valid s) {d : σ} (hguar : L.Guarantee none (fun _ => .free) s.data d) :
    L.Valid { s with data := d } where
  inv := hguar.inv
  exclusive := h.exclusive
  resource k hk := hguar.resource k (fun e => by cases e) (h.resource k hk)
  meets u := by
    have hrely := hguar.rely u (fun e => by cases e) (s.mode u)
      fun k => ⟨nofun, fun _ => rfl⟩
    exact (h.meets u).rely hrely (ended.rely hrely)
  asked e he := hguar.allowed e.1 e.2 (h.asked e he)

/-- Nobody writes what a task reads. -/
theorem Valid.resource_of_reading (h : L.Valid s) (t : τ) :
    ∀ k, s.mode t k = .reading → L.resource k s.data := by
  intro k hk
  refine h.resource k fun u hu => ?_
  by_cases hut : u = t
  · rw [hut, hk] at hu
    cases hu
  · have hfree := (h.exclusive u t hut k).1 hu
    rw [hk] at hfree
    cases hfree

variable [DecidableEq τ]

/-- The task takes a lock that is not held against it, or releases one. -/
theorem Valid.exclusive_held (h : L.Valid s) {k : κ} {mode : Mode}
    (hmode : ∀ u, u ≠ t → (mode = .writing → s.mode u k = .free) ∧
      (s.mode u k = .writing → mode = .free)) {p : Proc κ σ θ ρ γ} (v w : τ) (hvw : v ≠ w) :
    Compatible (((s.moved t p).held t k mode).mode v) (((s.moved t p).held t k mode).mode w) := by
  intro j
  rw [State.held_moved_mode]
  by_cases hv : v = t
  · subst hv
    rw [Function.update_self, Function.update_of_ne (Ne.symm hvw)]
    by_cases hj : j = k
    · subst hj
      rw [Function.update_self]
      exact hmode w (Ne.symm hvw)
    · rw [Function.update_of_ne hj]
      exact h.exclusive v w hvw j
  · rw [Function.update_of_ne hv]
    by_cases hw : w = t
    · subst hw
      rw [Function.update_self]
      by_cases hj : j = k
      · subst hj
        rw [Function.update_self]
        exact (hmode v hvw).symm
      · rw [Function.update_of_ne hj]
        exact h.exclusive v w hvw j
    · rw [Function.update_of_ne hw]
      exact h.exclusive v w hvw j

/-- The task goes on to `p`, holding a lock in another way. -/
theorem Valid.hold (h : L.Valid s) {k : κ} {mode : Mode} {p : Proc κ σ θ ρ γ}
    (hmode : ∀ u, u ≠ t → (mode = .writing → s.mode u k = .free) ∧
      (s.mode u k = .writing → mode = .free))
    (hresource : mode ≠ .writing → (∀ u, u ≠ t → s.mode u k ≠ .writing) → L.resource k s.data)
    (hmeets : L.Meets t (Function.update (s.mode t) k mode) s.data p (L.ended t)) :
    L.Valid ((s.moved t p).held t k mode) where
  inv := h.inv
  exclusive := h.exclusive_held hmode
  resource j hj := by
    rw [State.held_moved_mode] at hj
    have hothers : ∀ u, u ≠ t → s.mode u j ≠ .writing := by
      intro u hu
      have hju := hj u
      rwa [Function.update_of_ne hu] at hju
    have hjt := hj t
    rw [Function.update_self] at hjt
    by_cases hjk : j = k
    · subst hjk
      rw [Function.update_self] at hjt
      exact hresource hjt hothers
    · have hself : s.mode t j ≠ .writing := by
        rwa [Function.update_of_ne hjk] at hjt
      refine h.resource j fun u => ?_
      by_cases hu : u = t
      · rwa [hu]
      · exact hothers u hu
  meets u := by
    by_cases hu : u = t
    · subst hu
      simpa [State.held, State.moved] using hmeets
    · simpa [State.held, State.moved, Function.update_of_ne hu] using h.meets u
  asked := h.asked

/-- **A step.** -/
theorem Valid.next [Fintype τ] (h : L.Valid s) {reply : ∀ q, ρ q} (hs : s.next t reply = some s') :
    L.Valid s' := by
  have hmeets := h.meets t
  have hrefl := L.rely_refl t (s.mode t) s.data
  unfold State.next at hs
  cases hp : s.todo t with
  | done a =>
    rw [hp] at hs
    cases hs
  | read k p =>
    rw [hp] at hs hmeets
    dsimp only at hs
    split at hs
    · rename_i henabled
      obtain rfl := Option.some.inj hs
      have hres := h.resource k henabled
      refine h.hold (fun u _ => ⟨nofun, fun e => absurd e (henabled u)⟩)
        (fun _ _ => hres) ?_
      exact hmeets.2 s.data hrefl h.inv hres
    · cases hs
  | write k p =>
    rw [hp] at hs hmeets
    dsimp only at hs
    split at hs
    · rename_i henabled
      obtain rfl := Option.some.inj hs
      have hres := h.resource k fun u e => by
        rw [henabled u] at e
        cases e
      refine h.hold (fun u _ => ⟨fun _ => henabled u, fun e => ?_⟩) (fun e => absurd rfl e) ?_
      · rw [henabled u] at e
        cases e
      · exact hmeets.2 s.data hrefl h.inv hres
    · cases hs
  | release k p =>
    rw [hp] at hs hmeets
    obtain rfl := Option.some.inj hs
    obtain ⟨hres, hrest⟩ := hmeets s.data hrefl h.inv
    refine h.hold (fun u _ => ⟨nofun, fun _ => rfl⟩) (fun _ hothers => ?_) hrest
    by_cases hself : s.mode t k = .writing
    · exact hres hself
    · refine h.resource k fun u => ?_
      by_cases hu : u = t
      · rwa [hu]
      · exact hothers u hu
  | act f p =>
    rw [hp] at hs hmeets
    obtain rfl := Option.some.inj hs
    obtain ⟨hguar, hrest⟩ := hmeets s.data hrefl h.inv (h.resource_of_reading t)
    refine ⟨hguar.inv, h.exclusive, fun k hk => hguar.resource k (hk t) (h.resource k hk),
      fun u => ?_, fun e he => hguar.allowed e.1 e.2 (h.asked e he)⟩
    by_cases hu : u = t
    · subst hu
      simpa [State.moved] using hrest
    · have hrely := hguar.rely u (fun e => hu (Option.some.inj e)) (s.mode u)
        (h.exclusive t u (Ne.symm hu))
      simpa [State.moved, Function.update_of_ne hu] using (h.meets u).rely hrely (ended.rely hrely)
  | ask q p =>
    rw [hp] at hs hmeets
    obtain rfl := Option.some.inj hs
    obtain ⟨hallowed, hrest⟩ := hmeets.2 s.data hrefl h.inv
    refine ⟨h.inv, h.exclusive, h.resource, fun u => ?_, fun e he => ?_⟩
    · by_cases hu : u = t
      · subst hu
        simpa [State.moved] using hrest (reply q)
      · simpa [State.moved, Function.update_of_ne hu] using h.meets u
    · rcases List.mem_cons.mp he with rfl | he
      · exact hallowed
      · exact h.asked e he

/-- **Every reachable state keeps to the laws.** -/
theorem Valid.reach [Fintype τ] {env : σ → σ → Prop} {s₀ : State κ τ σ θ ρ γ} (h₀ : L.Valid s₀)
    (henv : ∀ d d', L.inv d → env d d' → L.Guarantee none (fun _ => .free) d d')
    (h : State.Reach env s₀ s) : L.Valid s := by
  induction h with
  | start => exact h₀
  | task t reply _ hs ih => exact ih.next hs
  | env _ hd ih => exact ih.env (henv _ _ ih.inv hd)

/-- What a step does to the data is what the others rely on. -/
theorem Valid.guarantee_next [Fintype τ] (h : L.Valid s) {reply : ∀ q, ρ q}
    (hs : s.next t reply = some s') : L.Guarantee (some t) (s.mode t) s.data s'.data := by
  have hmeets := h.meets t
  unfold State.next at hs
  cases hp : s.todo t with
  | done a =>
    rw [hp] at hs
    cases hs
  | read k p | write k p =>
    rw [hp] at hs
    dsimp only at hs
    split at hs
    · rw [← Option.some.inj hs]
      exact .refl h.inv
    · cases hs
  | release k p | ask q p =>
    rw [hp] at hs
    rw [← Option.some.inj hs]
    exact .refl h.inv
  | act f p =>
    rw [hp] at hs hmeets
    rw [← Option.some.inj hs]
    exact (hmeets s.data (L.rely_refl t (s.mode t) s.data) h.inv (h.resource_of_reading t)).1

/-- **Between two steps of a task** the others do what it relies on. -/
theorem Valid.rely_of_steps [Fintype τ] {env : σ → σ → Prop} {s₀ : State κ τ σ θ ρ γ}
    (h₀ : L.Valid s₀) (henv : ∀ d d', L.inv d → env d d' → L.Guarantee none (fun _ => .free) d d')
    (h : State.Reach env s₀ s) (hsteps : s.steps t = s₀.steps t) :
    s.todo t = s₀.todo t ∧ s.mode t = s₀.mode t ∧ L.rely t (s₀.mode t) s₀.data s.data := by
  induction h with
  | start => exact ⟨rfl, rfl, L.rely_refl t (s₀.mode t) s₀.data⟩
  | env hreach hd ih =>
    obtain ⟨htodo, hmode, hrely⟩ := ih hsteps
    have hguar := henv _ _ (h₀.reach henv hreach).inv hd
    refine ⟨htodo, hmode, L.rely_trans t _ _ _ _ hrely ?_⟩
    exact hguar.rely t (fun e => by cases e) _ fun k => ⟨nofun, fun _ => rfl⟩
  | @task s s' u reply hreach hs ih =>
    have hvalid := h₀.reach henv hreach
    obtain ⟨htodo', hmode', hsteps', -⟩ := State.next_frame hs
    by_cases ht : t = u
    · subst ht
      have hmono := hreach.steps_mono t
      rw [hsteps', Function.update_self] at hsteps
      omega
    · rw [hsteps', Function.update_of_ne ht] at hsteps
      obtain ⟨htodo, hmode, hrely⟩ := ih hsteps
      have hstep := (hvalid.guarantee_next hs).rely t (fun e => ht (Option.some.inj e)) (s.mode t)
        (hvalid.exclusive u t (Ne.symm ht))
      rw [hmode] at hstep
      rw [htodo', hmode', Function.update_of_ne ht, Function.update_of_ne ht]
      exact ⟨htodo, hmode, L.rely_trans t _ _ _ _ hrely hstep⟩

end

/-! ## Progress -/

end Laws

namespace Proc

/-- The program has returned. -/
def isDone : Proc κ σ θ ρ α → Bool
  | done _ => true
  | _ => false

/-- The program waits for a reply. -/
def isAsking : Proc κ σ θ ρ α → Bool
  | ask _ _ => true
  | _ => false

/-- The lock that the next action takes. -/
def wants : Proc κ σ θ ρ α → Option κ
  | read k _ | write k _ => some k
  | _ => none

end Proc

namespace State

variable [DecidableEq κ] [DecidableEq τ] {s : State κ τ σ θ ρ α} {t : τ}

/-- A task that is done does nothing more. -/
theorem Reach.steps_of_isDone [Fintype τ] {env : σ → σ → Prop} {s₀ : State κ τ σ θ ρ α}
    (h : Reach env s₀ s) (hdone : (s₀.todo t).isDone = true) :
    s.todo t = s₀.todo t ∧ s.steps t = s₀.steps t := by
  induction h with
  | start => exact ⟨rfl, rfl⟩
  | env _ _ ih => exact ih
  | @task s s' u reply _ hs ih =>
    obtain ⟨htodo, hsteps⟩ := ih
    by_cases ht : t = u
    · subst ht
      rw [← htodo] at hdone
      cases hp : s.todo t with
      | done a =>
        rw [next, hp] at hs
        cases hs
      | read k p | write k p | release k p | act f p | ask q p =>
        rw [hp] at hdone
        cases hdone
    · obtain ⟨htodo', -, hsteps', -⟩ := next_frame hs
      rw [htodo', hsteps', Function.update_of_ne ht, Function.update_of_ne ht]
      exact ⟨htodo, hsteps⟩

/-- The next action of the task is its own. -/
def Busy (s : State κ τ σ θ ρ α) (t : τ) : Prop :=
  (s.todo t).isDone = false ∧ (s.todo t).isAsking = false

instance (s : State κ τ σ θ ρ α) : DecidablePred s.Busy :=
  fun t => inferInstanceAs (Decidable ((s.todo t).isDone = false ∧ (s.todo t).isAsking = false))

/-- The task is not done, and nobody holds the lock that it wants. -/
def Ready (s : State κ τ σ θ ρ α) (t : τ) : Prop :=
  (s.todo t).isDone = false ∧ ∀ k ∈ (s.todo t).wants, ∀ u, s.mode u k = .free

theorem Ready.next [Fintype τ] (h : s.Ready t) (reply : ∀ q, ρ q) : (s.next t reply).isSome := by
  obtain ⟨hdone, hwants⟩ := h
  unfold State.next
  cases hp : s.todo t with
  | done a =>
    rw [hp] at hdone
    cases hdone
  | read k p =>
    rw [hp] at hwants
    have henabled : ∀ u, s.mode u k ≠ .writing := by
      intro u hu
      rw [hwants k rfl u] at hu
      cases hu
    simp [henabled]
  | write k p =>
    rw [hp] at hwants
    simp [hwants k rfl]
  | release k p => rfl
  | act f p => rfl
  | ask q p => rfl

end State

namespace Laws

variable {L : Laws κ τ σ θ α} [DecidableEq κ] {s : State κ τ σ θ ρ α} {t : τ}

/-- The lock that a task waits for is above all that it holds. -/
theorem Valid.above (h : L.Valid s) {k : κ} (hk : (s.todo t).wants = some k) :
    L.Above (s.mode t) k := by
  have hmeets := h.meets t
  cases hp : s.todo t with
  | read j p | write j p =>
    rw [hp] at hk hmeets
    obtain rfl := Option.some.inj hk
    exact hmeets.1
  | done a | release j p | act f p | ask q p =>
    rw [hp] at hk
    cases hk

theorem Valid.free_of_isDone (h : L.Valid s) (hdone : (s.todo t).isDone = true) : Free (s.mode t) := by
  have hmeets := h.meets t
  cases hp : s.todo t with
  | done a =>
    rw [hp] at hmeets
    exact hmeets.1
  | read k p | write k p | release k p | act f p | ask q p =>
    rw [hp] at hdone
    cases hdone

/-- What a task that is done has returned. -/
theorem Valid.result (h : L.Valid s) {a : α} (ht : s.todo t = .done a) : L.result t s.data a := by
  have hmeets := h.meets t
  rw [ht] at hmeets
  exact hmeets.2

theorem Valid.free_of_isAsking (h : L.Valid s) (hasks : (s.todo t).isAsking = true) :
    Free (s.mode t) := by
  have hmeets := h.meets t
  cases hp : s.todo t with
  | ask q p =>
    rw [hp] at hmeets
    exact hmeets.1
  | done a | read k p | write k p | release k p | act f p =>
    rw [hp] at hasks
    cases hasks

/-- **Progress.** Of the tasks that neither are done nor wait for a reply, the one that waits for the
highest lock can go on, if there is none that waits for no lock. -/
theorem Valid.progress [Fintype τ] (h : L.Valid s) (ht : s.Busy t) : ∃ u, s.Busy u ∧ s.Ready u := by
  by_cases hfree : ∃ u, s.Busy u ∧ (s.todo u).wants = none
  · obtain ⟨u, hu, hnone⟩ := hfree
    refine ⟨u, hu, hu.1, fun k hk => ?_⟩
    rw [hnone] at hk
    cases hk
  · have hwants : ∀ u, s.Busy u → ∃ k, (s.todo u).wants = some k := by
      intro u hu
      cases hwanted : (s.todo u).wants with
      | none => exact absurd ⟨u, hu, hwanted⟩ hfree
      | some k => exact ⟨k, rfl⟩
    obtain ⟨u, hu, hmax⟩ := Finset.exists_max_image (Finset.univ.filter s.Busy)
      (fun u => ((s.todo u).wants.map L.rank).getD 0)
      ⟨t, Finset.mem_filter.mpr ⟨Finset.mem_univ t, ht⟩⟩
    have hu := (Finset.mem_filter.mp hu).2
    refine ⟨u, hu, hu.1, fun k hk v => ?_⟩
    by_contra hheld
    -- The holder is busy, and what it waits for is above the lock.
    have hdone : (s.todo v).isDone = false :=
      Bool.eq_false_iff.mpr fun hdone => hheld (h.free_of_isDone hdone k)
    have hasks : (s.todo v).isAsking = false :=
      Bool.eq_false_iff.mpr fun hasks => hheld (h.free_of_isAsking hasks k)
    obtain ⟨j, hj⟩ := hwants v ⟨hdone, hasks⟩
    have habove := h.above hj k hheld
    have hle := hmax v (Finset.mem_filter.mpr ⟨Finset.mem_univ v, hdone, hasks⟩)
    rw [Option.mem_def.mp hk, hj] at hle
    simp only [Option.map_some, Option.getD_some] at hle
    omega

end Laws

end Tasks
