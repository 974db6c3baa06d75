import Mathlib.Data.Fintype.Defs
import Mathlib.Logic.Function.Basic

/-!
# Tasks that share data under read-write locks

A task is a list of actions: it takes a lock to read or to write, takes a value out of the data,
changes the data of a lock that it holds, and releases a lock. One action is one step, and any task
that can do its next action may be the one to go on.

* `State.step`: a step of a task. A lock that another task holds stops it.
* `Run`: the runs in which every step meets a condition.
* `Always`: what holds at every point of a program, from what it holds and has still to do.
  `Always.step`: it goes on to hold.
* `Guarded.lastPut_eq`: nothing changes what is being read.

For the statements about a run, a state also remembers who changed the data of a lock last
(`lastPut`), and what this was when a task took its value (`seen`).
-/

namespace Locks

/-- How a task holds a lock. -/
inductive Mode where
  | free
  | reading
  | writing
  deriving DecidableEq, Repr

variable {κ τ σ ω : Type}

/-- An action on the data `σ` with the locks `κ`, of a task that takes a value `ω`. -/
inductive Act (κ σ ω : Type) where
  | read (k : κ)
  | write (k : κ)
  | get (f : σ → ω)
  | put (k : κ) (f : Option ω → σ → σ)
  | release (k : κ)

abbrev Program (κ σ ω : Type) := List (Act κ σ ω)

/-- The action changes the data of the lock. -/
def Act.puts [DecidableEq κ] (k : κ) : Act κ σ ω → Bool
  | put j _ => j = k
  | _ => false

/-- The action takes a value. -/
def Act.gets : Act κ σ ω → Bool
  | get _ => true
  | _ => false

/-- What a task holds after an action. -/
def Act.effect [DecidableEq κ] (mode : κ → Mode) : Act κ σ ω → κ → Mode
  | read k => Function.update mode k .reading
  | write k => Function.update mode k .writing
  | release k => Function.update mode k .free
  | get _ | put _ _ => mode

/-- The data and the tasks `τ`. -/
structure State (κ τ σ ω : Type) where
  data : σ
  todo : τ → Program κ σ ω
  mode : τ → κ → Mode := fun _ _ => .free
  got : τ → Option ω := fun _ => none
  lastPut : κ → Option τ := fun _ => none
  seen : τ → κ → Option τ := fun _ _ => none

namespace State

section

variable [DecidableEq κ] [DecidableEq τ]

/-- The lock of the action is not held against it. -/
def Enabled (s : State κ τ σ ω) : Act κ σ ω → Prop
  | .read k => ∀ u, s.mode u k ≠ .writing
  | .write k => ∀ u, s.mode u k = .free
  | _ => True

instance [Fintype τ] (s : State κ τ σ ω) (act : Act κ σ ω) : Decidable (s.Enabled act) := by
  cases act <;> unfold Enabled <;> infer_instance

/-- The state after an action of the task `t`, which is left with `rest`. -/
def next (s : State κ τ σ ω) (t : τ) (rest : Program κ σ ω) (act : Act κ σ ω) : State κ τ σ ω :=
  let s := { s with
    todo := Function.update s.todo t rest
    mode := Function.update s.mode t (act.effect (s.mode t)) }
  match act with
  | .get f => { s with
      got := Function.update s.got t (some (f s.data))
      seen := Function.update s.seen t s.lastPut }
  | .put k f => { s with
      data := f (s.got t) s.data
      lastPut := Function.update s.lastPut k (some t) }
  | _ => s

/-- A step of the task `t`. -/
def step [Fintype τ] (t : τ) (s : State κ τ σ ω) : Option (State κ τ σ ω) :=
  match s.todo t with
  | [] => none
  | act :: rest => if s.Enabled act then some (s.next t rest act) else none

theorem step_cases [Fintype τ] {s s' : State κ τ σ ω} {t : τ} (h : s.step t = some s') :
    ∃ act rest, s.todo t = act :: rest ∧ s.Enabled act ∧ s' = s.next t rest act := by
  unfold step at h
  split at h
  · cases h
  · rename_i act rest htodo
    split at h
    · rename_i henabled
      exact ⟨act, rest, htodo, henabled, (Option.some.inj h).symm⟩
    · cases h

@[simp] theorem next_todo (s : State κ τ σ ω) (t : τ) (rest : Program κ σ ω) (act : Act κ σ ω) :
    (s.next t rest act).todo = Function.update s.todo t rest := by
  cases act <;> rfl

@[simp] theorem next_mode (s : State κ τ σ ω) (t : τ) (rest : Program κ σ ω) (act : Act κ σ ω) :
    (s.next t rest act).mode = Function.update s.mode t (act.effect (s.mode t)) := by
  cases act <;> rfl

/-! ## Runs -/

variable [Fintype τ]

/-- A run from `s₀` in which every step meets the condition `good`. -/
inductive Run (good : τ → State κ τ σ ω → Prop) (s₀ : State κ τ σ ω) : State κ τ σ ω → Prop
  | start : Run good s₀ s₀
  | step {s s' : State κ τ σ ω} (t : τ) : Run good s₀ s → good t s → s.step t = some s' →
      Run good s₀ s'

variable {good : τ → State κ τ σ ω → Prop} {s₀ s s' : State κ τ σ ω} {t : τ}

/-- What holds at first and is kept by the steps that meet the condition holds all along. -/
theorem Run.invariant {I : State κ τ σ ω → Prop} (hstart : I s₀)
    (hstep : ∀ t s s', I s → good t s → s.step t = some s' → I s') (h : Run good s₀ s) : I s := by
  induction h with
  | start => exact hstart
  | step t _ hgood hs ih => exact hstep t _ _ ih hgood hs

/-- The run of a schedule. -/
def runAll (s₀ : State κ τ σ ω) (schedule : List τ) : Option (State κ τ σ ω) :=
  schedule.foldlM (fun s t => s.step t) s₀

/-- The condition holds at every step of the schedule. -/
def GoodAll (good : τ → State κ τ σ ω → Prop) : State κ τ σ ω → List τ → Prop
  | _, [] => True
  | s, t :: schedule => good t s ∧ ∀ s' ∈ s.step t, GoodAll good s' schedule

instance [∀ t s, Decidable (good t s)] :
    ∀ (s : State κ τ σ ω) (schedule : List τ), Decidable (GoodAll good s schedule)
  | _, [] => .isTrue trivial
  | s, t :: schedule => by
    have : ∀ s', Decidable (GoodAll good s' schedule) := fun s' => instDecidableGoodAll s' schedule
    unfold GoodAll
    infer_instance

theorem Run.of_schedule {schedule : List τ} (h : s₀.runAll schedule = some s)
    (hgood : GoodAll good s₀ schedule) : Run good s₀ s := by
  suffices hrest : ∀ schedule s₁, Run good s₀ s₁ → s₁.runAll schedule = some s →
      GoodAll good s₁ schedule → Run good s₀ s from hrest schedule s₀ .start h hgood
  intro schedule
  induction schedule with
  | nil =>
    intro s₁ hs₁ h _
    obtain rfl := Option.some.inj h
    exact hs₁
  | cons t schedule ih =>
    intro s₁ hs₁ h hgood
    rw [runAll, List.foldlM_cons] at h
    obtain ⟨s₂, hs₂, h⟩ := Option.bind_eq_some_iff.mp h
    exact ih s₂ (.step t hs₁ hgood.1 hs₂) h (hgood.2 s₂ hs₂)

end

/-! ## Points of a program -/

/-- `Q` holds at every point of the program that a task in `mode` has still to do. -/
def Always [DecidableEq κ] (Q : (κ → Mode) → Program κ σ ω → Prop) :
    (κ → Mode) → Program κ σ ω → Prop
  | mode, [] => Q mode []
  | mode, act :: rest => Q mode (act :: rest) ∧ Always Q (act.effect mode) rest

section

variable [DecidableEq κ] [DecidableEq τ] [Fintype τ] {s s' : State κ τ σ ω} {t : τ}

theorem Always.now {Q : (κ → Mode) → Program κ σ ω → Prop} {mode : κ → Mode}
    {p : Program κ σ ω} (h : Always Q mode p) : Q mode p := by
  cases p with
  | nil => exact h
  | cons act rest => exact h.1

/-- A step goes on to the next point. -/
theorem Always.step {Q : τ → (κ → Mode) → Program κ σ ω → Prop}
    (h : ∀ u, Always (Q u) (s.mode u) (s.todo u)) (hs : s.step t = some s') :
    ∀ u, Always (Q u) (s'.mode u) (s'.todo u) := by
  obtain ⟨act, rest, htodo, -, rfl⟩ := step_cases hs
  intro u
  rw [next_mode, next_todo]
  by_cases hu : u = t
  · subst hu
    have hpoint := h u
    rw [htodo] at hpoint
    rw [Function.update_self, Function.update_self]
    exact hpoint.2
  · rw [Function.update_of_ne hu, Function.update_of_ne hu]
    exact h u

omit [Fintype τ] in
theorem update_mode (mode : τ → κ → Mode) (j k : κ) (x : Mode) (v : τ) :
    Function.update mode t (Function.update (mode t) j x) v k =
      if k = j ∧ v = t then x else mode v k := by
  by_cases hv : v = t
  · subst hv
    by_cases hk : k = j
    · subst hk
      simp
    · simp [hk]
  · simp [hv]

/-- A lock that is written is held by nobody else. -/
def Exclusive (s : State κ τ σ ω) : Prop :=
  ∀ t k, s.mode t k = .writing → ∀ u, u ≠ t → s.mode u k = .free

theorem Exclusive.step (h : s.Exclusive) (hs : s.step t = some s') : s'.Exclusive := by
  obtain ⟨act, rest, -, henabled, rfl⟩ := step_cases hs
  intro w k hw u hu
  rw [next_mode] at hw ⊢
  cases act with
  | get f | put j f =>
    simp only [Act.effect, Function.update_eq_self] at hw ⊢
    exact h w k hw u hu
  | read j =>
    simp only [Act.effect, update_mode] at hw ⊢
    split at hw
    · cases hw
    · rename_i hne
      have hk : k ≠ j := by
        rintro rfl
        exact henabled w hw
      rw [if_neg fun e => hk e.1]
      exact h w k hw u hu
  | write j =>
    simp only [Act.effect, update_mode] at hw ⊢
    split at hw
    · rename_i hwt
      rw [if_neg fun e => hu (e.2.trans hwt.2.symm), hwt.1]
      exact henabled u
    · have hk : k ≠ j := by
        rintro rfl
        rw [henabled w] at hw
        cases hw
      rw [if_neg fun e => hk e.1]
      exact h w k hw u hu
  | release j =>
    simp only [Act.effect, update_mode] at hw ⊢
    split at hw
    · cases hw
    · split
      · rfl
      · exact h w k hw u hu

/-- The tasks write what they hold to write, and nobody else holds it. -/
structure Guarded (s : State κ τ σ ω) : Prop where
  exclusive : s.Exclusive
  putHeld : ∀ t k f rest, s.todo t = .put k f :: rest → s.mode t k = .writing

/-- Nothing changes what is being read. -/
theorem Guarded.lastPut_eq (h : s.Guarded) (hs : s.step t = some s') {u : τ} {k : κ}
    (hu : s.mode u k = .reading) : s'.lastPut k = s.lastPut k := by
  obtain ⟨act, rest, htodo, -, rfl⟩ := step_cases hs
  cases act with
  | put j f =>
    have hj : k ≠ j := by
      rintro rfl
      have hput := h.putHeld t k f rest htodo
      by_cases hut : u = t
      · rw [hut, hput] at hu
        cases hu
      · rw [h.exclusive t k hput u hut] at hu
        cases hu
    exact Function.update_of_ne hj ..
  | _ => rfl

end

end State

end Locks
