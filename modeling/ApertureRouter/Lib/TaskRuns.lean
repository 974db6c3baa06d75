import ApertureRouter.Lib.Tasks

/-!
# What tasks cost, and what they do alone

* `Proc.Costs`: a bound on the steps and the queries of a program, whatever happens. It goes through a
  program that is made of parts (`Costs.bind`), and a run keeps to it (`Reach.spent_le`, `Reach.steps_le`).
* `Proc.Keeps`: what every action of a program keeps, and what its queries and its result are like then. It
  goes through parts as well, and if all programs keep something, every run does (`Reach.keeps`).
* `Proc.runAlone`: what a program does if nobody comes between. In a state that keeps to the laws, a task
  can do it to its end as long as the others hold no lock (`Valid.endsAlone`).
-/

namespace Tasks

variable {κ τ σ θ α β : Type} {ρ : θ → Type}

/-! ## Costs -/

namespace Proc

/-- Whatever happens, the queries of the program cost no more than `n` together, if `query` is what each
costs and `step` what any other action does. -/
inductive Costs (step : Nat) (query : θ → Nat) : Nat → Proc κ σ θ ρ α → Prop where
  | done (n : Nat) (a : α) : Costs step query n (done a)
  | read {n : Nat} (k : κ) {p : Proc κ σ θ ρ α} (h : Costs step query n p) :
    Costs step query (n + step) (read k p)
  | write {n : Nat} (k : κ) {p : Proc κ σ θ ρ α} (h : Costs step query n p) :
    Costs step query (n + step) (write k p)
  | release {n : Nat} (k : κ) {p : Proc κ σ θ ρ α} (h : Costs step query n p) :
    Costs step query (n + step) (release k p)
  | act {n : Nat} (f : σ → σ) {p : σ → Proc κ σ θ ρ α} (h : ∀ d, Costs step query n (p d)) :
    Costs step query (n + step) (act f p)
  | ask {n : Nat} (q : θ) {p : ρ q → Proc κ σ θ ρ α} (h : ∀ r, Costs step query n (p r)) :
    Costs step query (n + query q) (ask q p)

namespace Costs

variable {step m n : Nat} {query : θ → Nat} {p : Proc κ σ θ ρ α}

theorem add (h : Costs step query m p) (n : Nat) : Costs step query (m + n) p := by
  induction h with
  | done m a => exact .done _ a
  | read k _ ih =>
    rw [Nat.add_right_comm]
    exact .read k ih
  | write k _ ih =>
    rw [Nat.add_right_comm]
    exact .write k ih
  | release k _ ih =>
    rw [Nat.add_right_comm]
    exact .release k ih
  | act f _ ih =>
    rw [Nat.add_right_comm]
    exact .act f ih
  | ask q _ ih =>
    rw [Nat.add_right_comm]
    exact .ask q ih

theorem mono (h : Costs step query m p) (hmn : m ≤ n) : Costs step query n p := by
  obtain ⟨k, rfl⟩ := Nat.exists_eq_add_of_le hmn
  exact h.add k

theorem bind {f : α → Proc κ σ θ ρ β} (h : Costs step query m p)
    (hf : ∀ a, Costs step query n (f a)) : Costs step query (m + n) (p >>= f) := by
  induction h with
  | done m a => exact (hf a).mono (Nat.le_add_left n m)
  | read k _ ih =>
    rw [Nat.add_right_comm]
    exact .read k ih
  | write k _ ih =>
    rw [Nat.add_right_comm]
    exact .write k ih
  | release k _ ih =>
    rw [Nat.add_right_comm]
    exact .release k ih
  | act f _ ih =>
    rw [Nat.add_right_comm]
    exact .act f ih
  | ask q _ ih =>
    rw [Nat.add_right_comm]
    exact .ask q ih

theorem bind_le {k : Nat} {f : α → Proc κ σ θ ρ β} (h : Costs step query m p)
    (hf : ∀ a, Costs step query n (f a)) (hle : m + n ≤ k) : Costs step query k (p >>= f) :=
  (h.bind hf).mono hle

/-- A program that only asks, each query at the same cost. -/
theorem ofDialog {κ' ρ' : Type} {wrap : κ' → θ} {unwrap : ∀ q, ρ (wrap q) → ρ'} {c : Nat}
    (hquery : ∀ q, query (wrap q) = c) {dialog : Dialog κ' ρ' α} (h : dialog.AtMost n) :
    Costs step query (n * c) (Proc.ofDialog wrap unwrap dialog : Proc κ σ θ ρ α) := by
  induction h with
  | done n a => exact .done _ a
  | ask q _ ih =>
    rw [Nat.succ_mul, ← hquery q]
    exact .ask (wrap q) fun r => by rw [hquery q]; exact ih _

/-- A straight program. -/
theorem ofProgram {κ' σ' ω : Type} {lock : κ' → κ} {get : σ → σ'} {set : σ' → σ → σ}
    (program : Locks.Program κ' σ' ω) (got : Option ω) :
    Costs step query (program.length * step)
      (Proc.ofProgram lock get set got program : Proc κ σ θ ρ (Option ω)) := by
  induction program generalizing got with
  | nil => exact .done _ got
  | cons act rest ih =>
    rw [List.length_cons, Nat.succ_mul]
    cases act with
    | read k => exact .read _ (ih got)
    | write k => exact .write _ (ih got)
    | release k => exact .release _ (ih got)
    | get f => exact .act _ fun d => ih _
    | put k f => exact .act _ fun d => ih got

end Costs

/-! ## Runs alone -/

section

variable {replies : Nat → ∀ q, ρ q} {d : σ} {p : Proc κ σ θ ρ α}

/-- A program that only asks. -/
theorem runAlone_ofDialog {κ' ρ' : Type} {wrap : κ' → θ} {unwrap : ∀ q, ρ (wrap q) → ρ'}
    {replies' : Nat → ρ'} (h : ∀ n q, unwrap q (replies n (wrap q)) = replies' n)
    (dialog : Dialog κ' ρ' α) :
    (ofDialog wrap unwrap dialog : Proc κ σ θ ρ α).runAlone replies d = (d, dialog.run replies') := by
  induction dialog generalizing replies replies' with
  | done a => rfl
  | ask q k ih =>
    show (ofDialog wrap unwrap (k (unwrap q (replies 0 (wrap q))))).runAlone _ d = _
    rw [ih _ fun n => h (n + 1), h 0 q]
    rfl

/-- What follows a program goes on with the replies that are left. -/
theorem runAlone_bind (replies : Nat → ∀ q, ρ q) (d : σ) (p : Proc κ σ θ ρ α)
    (f : α → Proc κ σ θ ρ β) : ∃ rest, (p >>= f).runAlone replies d =
      (f (p.runAlone replies d).2).runAlone rest (p.runAlone replies d).1 := by
  induction p generalizing replies d with
  | done a => exact ⟨replies, rfl⟩
  | read k p ih | write k p ih | release k p ih => exact ih replies d
  | act g p ih => exact ih d replies (g d)
  | ask q p ih => exact ih (replies 0 q) _ d

/-- Something is made of what the program returns. -/
theorem runAlone_map (replies : Nat → ∀ q, ρ q) (d : σ) (p : Proc κ σ θ ρ α) (f : α → β) :
    (p >>= fun a => done (f a)).runAlone replies d =
      ((p.runAlone replies d).1, f (p.runAlone replies d).2) := by
  obtain ⟨rest, hrest⟩ := runAlone_bind replies d p fun a => (done (f a) : Proc κ σ θ ρ β)
  rw [hrest]
  rfl

/-- A program that costs nothing does not ask, if queries cost something. -/
theorem Costs.runAlone_bind {query : θ → Nat} {n : Nat} (h : Costs 0 query n p) (hn : n = 0)
    (hquery : ∀ q, 0 < query q) (f : α → Proc κ σ θ ρ β) :
    (p >>= f).runAlone replies d =
      (f (p.runAlone replies d).2).runAlone replies (p.runAlone replies d).1 := by
  induction h generalizing d with
  | done n a => rfl
  | read k _ ih | write k _ ih | release k _ ih => exact ih hn
  | act g _ ih => exact ih d hn
  | ask q _ _ =>
    have hpos := hquery q
    omega

end

end Proc

namespace State

section

variable [DecidableEq τ] {s s' : State κ τ σ θ ρ α} {t u : τ} {query : θ → Nat}

/-- The cost of what a task has asked. -/
def spent (s : State κ τ σ θ ρ α) (query : θ → Nat) (t : τ) : Nat :=
  ((s.asked.filter fun e => e.1 = t).map fun e => query e.2).sum

/-- If some queries cost one and the others nothing, their number. -/
theorem spent_eq_countP (s : State κ τ σ θ ρ α) (p : θ → Bool) (t : τ) :
    s.spent (fun q => (p q).toNat) t = s.asked.countP fun e => decide (e.1 = t) && p e.2 := by
  unfold spent
  induction s.asked with
  | nil => rfl
  | cons e asked ih =>
    rw [List.countP_cons, ← ih]
    by_cases he : e.1 = t
    · cases hp : p e.2 <;> simp [he, hp, Nat.add_comm]
    · simp [he]

theorem spent_of_asked_eq (h : s'.asked = s.asked) : s'.spent query t = s.spent query t := by
  rw [spent, h, spent]

theorem spent_of_asked_cons {q : θ} (h : s'.asked = (u, q) :: s.asked) :
    s'.spent query t = s.spent query t + if u = t then query q else 0 := by
  rw [spent, h, spent]
  by_cases hu : u = t
  · simp [hu, Nat.add_comm]
  · simp [hu]

end

variable [DecidableEq κ] [DecidableEq τ] [Fintype τ] {s s' s₀ : State κ τ σ θ ρ α} {t : τ}
  {env : σ → σ → Prop} {step n : Nat} {query : θ → Nat}

/-- What a step costs. -/
theorem costs_next {reply : ∀ q, ρ q} (hs : s.next t reply = some s')
    (h : (s.todo t).Costs step query n) : ∃ m, (s'.todo t).Costs step query m ∧
      ((s'.asked = s.asked ∧ m + step = n) ∨
        ∃ q, s'.asked = (t, q) :: s.asked ∧ m + query q = n) := by
  unfold next at hs
  cases hp : s.todo t with
  | done a =>
    rw [hp] at hs
    cases hs
  | read k p =>
    rw [hp] at hs h
    dsimp only at hs
    split at hs
    · rw [← Option.some.inj hs]
      cases h with
      | read _ h => exact ⟨_, by simpa [held, moved] using h, .inl ⟨rfl, rfl⟩⟩
    · cases hs
  | write k p =>
    rw [hp] at hs h
    dsimp only at hs
    split at hs
    · rw [← Option.some.inj hs]
      cases h with
      | write _ h => exact ⟨_, by simpa [held, moved] using h, .inl ⟨rfl, rfl⟩⟩
    · cases hs
  | release k p =>
    rw [hp] at hs h
    rw [← Option.some.inj hs]
    cases h with
    | release _ h => exact ⟨_, by simpa [held, moved] using h, .inl ⟨rfl, rfl⟩⟩
  | act f p =>
    rw [hp] at hs h
    rw [← Option.some.inj hs]
    cases h with
    | act _ h => exact ⟨_, by simpa [moved] using h s.data, .inl ⟨rfl, rfl⟩⟩
  | ask q p =>
    rw [hp] at hs h
    rw [← Option.some.inj hs]
    cases h with
    | ask _ h => exact ⟨_, by simpa [moved] using h (reply q), .inr ⟨q, rfl, rfl⟩⟩

/-- **What a task asks** in any run costs no more than its program can. -/
theorem Reach.spent_le (h : Reach env s₀ s) (hcosts : (s₀.todo t).Costs 0 query n)
    (hasked : s₀.asked = []) : s.spent query t ≤ n := by
  suffices hrest : ∃ m, (s.todo t).Costs 0 query m ∧ s.spent query t + m ≤ n by
    obtain ⟨m, -, hle⟩ := hrest
    omega
  induction h with
  | start => exact ⟨n, hcosts, by simp [spent, hasked]⟩
  | env _ _ ih => exact ih
  | @task s s' u reply _ hs ih =>
    obtain ⟨m, hm, hle⟩ := ih
    by_cases hu : t = u
    · subst hu
      obtain ⟨m', hm', ⟨hsame, hcost⟩ | ⟨q, hasks, hcost⟩⟩ := costs_next hs hm
      · refine ⟨m', hm', ?_⟩
        rw [spent_of_asked_eq hsame]
        omega
      · refine ⟨m', hm', ?_⟩
        rw [spent_of_asked_cons hasks, if_pos rfl]
        omega
    · obtain ⟨htodo, -, -, hasked⟩ := next_frame hs
      have hothers : s'.spent query t = s.spent query t := by
        rcases hasked with hsame | ⟨q, hasks⟩
        · exact spent_of_asked_eq hsame
        · rw [spent_of_asked_cons hasks, if_neg (Ne.symm hu), Nat.add_zero]
      rw [htodo, Function.update_of_ne hu, hothers]
      exact ⟨m, hm, hle⟩

/-- **The steps of a task** in any run are no more than its program can do. -/
theorem Reach.steps_le (h : Reach env s₀ s) (hcosts : (s₀.todo t).Costs 1 (fun _ => 1) n)
    (hsteps : s₀.steps t = 0) : s.steps t ≤ n := by
  suffices hrest : ∃ m, (s.todo t).Costs 1 (fun _ => 1) m ∧ s.steps t + m ≤ n by
    obtain ⟨m, -, hle⟩ := hrest
    omega
  induction h with
  | start => exact ⟨n, hcosts, by omega⟩
  | env _ _ ih => exact ih
  | @task s s' u reply _ hs ih =>
    obtain ⟨m, hm, hle⟩ := ih
    obtain ⟨htodo, -, hcount, -⟩ := next_frame hs
    by_cases hu : t = u
    · subst hu
      obtain ⟨m', hm', hcost⟩ := costs_next hs hm
      have hone : m' + 1 = m := by
        rcases hcost with ⟨-, hcost⟩ | ⟨q, -, hcost⟩
        · exact hcost
        · exact hcost
      refine ⟨m', hm', ?_⟩
      rw [hcount, Function.update_self]
      omega
    · rw [htodo, hcount, Function.update_of_ne hu, Function.update_of_ne hu]
      exact ⟨m, hm, hle⟩

end State

/-! ## What runs keep -/

namespace Proc

/-- Each action of the program keeps `I`, its queries are of `Q`, and what it returns is of `post`, as long
as the others keep `I` too. -/
def Keeps (I : σ → Prop) (Q : θ → Prop) : Proc κ σ θ ρ α → (α → Prop) → Prop
  | done a, post => post a
  | read _ p, post | write _ p, post | release _ p, post => Keeps I Q p post
  | act f p, post => ∀ d, I d → I (f d) ∧ Keeps I Q (p d) post
  | ask q p, post => Q q ∧ ∀ r, Keeps I Q (p r) post

namespace Keeps

variable {I : σ → Prop} {Q : θ → Prop} {p : Proc κ σ θ ρ α} {post : α → Prop}

theorem bind {f : α → Proc κ σ θ ρ β} {post' : β → Prop} (h : Keeps I Q p post)
    (hf : ∀ a, post a → Keeps I Q (f a) post') : Keeps I Q (p >>= f) post' := by
  induction p with
  | done a => exact hf a h
  | read k p ih | write k p ih | release k p ih => exact ih h
  | act g p ih => exact fun d hd => ⟨(h d hd).1, ih d (h d hd).2⟩
  | ask q p ih => exact ⟨h.1, fun r => ih r (h.2 r)⟩

/-- A program that only asks. -/
theorem ofDialog {κ' ρ' : Type} {wrap : κ' → θ} {unwrap : ∀ q, ρ (wrap q) → ρ'}
    {dialog : Dialog κ' ρ' α} (h : dialog.Asks fun q => Q (wrap q)) :
    Keeps I Q (Proc.ofDialog wrap unwrap dialog : Proc κ σ θ ρ α) fun _ => True := by
  induction dialog with
  | done a => trivial
  | ask q k ih => exact ⟨h.1, fun r => ih _ (h.2 _)⟩

/-- A straight program. -/
theorem ofProgram {κ' σ' ω : Type} {lock : κ' → κ} {get : σ → σ'} {set : σ' → σ → σ}
    {program : Locks.Program κ' σ' ω}
    (h : ∀ k f, Locks.Act.put k f ∈ program → ∀ got d, I d → I (set (f got (get d)) d))
    (got : Option ω) :
    Keeps I Q (Proc.ofProgram lock get set got program : Proc κ σ θ ρ (Option ω)) fun _ => True := by
  induction program generalizing got with
  | nil => trivial
  | cons act rest ih =>
    have hrest := ih fun k f hf => h k f (List.mem_cons_of_mem _ hf)
    cases act with
    | read k | write k | release k => exact hrest got
    | get f => exact fun d hd => ⟨hd, hrest _⟩
    | put k f => exact fun d hd => ⟨h k f List.mem_cons_self got d hd, hrest got⟩

end Keeps

end Proc

namespace State

variable [DecidableEq κ] [DecidableEq τ] [Fintype τ] {s s' s₀ : State κ τ σ θ ρ α} {t : τ}
  {I : σ → Prop} {Q : θ → Prop} {post : α → Prop}

/-- One step. -/
theorem keeps_next {reply : ∀ q, ρ q} (hs : s.next t reply = some s') (hI : I s.data)
    (h : (s.todo t).Keeps I Q post) :
    I s'.data ∧ (s'.todo t).Keeps I Q post ∧
      (s'.asked = s.asked ∨ ∃ q, Q q ∧ s'.asked = (t, q) :: s.asked) := by
  unfold next at hs
  cases hp : s.todo t with
  | done a =>
    rw [hp] at hs
    cases hs
  | read k p | write k p =>
    rw [hp] at hs h
    have hrest : p.Keeps I Q post := h
    dsimp only at hs
    split at hs
    · rw [← Option.some.inj hs]
      exact ⟨hI, by simpa [held, moved] using hrest, .inl rfl⟩
    · cases hs
  | release k p =>
    rw [hp] at hs h
    have hrest : p.Keeps I Q post := h
    rw [← Option.some.inj hs]
    exact ⟨hI, by simpa [held, moved] using hrest, .inl rfl⟩
  | act f p =>
    rw [hp] at hs h
    rw [← Option.some.inj hs]
    obtain ⟨hkept, hrest⟩ := h s.data hI
    exact ⟨hkept, by simpa [moved] using hrest, .inl rfl⟩
  | ask q p =>
    rw [hp] at hs h
    rw [← Option.some.inj hs]
    obtain ⟨hq, hrest⟩ := h
    exact ⟨hI, by simpa [moved] using hrest (reply q), .inr ⟨q, hq, rfl⟩⟩

/-- **What all programs keep** holds in every state of a run, and all that is asked in it is of `Q`. -/
theorem Reach.keeps {env : σ → σ → Prop} (h : Reach env s₀ s) (hI : I s₀.data)
    (hasked : s₀.asked = []) (henv : ∀ d d', env d d' → I d → I d')
    (htodo : ∀ t, (s₀.todo t).Keeps I Q post) :
    I s.data ∧ (∀ e ∈ s.asked, Q e.2) ∧ ∀ t, (s.todo t).Keeps I Q post := by
  induction h with
  | start => exact ⟨hI, by simp [hasked], htodo⟩
  | env _ hd ih => exact ⟨henv _ _ hd ih.1, ih.2⟩
  | @task s s' u reply _ hs ih =>
    obtain ⟨hdata, hqueries, hrest⟩ := ih
    obtain ⟨hdata', hkeeps, hasks⟩ := keeps_next hs hdata (hrest u)
    refine ⟨hdata', ?_, fun t => ?_⟩
    · rcases hasks with hsame | ⟨q, hq, hone⟩
      · rwa [hsame]
      · rw [hone]
        exact List.forall_mem_cons.mpr ⟨hq, hqueries⟩
    · by_cases ht : t = u
      · rw [ht]
        exact hkeeps
      · rw [(next_frame hs).1, Function.update_of_ne ht]
        exact hrest t

end State

/-! ## Tasks alone -/

namespace Laws

variable {L : Laws κ τ σ θ α} [DecidableEq κ] {s : State κ τ σ θ ρ α} {t : τ}

/-- What the task wants is free. -/
theorem Valid.free_of_wants (h : L.Valid s) (hothers : ∀ u, u ≠ t → Free (s.mode u)) {k : κ}
    (hk : (s.todo t).wants = some k) (u : τ) : s.mode u k = .free := by
  by_cases hu : u = t
  · by_contra hheld
    rw [hu] at hheld
    exact Nat.lt_irrefl _ (h.above hk k hheld)
  · exact hothers u hu k

variable [DecidableEq τ] [Fintype τ] {env : σ → σ → Prop}

/-- The task ends like this, and the others are where they were. -/
def EndsAlone (env : σ → σ → Prop) (t : τ) (s : State κ τ σ θ ρ α) (r : σ × α) : Prop :=
  ∃ s', State.Reach env s s' ∧ s'.data = r.1 ∧ s'.todo t = .done r.2 ∧
    ∀ u, u ≠ t → s'.todo u = s.todo u ∧ s'.mode u = s.mode u

/-- One step of the task. -/
theorem EndsAlone.of_next {s₁ : State κ τ σ θ ρ α} {r : σ × α} {reply : ∀ q, ρ q}
    (hs : s.next t reply = some s₁) (h : EndsAlone env t s₁ r) : EndsAlone env t s r := by
  obtain ⟨s', hreach, hdata, hdone, hothers⟩ := h
  obtain ⟨htodo, hmode, -, -⟩ := State.next_frame hs
  refine ⟨s', (State.Reach.start.task t reply hs).trans hreach, hdata, hdone, fun u hu => ?_⟩
  obtain ⟨hu₁, hu₂⟩ := hothers u hu
  rw [hu₁, hu₂, htodo, hmode, Function.update_of_ne hu, Function.update_of_ne hu]
  exact ⟨rfl, rfl⟩

/-- The others hold no lock after it either. -/
theorem free_of_next {s₁ : State κ τ σ θ ρ α} {reply : ∀ q, ρ q} (hs : s.next t reply = some s₁)
    (hothers : ∀ u, u ≠ t → Free (s.mode u)) : ∀ u, u ≠ t → Free (s₁.mode u) := by
  intro u hu
  rw [(State.next_frame hs).2.1, Function.update_of_ne hu]
  exact hothers u hu

/-- **A task alone** runs to its end, as long as the others hold no lock. -/
theorem Valid.endsAlone (h : L.Valid s) (hothers : ∀ u, u ≠ t → Free (s.mode u))
    (replies : Nat → ∀ q, ρ q) : EndsAlone env t s ((s.todo t).runAlone replies s.data) := by
  generalize hp : s.todo t = p
  induction p generalizing s replies with
  | done a => exact ⟨s, .start, rfl, hp, fun _ _ => ⟨rfl, rfl⟩⟩
  | read k p ih =>
    have hfree := h.free_of_wants hothers (k := k) (by rw [hp]; rfl)
    have hs : s.next t (replies 0) = some ((s.moved t p).held t k .reading) := by
      simp [State.next, hp, hfree]
    exact .of_next hs (ih (h.next hs) (free_of_next hs hothers) replies
      (by simp [State.held, State.moved]))
  | write k p ih =>
    have hfree := h.free_of_wants hothers (k := k) (by rw [hp]; rfl)
    have hs : s.next t (replies 0) = some ((s.moved t p).held t k .writing) := by
      simp [State.next, hp, hfree]
    exact .of_next hs (ih (h.next hs) (free_of_next hs hothers) replies
      (by simp [State.held, State.moved]))
  | release k p ih =>
    have hs : s.next t (replies 0) = some ((s.moved t p).held t k .free) := by
      simp [State.next, hp]
    exact .of_next hs (ih (h.next hs) (free_of_next hs hothers) replies
      (by simp [State.held, State.moved]))
  | act f p ih =>
    have hs : s.next t (replies 0) = some { s.moved t (p s.data) with data := f s.data } := by
      simp [State.next, hp]
    exact .of_next hs (ih s.data (h.next hs) (free_of_next hs hothers) replies
      (by simp [State.moved]))
  | ask q p ih =>
    have hs : s.next t (replies 0) =
        some { s.moved t (p (replies 0 q)) with asked := (t, q) :: s.asked } := by
      simp [State.next, hp]
    exact .of_next hs (ih (replies 0 q) (h.next hs) (free_of_next hs hothers)
      (fun n => replies (n + 1)) (by simp [State.moved]))

end Laws

end Tasks
