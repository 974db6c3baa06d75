import Mathlib.Data.List.Forall2

/-!
# Programs that ask

A program that asks its environment queries `κ` and goes on with the replies `ρ` (`Dialog κ ρ α`):
a client of a server, a caller of an oracle. What it asks can depend on the replies before.

* `Dialog.trace replies d`: what `d` asks if the `n`-th reply is `replies n`.
* `Dialog.Asks P d`: every query of `d` satisfies `P`, whatever the replies are (`asks_iff_trace`).
  `asks_bind` takes it through a program.
* `Dialog.run replies d`: what `d` returns with these replies.
* `Dialog.firstOk try e l`: tries the items of `l` in order up to the first success. If every try
  can fail, it can ask all that any of them can (`asks_firstOk`). If each try is one query, a run
  asks those of a shortest prefix of `l` (`firstOk_stopsAtFirst`).
* `Dialog.Related R d d'`: `d` and `d'` ask queries that `R` relates, and go on alike. So do their
  runs with the same replies (`Related.trace`).
* `Dialog.Alike S E d d'`: after replies that `S` relates, `d` and `d'` ask the same queries and return
  what `E` relates.
* `Dialog.AtMost n d`: whatever the replies are, `d` asks at most `n` queries.
-/

/-- A program that returns an `α`, or asks a query and goes on with the reply. -/
inductive Dialog (κ ρ α : Type) where
  | done (a : α)
  | ask (q : κ) (k : ρ → Dialog κ ρ α)

namespace Dialog

variable {κ ρ α β : Type}

/-- `d`, then `f` with what it returns. -/
def bind : Dialog κ ρ α → (α → Dialog κ ρ β) → Dialog κ ρ β
  | done a, f => f a
  | ask q k, f => ask q fun r => (k r).bind f

instance : Monad (Dialog κ ρ) where
  pure := done
  bind := bind

@[simp] theorem pure_eq (a : α) : (pure a : Dialog κ ρ α) = done a := rfl

@[simp] theorem done_bind (a : α) (f : α → Dialog κ ρ β) : (done a : Dialog κ ρ α) >>= f = f a := rfl

@[simp] theorem ask_bind (q : κ) (k : ρ → Dialog κ ρ α) (f : α → Dialog κ ρ β) :
    ask q k >>= f = ask q fun r => k r >>= f := rfl

/-! ## Runs -/

/-- What `d` asks if the replies are `replies`. -/
def trace : (Nat → ρ) → Dialog κ ρ α → List κ
  | _, done _ => []
  | replies, ask q k => q :: trace (fun n => replies (n + 1)) (k (replies 0))

/-- What `d` returns if the replies are `replies`. -/
def run : (Nat → ρ) → Dialog κ ρ α → α
  | _, done a => a
  | replies, ask _ k => run (fun n => replies (n + 1)) (k (replies 0))

/-- One query, and what is made of its reply. -/
def once (q : κ) (f : ρ → α) : Dialog κ ρ α := ask q fun r => done (f r)

/-- `d` can return `a`. -/
def Returns : Dialog κ ρ α → α → Prop
  | done b, a => b = a
  | ask _ k, a => ∃ r, Returns (k r) a

/-- Every query of `d` satisfies `P`, whatever the replies are. -/
def Asks (P : κ → Prop) : Dialog κ ρ α → Prop
  | done _ => True
  | ask q k => P q ∧ ∀ r, Asks P (k r)

@[simp] theorem returns_done {a b : α} : Returns (done b : Dialog κ ρ α) a ↔ b = a := Iff.rfl

@[simp] theorem returns_ask {q : κ} {k : ρ → Dialog κ ρ α} {a : α} :
    Returns (ask q k) a ↔ ∃ r, Returns (k r) a := Iff.rfl

@[simp] theorem asks_done {P : κ → Prop} {a : α} : Asks P (done a : Dialog κ ρ α) := trivial

@[simp] theorem asks_ask {P : κ → Prop} {q : κ} {k : ρ → Dialog κ ρ α} :
    Asks P (ask q k) ↔ P q ∧ ∀ r, Asks P (k r) := Iff.rfl

/-- What is done with the result without asking is no part of the trace. -/
theorem trace_bind_done {d : Dialog κ ρ α} {f : α → Dialog κ ρ β} {g : α → β}
    (h : ∀ a, f a = done (g a)) (replies : Nat → ρ) : (d >>= f).trace replies = d.trace replies := by
  induction d generalizing replies with
  | done a => rw [done_bind, h a, trace, trace]
  | ask q k ih => rw [ask_bind, trace, trace, ih]

theorem run_bind_done {d : Dialog κ ρ α} {f : α → Dialog κ ρ β} {g : α → β}
    (h : ∀ a, f a = done (g a)) (replies : Nat → ρ) : (d >>= f).run replies = g (d.run replies) := by
  induction d generalizing replies with
  | done a => rw [done_bind, h a, run, run]
  | ask q k ih => rw [ask_bind, run, run, ih]

/-- What `d >>= f` can return. -/
theorem returns_bind {d : Dialog κ ρ α} {f : α → Dialog κ ρ β} {b : β} :
    Returns (d >>= f) b ↔ ∃ a, Returns d a ∧ Returns (f a) b := by
  induction d with
  | done a => simp
  | ask q k ih =>
    simp only [ask_bind, returns_ask, ih]
    constructor
    · rintro ⟨r, a, ha, hb⟩
      exact ⟨a, ⟨r, ha⟩, hb⟩
    · rintro ⟨a, ⟨r, ha⟩, hb⟩
      exact ⟨r, a, ha, hb⟩

/-- What `d >>= f` can ask. -/
theorem asks_bind {P : κ → Prop} {d : Dialog κ ρ α} {f : α → Dialog κ ρ β} :
    Asks P (d >>= f) ↔ Asks P d ∧ ∀ a, Returns d a → Asks P (f a) := by
  induction d with
  | done a => simp
  | ask q k ih =>
    simp only [ask_bind, asks_ask, ih, returns_ask]
    constructor
    · rintro ⟨hq, h⟩
      exact ⟨⟨hq, fun r => (h r).1⟩, fun a ⟨r, ha⟩ => (h r).2 a ha⟩
    · rintro ⟨⟨hq, h⟩, hf⟩
      exact ⟨hq, fun r => ⟨h r, fun a ha => hf a ⟨r, ha⟩⟩⟩

/-- What is done with the result without asking does not matter. -/
theorem asks_bind_done {P : κ → Prop} {d : Dialog κ ρ α} {f : α → Dialog κ ρ β}
    (h : ∀ a, ∃ b, f a = done b) : Asks P (d >>= f) ↔ Asks P d := by
  rw [asks_bind]
  refine and_iff_left fun a _ => ?_
  obtain ⟨b, hb⟩ := h a
  rw [hb]
  trivial

/-- **Every run.** What holds of all queries holds of those of each run, and conversely. -/
theorem asks_iff_trace [Nonempty ρ] {P : κ → Prop} {d : Dialog κ ρ α} :
    Asks P d ↔ ∀ replies, ∀ q ∈ d.trace replies, P q := by
  induction d with
  | done a => simp [trace]
  | ask q k ih =>
    simp only [asks_ask, ih, trace, List.forall_mem_cons]
    constructor
    · exact fun h replies => ⟨h.1, h.2 _ _⟩
    · intro h
      refine ⟨(h fun _ => Classical.ofNonempty).1, fun r replies => ?_⟩
      exact (h fun n => n.casesOn r replies).2

/-! ## Trying one after the other -/

/-- Tries each of a list in order. The first success is the result, or else the last error. -/
def firstOk {π ε : Type} (try_ : π → Dialog κ ρ (Except ε α)) :
    ε → List π → Dialog κ ρ (Except ε α)
  | e, [] => done (.error e)
  | _, p :: ps => do
    match ← try_ p with
    | .ok a => done (.ok a)
    | .error e => firstOk try_ e ps

/-- The program can end in an error. -/
def CanFail {ε : Type} (d : Dialog κ ρ (Except ε α)) : Prop := ∃ e, Returns d (.error e)

/-- **Failover.** If every try can fail, what is asked can be all that any of the tries asks. -/
theorem asks_firstOk {π ε : Type} {P : κ → Prop} {try_ : π → Dialog κ ρ (Except ε α)} {e : ε}
    {ps : List π} (h : ∀ p ∈ ps, CanFail (try_ p)) :
    Asks P (firstOk try_ e ps) ↔ ∀ p ∈ ps, Asks P (try_ p) := by
  induction ps generalizing e with
  | nil => simp [firstOk]
  | cons p ps ih =>
    obtain ⟨hp, hps⟩ := List.forall_mem_cons.mp h
    rw [firstOk, asks_bind, List.forall_mem_cons]
    refine and_congr_right fun _ => ?_
    constructor
    · intro hall
      obtain ⟨e', he'⟩ := hp
      exact (ih hps).mp (hall _ he')
    · intro hall a _
      cases a with
      | ok a => trivial
      | error e' => exact (ih hps).mpr hall

/-- What no try asks is not asked, whether the tries can fail or not. -/
theorem Asks.firstOk {π ε : Type} {P : κ → Prop} {try_ : π → Dialog κ ρ (Except ε α)} {ps : List π}
    (h : ∀ p ∈ ps, Asks P (try_ p)) (e : ε) : Asks P (firstOk try_ e ps) := by
  induction ps generalizing e with
  | nil => trivial
  | cons p ps ih =>
    obtain ⟨hp, hps⟩ := List.forall_mem_cons.mp h
    refine asks_bind.mpr ⟨hp, fun r _ => ?_⟩
    cases r with
    | ok a => trivial
    | error e' => exact ih hps e'

/-- What the tries of a list make of the replies, if each is one query. -/
def outcomes {π ω : Type} (outcome : π → ρ → ω) : (Nat → ρ) → List π → List ω
  | _, [] => []
  | replies, p :: ps => outcome p (replies 0) :: outcomes outcome (fun n => replies (n + 1)) ps

theorem getElem?_outcomes {π ω : Type} {outcome : π → ρ → ω} {replies : Nat → ρ} {ps : List π}
    (i : Nat) : (outcomes outcome replies ps)[i]? = ps[i]?.map fun p => outcome p (replies i) := by
  induction ps generalizing replies i with
  | nil => rfl
  | cons p ps ih =>
    cases i with
    | zero => rfl
    | succ i =>
      rw [outcomes, List.getElem?_cons_succ, List.getElem?_cons_succ]
      exact ih i

theorem length_outcomes {π ω : Type} {outcome : π → ρ → ω} {replies : Nat → ρ} {ps : List π} :
    (outcomes outcome replies ps).length = ps.length := by
  induction ps generalizing replies with
  | nil => rfl
  | cons p ps ih => rw [outcomes, List.length_cons, List.length_cons, ih]

/-- A search that stops at the first success. It has met `count` of the outcomes; before the last of
them there are failures. The result is the last one if it is a success, or else all are met and the
result is the last failure, or `e` if there is none. -/
structure StopsAtFirst {ε : Type} (outcomes : List (Except ε α)) (e : ε) (count : Nat)
    (result : Except ε α) : Prop where
  count_le : count ≤ outcomes.length
  failed : ∀ i, i + 1 < count → ∃ e', outcomes[i]? = some (.error e')
  result : (∃ a, result = .ok a ∧ 0 < count ∧ outcomes[count - 1]? = some (.ok a)) ∨
    count = outcomes.length ∧ ∃ e', result = .error e' ∧
      outcomes.getLast?.getD (.error e) = .error e'

/-- **Failover.** If each try is one query, a run asks those of a prefix, up to the first success. -/
theorem firstOk_stopsAtFirst {π ε : Type} {query : π → κ} {outcome : π → ρ → Except ε α}
    {try_ : π → Dialog κ ρ (Except ε α)} {ps : List π}
    (h : ∀ p ∈ ps, try_ p = once (query p) (outcome p)) (e : ε) (replies : Nat → ρ) :
    ∃ count, (firstOk try_ e ps).trace replies = (ps.take count).map query ∧
      StopsAtFirst (outcomes outcome replies ps) e count ((firstOk try_ e ps).run replies) := by
  induction ps generalizing e replies with
  | nil =>
    exact ⟨0, rfl, Nat.le_refl 0, fun i hi => absurd hi (Nat.not_lt_zero _), .inr ⟨rfl, e, rfl, rfl⟩⟩
  | cons p ps ih =>
    obtain ⟨hp, hps⟩ := List.forall_mem_cons.mp h
    rw [firstOk, hp, once, ask_bind, trace, run]
    simp only [done_bind]
    cases ho : outcome p (replies 0) with
    | ok a =>
      refine ⟨1, rfl, Nat.succ_le_succ (Nat.zero_le _), fun i hi => absurd hi (by omega), .inl ?_⟩
      exact ⟨a, rfl, Nat.zero_lt_one, by rw [outcomes, ho]; rfl⟩
    | error e' =>
      obtain ⟨count, htrace, hstops⟩ := ih hps e' fun n => replies (n + 1)
      refine ⟨count + 1, by rw [htrace]; rfl, Nat.succ_le_succ hstops.count_le, fun i hi => ?_, ?_⟩
      · cases i with
        | zero => exact ⟨e', by rw [outcomes, ho]; rfl⟩
        | succ i => exact hstops.failed i (by omega)
      · rcases hstops.result with ⟨a, hresult, hpos, hlast⟩ | ⟨hcount, e'', hresult, hlast⟩
        · refine .inl ⟨a, hresult, Nat.succ_pos _, ?_⟩
          obtain ⟨count, rfl⟩ := Nat.exists_eq_add_of_lt hpos
          rw [outcomes, Nat.zero_add, Nat.add_sub_cancel, List.getElem?_cons_succ]
          rwa [Nat.zero_add, Nat.add_sub_cancel] at hlast
        · refine .inr ⟨congrArg (· + 1) hcount, e'', hresult, ?_⟩
          rw [outcomes, ho, List.getLast?_cons, Option.getD_some]
          exact hlast

/-! ## Two programs side by side -/

/-- The two programs ask queries that `R` relates, and go on alike with the same reply. -/
inductive Related (R : κ → κ → Prop) : Dialog κ ρ α → Dialog κ ρ α → Prop where
  | done (a : α) : Related R (done a) (done a)
  | ask {q q' : κ} {k k' : ρ → Dialog κ ρ α} (hq : R q q') (hk : ∀ r, Related R (k r) (k' r)) :
      Related R (ask q k) (ask q' k')

namespace Related

variable {R : κ → κ → Prop}

theorem bind {d d' : Dialog κ ρ α} {f f' : α → Dialog κ ρ β} (h : Related R d d')
    (hf : ∀ a, Related R (f a) (f' a)) : Related R (d >>= f) (d' >>= f') := by
  induction h with
  | done a => exact hf a
  | ask hq _ ih => exact .ask hq ih

/-- What is done with the result without asking is the same. -/
theorem bind_done {d d' : Dialog κ ρ α} {f : α → Dialog κ ρ β} (h : Related R d d')
    (hf : ∀ a, ∃ b, f a = Dialog.done b) : Related R (d >>= f) (d' >>= f) :=
  h.bind fun a => by
    obtain ⟨b, hb⟩ := hf a
    rw [hb]
    exact .done b

/-- **Failover.** The tries are related one by one. -/
theorem firstOk {π π' ε : Type} {try_ : π → Dialog κ ρ (Except ε α)}
    {try_' : π' → Dialog κ ρ (Except ε α)} {g : π → π'} {ps : List π}
    (h : ∀ p ∈ ps, Related R (try_ p) (try_' (g p))) (e : ε) :
    Related R (Dialog.firstOk try_ e ps) (Dialog.firstOk try_' e (ps.map g)) := by
  induction ps generalizing e with
  | nil => exact .done _
  | cons p ps ih =>
    obtain ⟨hp, hps⟩ := List.forall_mem_cons.mp h
    refine hp.bind fun r => ?_
    cases r with
    | ok a => exact .done _
    | error e' => exact ih hps e'

/-- **Two runs.** With the same replies, the programs ask one related query after the other. -/
theorem trace {d d' : Dialog κ ρ α} (h : Related R d d') (replies : Nat → ρ) :
    List.Forall₂ R (d.trace replies) (d'.trace replies) := by
  induction h generalizing replies with
  | done a => exact .nil
  | ask hq _ ih => exact .cons hq (ih _ _)

end Related

/-! ## One program, replies that differ -/

/-- The two programs ask the same queries after replies that `S` relates, and return what `E`
relates. -/
inductive Alike (S : ρ → ρ → Prop) (E : α → β → Prop) : Dialog κ ρ α → Dialog κ ρ β → Prop where
  | done {a : α} {b : β} (h : E a b) : Alike S E (done a) (done b)
  | ask (q : κ) {k : ρ → Dialog κ ρ α} {k' : ρ → Dialog κ ρ β}
      (hk : ∀ r r', S r r' → Alike S E (k r) (k' r')) : Alike S E (ask q k) (ask q k')

/-- The two results are the same failure, or successes that `E` relates. -/
inductive SameOutcome {ε : Type} (E : α → β → Prop) : Except ε α → Except ε β → Prop where
  | ok {a : α} {b : β} (h : E a b) : SameOutcome E (.ok a) (.ok b)
  | error (e : ε) : SameOutcome E (.error e) (.error e)

namespace Alike

variable {S : ρ → ρ → Prop} {E : α → β → Prop}

theorem bind {γ δ : Type} {F : γ → δ → Prop} {d : Dialog κ ρ α} {d' : Dialog κ ρ β}
    {f : α → Dialog κ ρ γ} {f' : β → Dialog κ ρ δ} (h : Alike S E d d')
    (hf : ∀ a b, E a b → Alike S F (f a) (f' b)) : Alike S F (d >>= f) (d' >>= f') := by
  induction h with
  | done h => exact hf _ _ h
  | ask q _ ih => exact .ask q ih

theorem mono {F : α → β → Prop} (hEF : ∀ a b, E a b → F a b) {d : Dialog κ ρ α} {d' : Dialog κ ρ β}
    (h : Alike S E d d') : Alike S F d d' := by
  induction h with
  | done h => exact .done (hEF _ _ h)
  | ask q _ ih => exact .ask q ih

/-- **Failover.** The tries are alike one by one. -/
theorem firstOk {π ε : Type} {try_ : π → Dialog κ ρ (Except ε α)}
    {try_' : π → Dialog κ ρ (Except ε β)} {ps : List π}
    (h : ∀ p ∈ ps, Alike S (SameOutcome E) (try_ p) (try_' p)) (e : ε) :
    Alike S (SameOutcome E) (Dialog.firstOk try_ e ps) (Dialog.firstOk try_' e ps) := by
  induction ps generalizing e with
  | nil => exact .done (.error e)
  | cons p ps ih =>
    obtain ⟨hp, hps⟩ := List.forall_mem_cons.mp h
    refine hp.bind fun a b hab => ?_
    cases hab with
    | ok hab => exact .done (.ok hab)
    | error e' => exact ih hps e'

/-- **Two runs** ask the same. -/
theorem trace {d : Dialog κ ρ α} {d' : Dialog κ ρ β} (h : Alike S E d d') {replies replies' : Nat → ρ}
    (hs : ∀ n, S (replies n) (replies' n)) : d.trace replies = d'.trace replies' := by
  induction h generalizing replies replies' with
  | done h => rfl
  | ask q _ ih => exact congrArg (q :: ·) (ih _ _ (hs 0) fun n => hs (n + 1))

/-- **Two runs** return what is related. -/
theorem run {d : Dialog κ ρ α} {d' : Dialog κ ρ β} (h : Alike S E d d') {replies replies' : Nat → ρ}
    (hs : ∀ n, S (replies n) (replies' n)) : E (d.run replies) (d'.run replies') := by
  induction h generalizing replies replies' with
  | done h => exact h
  | ask q _ ih => exact ih _ _ (hs 0) fun n => hs (n + 1)

end Alike

/-! ## How much is asked -/

/-- Whatever the replies are, at most `n` queries are asked. -/
inductive AtMost : Nat → Dialog κ ρ α → Prop where
  | done (n : Nat) (a : α) : AtMost n (done a)
  | ask {n : Nat} (q : κ) {k : ρ → Dialog κ ρ α} (hk : ∀ r, AtMost n (k r)) : AtMost (n + 1) (ask q k)

namespace AtMost

variable {m n : Nat}

theorem mono {d : Dialog κ ρ α} (h : AtMost m d) (hmn : m ≤ n) : AtMost n d := by
  induction h generalizing n with
  | done m a => exact .done n a
  | ask q _ ih =>
    obtain ⟨n, rfl⟩ := Nat.exists_eq_add_of_lt hmn
    exact .ask q fun r => ih r (Nat.le_add_right _ _)

theorem bind {d : Dialog κ ρ α} {f : α → Dialog κ ρ β} (h : AtMost m d) (hf : ∀ a, AtMost n (f a)) :
    AtMost (m + n) (d >>= f) := by
  induction h with
  | done m a => exact (hf a).mono (Nat.le_add_left n m)
  | ask q _ ih =>
    rw [Nat.succ_add]
    exact .ask q ih

/-- What is done with the result without asking does not count. -/
theorem bind_done {d : Dialog κ ρ α} {f : α → Dialog κ ρ β} (h : AtMost n d)
    (hf : ∀ a, ∃ b, f a = Dialog.done b) : AtMost n (d >>= f) :=
  h.bind (n := 0) fun a => by
    obtain ⟨b, hb⟩ := hf a
    rw [hb]
    exact .done 0 b

theorem once (q : κ) (f : ρ → α) : AtMost 1 (Dialog.once q f) := .ask q fun r => .done 0 (f r)

theorem length_trace {d : Dialog κ ρ α} (h : AtMost n d) (replies : Nat → ρ) :
    (d.trace replies).length ≤ n := by
  induction h generalizing replies with
  | done n a => exact Nat.zero_le n
  | ask q _ ih => exact Nat.succ_le_succ (ih _ _)

/-- **Failover.** -/
theorem firstOk {π ε : Type} {try_ : π → Dialog κ ρ (Except ε α)} {ps : List π}
    (h : ∀ p ∈ ps, AtMost n (try_ p)) (e : ε) :
    AtMost (ps.length * n) (Dialog.firstOk try_ e ps) := by
  induction ps generalizing e with
  | nil => exact .done _ _
  | cons p ps ih =>
    obtain ⟨hp, hps⟩ := List.forall_mem_cons.mp h
    rw [List.length_cons, Nat.succ_mul, Nat.add_comm]
    refine hp.bind fun r => ?_
    cases r with
    | ok a => exact .done _ _
    | error e' => exact ih hps e'

end AtMost

end Dialog
