import Mathlib.Logic.Function.Basic

/-!
# Files

What is at each path (`Files π γ`), and the operations on it. An operation can fail for a reason of its
environment, which is an argument (`fault`); then nothing has changed, but for `writeAll`.

* `createNew`, `writeAll`, `rename`, `remove`.
* `rename_written`, `remove_created`: what is left of a file that was written and moved, or taken back.
-/

/-- The content of each file. -/
abbrev Files (π γ : Type) := π → Option γ

namespace Files

variable {π γ ε : Type} [DecidableEq π]

/-- Fails with the reason of the environment, if there is one. -/
def unlessFault (fault : Option ε) (files : Files π γ) : Except ε (Files π γ) :=
  match fault with
  | some e => .error e
  | none => .ok files

/-- An empty file where there was none. -/
def createNew (empty : γ) (exists_ : ε) (path : π) (fault : Option ε) (files : Files π γ) :
    Except ε (Files π γ) :=
  if (files path).isSome then .error exists_
  else unlessFault fault (Function.update files path (some empty))

/-- The content of a file. A fault leaves a part of it. -/
def writeAll (path : π) (content : γ) (fault : Option (γ × ε)) (files : Files π γ) :
    Files π γ × Except ε Unit :=
  match fault with
  | some (part, e) => (Function.update files path (some part), .error e)
  | none => (Function.update files path (some content), .ok ())

/-- A file at another path. What was there is gone. -/
def rename (missing : ε) (source target : π) (fault : Option ε) (files : Files π γ) :
    Except ε (Files π γ) :=
  match files source with
  | none => .error missing
  | some content =>
    unlessFault fault (Function.update (Function.update files source none) target (some content))

/-- Takes a file away, unless it fails. -/
def remove (path : π) (fails : Bool) (files : Files π γ) : Files π γ :=
  if fails then files else Function.update files path none

theorem createNew_ok_iff {empty : γ} {exists_ : ε} {path : π} {fault : Option ε}
    {files files' : Files π γ} : createNew empty exists_ path fault files = .ok files' ↔
      files path = none ∧ fault = none ∧ Function.update files path (some empty) = files' := by
  unfold createNew unlessFault
  cases hfile : files path <;> cases fault <;> simp

/-- A file that was written under a path of its own. -/
theorem rename_written {missing : ε} {source target : π} {content : γ} {files : Files π γ}
    (hfree : files source = none) :
    rename missing source target none (Function.update files source (some content)) =
      .ok (Function.update files target (some content)) := by
  unfold rename unlessFault
  simp only [Function.update_self, Function.update_idem]
  rw [← hfree, Function.update_eq_self]

/-- A new file that is taken back. -/
theorem remove_created {path : π} {content : Option γ} {files : Files π γ}
    (hfree : files path = none) :
    remove path false (Function.update files path content) = files := by
  unfold remove
  simp only [Bool.false_eq_true, if_false, Function.update_idem]
  rw [← hfree, Function.update_eq_self]

end Files
