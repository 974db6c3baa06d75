import Mathlib.Data.List.Forall2
import ApertureRouter.Types.Wire

/-!
# Reading the typed requests

What `serde` derives to read `MessageRequest` (`src/types/anthropic.rs`) and `ChatCompletionRequest`
(`src/types/openai.rs`) from JSON. Only whether a read succeeds is kept of its errors.

* A type with a flattened map reads an object only, and keeps the fields that it does not name in
  the map. `Message` has no such map, and is also read from a list of its fields.
* An optional field may be `null`.
-/

namespace ApertureRouter

open Value (asStr asArray asBool)

/-! ## Fields -/

/-- A number read as an `f32`. -/
def Number.toF32 : Number → Float32
  | posInt n => n.toFloat32
  | negInt n => n.toFloat32
  | float bits => (Float.ofBits bits).toFloat32

def Value.asF32 : Value → Option Float32
  | number n => some n.toF32
  | _ => none

def Value.asU32 (v : Value) : Option UInt32 :=
  v.asU64.bind fun n => if n.toNat < UInt32.size then some n.toUInt32 else none

/-- A field without its `null`. -/
def nonNull : Option Value → Option Value
  | some .null => none
  | v => v

theorem eq_of_nonNull {v : Option Value} {w : Value} (h : nonNull v = some w) : v = some w := by
  unfold nonNull at h
  split at h
  · cases h
  · exact h

/-- A field that is a string is read as one. -/
theorem asStr_of_nonNull {v : Option Value} {text : String} (h : nonNull v = some (.string text)) :
    v >>= asStr = some text := by
  rw [eq_of_nonNull h]
  rfl

section

variable {α : Type} (read : Value → Option α)

/-- The elements of a list. -/
def readAll : List Value → Option (List α)
  | [] => some []
  | v :: vs => do return (← read v) :: (← readAll vs)

/-- A field that must be there. -/
def required (v : Value) (key : String) : Option α := v.get key >>= read

/-- A field of the type `Option`. -/
def optional (v : Value) (key : String) : Option (Option α) :=
  match nonNull (v.get key) with
  | none => some none
  | some w => (read w).map some

end

/-- The fields that the type does not name. -/
def otherFields (names : List String) : List (String × Value) → HashMap String Value
  | [] => ∅
  | e :: m => if e.1 ∈ names then otherFields names m else (otherFields names m).insert e.1 e.2

/-! ## The types -/

namespace Anthropic

/-- The fields that `ContentBlock` names. -/
def ContentBlock.names : List String :=
  ["type", "text", "id", "name", "input", "tool_use_id", "content", "is_error", "thinking", "source"]

def ContentBlock.fromValue : Value → Option ContentBlock
  | .object m => do
    let v := Value.object m
    return {
      type := ← required asStr v "type"
      text := ← optional asStr v "text"
      id := ← optional asStr v "id"
      name := ← optional asStr v "name"
      input := ← optional some v "input"
      toolUseId := ← optional asStr v "tool_use_id"
      content := ← optional some v "content"
      isError := ← optional asBool v "is_error"
      thinking := ← optional asStr v "thinking"
      source := ← optional some v "source"
      other := otherFields names m }
  | _ => none

/-- The first variant of `Content` that reads the value. -/
def Content.fromValue : Value → Option Content
  | .string s => some (.text s)
  | .array a => (readAll ContentBlock.fromValue a).map .blocks
  | _ => none

def Message.fromValue : Value → Option Message
  | .object m => do
    let v := Value.object m
    return { role := ← required asStr v "role", content := ← required Content.fromValue v "content" }
  | .array [role, content] => do
    return { role := ← role.asStr, content := ← Content.fromValue content }
  | _ => none

/-- The fields that `MessageRequest` names. -/
def MessageRequest.names : List String :=
  ["model", "max_tokens", "messages", "system", "tools", "tool_choice", "temperature", "stream",
    "metadata"]

def MessageRequest.fromValue : Value → Option MessageRequest
  | .object m => do
    let v := Value.object m
    return {
      model := ← required asStr v "model"
      maxTokens := ← optional Value.asU32 v "max_tokens"
      messages := ← required (fun w => w.asArray >>= readAll Message.fromValue) v "messages"
      system := ← optional some v "system"
      tools := ← optional asArray v "tools"
      toolChoice := ← optional some v "tool_choice"
      temperature := ← optional Value.asF32 v "temperature"
      stream := ← optional asBool v "stream"
      metadata := ← optional some v "metadata"
      other := otherFields names m }
  | _ => none

end Anthropic

namespace Openai

/-- The fields that `ChatMessage` names. -/
def ChatMessage.names : List String := ["role", "content", "tool_calls", "tool_call_id", "name"]

def ChatMessage.fromValue : Value → Option ChatMessage
  | .object m => do
    let v := Value.object m
    return {
      role := ← required asStr v "role"
      content := ← optional some v "content"
      toolCalls := ← optional asArray v "tool_calls"
      toolCallId := ← optional asStr v "tool_call_id"
      name := ← optional asStr v "name"
      other := otherFields names m }
  | _ => none

/-- The fields that `ChatCompletionRequest` names. -/
def ChatCompletionRequest.names : List String :=
  ["model", "messages", "stream", "max_tokens", "temperature", "tools", "tool_choice"]

def ChatCompletionRequest.fromValue : Value → Option ChatCompletionRequest
  | .object m => do
    let v := Value.object m
    return {
      model := ← required asStr v "model"
      messages := ← required (fun w => w.asArray >>= readAll ChatMessage.fromValue) v "messages"
      stream := ← optional asBool v "stream"
      maxTokens := ← optional Value.asU32 v "max_tokens"
      temperature := ← optional Value.asF32 v "temperature"
      tools := ← optional asArray v "tools"
      toolChoice := ← optional some v "tool_choice"
      other := otherFields names m }
  | _ => none

end Openai

/-! ## What was read -/

section

variable {α : Type} {read : Value → Option α} {write : α → Value} {v : Value} {key : String}

theorem required_eq_some (hwrite : ∀ w a, read w = some a → write a = w) {a : α}
    (h : required read v key = some a) : v.get key = some (write a) := by
  obtain ⟨w, hw, hread⟩ := Option.bind_eq_some_iff.mp h
  rw [hw, hwrite w a hread]

theorem optional_eq_some (hwrite : ∀ w a, read w = some a → write a = w) {a : Option α}
    (h : optional read v key = some a) : a.map write = nonNull (v.get key) := by
  unfold optional at h
  cases hv : nonNull (v.get key) with
  | none =>
    rw [hv] at h
    obtain rfl := Option.some.inj h
    rfl
  | some w =>
    rw [hv] at h
    obtain ⟨b, hb, rfl⟩ := Option.map_eq_some_iff.mp h
    exact congrArg some (hwrite w b hb)

theorem forall₂_of_readAll {vs : List Value} {as : List α} (h : readAll read vs = some as) :
    List.Forall₂ (fun v a => read v = some a) vs as := by
  induction vs generalizing as with
  | nil =>
    obtain rfl := Option.some.inj h
    exact .nil
  | cons v vs ih =>
    obtain ⟨a, ha, h⟩ := Option.bind_eq_some_iff.mp h
    obtain ⟨as', has, h⟩ := Option.bind_eq_some_iff.mp h
    obtain rfl := Option.some.inj h
    exact .cons ha (ih has)

theorem get_otherFields (names : List String) (m : List (String × Value)) (key : String) :
    (otherFields names m).get key = if key ∈ names then none else m.lookup key := by
  induction m with
  | nil =>
    rw [List.lookup_nil, ite_self]
    rfl
  | cons e m ih =>
    rw [otherFields, Value.lookup_field]
    split
    · rename_i hname
      rw [ih]
      by_cases hkey : key = e.1
      · rw [hkey, if_pos hname, if_pos hname]
      · rw [if_neg hkey]
    · rename_i hname
      rw [HashMap.get_insert, ih]
      by_cases hkey : key = e.1
      · rw [if_pos hkey, if_neg (hkey ▸ hname), if_pos hkey]
      · rw [if_neg hkey, if_neg hkey]

end

theorem string_of_asStr (w : Value) (s : String) (h : w.asStr = some s) : Value.string s = w := by
  cases w <;> cases h
  rfl

theorem bool_of_asBool (w : Value) (b : Bool) (h : w.asBool = some b) : Value.bool b = w := by
  cases w <;> cases h
  rfl

theorem array_of_asArray (w : Value) (a : List Value) (h : w.asArray = some a) :
    Value.array a = w := by
  cases w <;> cases h
  rfl

theorem number_of_asU32 (w : Value) (n : UInt32) (h : w.asU32 = some n) :
    Value.number (.posInt n.toUInt64) = w := by
  obtain ⟨k, hk, h⟩ := Option.bind_eq_some_iff.mp h
  split at h
  · rename_i hlt
    obtain rfl := Option.some.inj h
    have hback : k.toUInt32.toUInt64 = k := by
      apply UInt64.toNat_inj.mp
      rw [UInt32.toNat_toUInt64, UInt64.toNat_toUInt32]
      exact Nat.mod_eq_of_lt hlt
    rw [hback]
    unfold Value.asU64 at hk
    split at hk
    · rw [Option.some.inj hk]
    · cases hk
  · cases h

theorem id_of_some (w v : Value) (h : some w = some v) : v = w := (Option.some.inj h).symm

end ApertureRouter
