/-!
# JSON values

`serde_json::Value` and the accessors that the router reads it with. An object is its fields; a
list of fields stands for the map, so equality of two values here is finer than `serde_json`'s,
which does not see the order of the fields.

The parser and the printer are `serde_json`'s own: `Serde` has one function for each, and a
theorem that depends on what they do says so in a hypothesis.
-/

namespace ApertureRouter

/-- `serde_json::Number`: an unsigned or a negative integer of 64 bits, or a float (its bits). -/
inductive Number where
  | posInt (n : UInt64)
  | negInt (n : Int64)
  | float (bits : UInt64)
  deriving DecidableEq, Repr

/-- `serde_json::Value`. -/
inductive Value where
  | null
  | bool (b : Bool)
  | number (n : Number)
  | string (s : String)
  | array (a : List Value)
  | object (m : List (String × Value))
  deriving Repr

namespace Value

/-- `Value::get` with a string key: the field of an object. -/
def get : Value → String → Option Value
  | object m, key => m.lookup key
  | _, _ => none

def asStr : Value → Option String
  | string s => some s
  | _ => none

def asArray : Value → Option (List Value)
  | array a => some a
  | _ => none

def asBool : Value → Option Bool
  | bool b => some b
  | _ => none

/-- `Value::as_u64`: only an integer that is not negative. -/
def asU64 : Value → Option UInt64
  | number (.posInt n) => some n
  | _ => none

/-- Sets a field of a list of fields, in place if it is there. -/
def setField (key : String) (v : Value) : List (String × Value) → List (String × Value)
  | [] => [(key, v)]
  | (k, w) :: m => if k = key then (k, v) :: m else (k, w) :: setField key v m

/-- `value[key] = v`: the index of a JSON object (`null` becomes one). -/
def set (value : Value) (key : String) (v : Value) : Value :=
  match value with
  | object m => object (setField key v m)
  | null => object [(key, v)]
  | other => other

/-- `Map::remove` on an object. -/
def remove (value : Value) (key : String) : Value :=
  match value with
  | object m => object (m.filter fun e => e.1 != key)
  | other => other

@[simp] theorem get_object (m : List (String × Value)) (key : String) :
    (object m).get key = m.lookup key := rfl

@[simp] theorem asStr_string (s : String) : (string s).asStr = some s := rfl

@[simp] theorem asArray_array (a : List Value) : (array a).asArray = some a := rfl

/-- `List.lookup` at a first field. -/
theorem lookup_field (key k : String) (v : Value) (m : List (String × Value)) :
    ((k, v) :: m).lookup key = if key = k then some v else m.lookup key := by
  by_cases h : key = k
  · simp [h]
  · simp [List.lookup_cons, h, beq_eq_false_iff_ne.mpr h]

theorem lookup_setField (key key' : String) (v : Value) (m : List (String × Value)) :
    (setField key v m).lookup key' = if key' = key then some v else m.lookup key' := by
  induction m with
  | nil => rw [setField, lookup_field]
  | cons e m ih =>
    obtain ⟨k, w⟩ := e
    by_cases hk : k = key
    · subst hk
      rw [setField, if_pos rfl, lookup_field, lookup_field]
      split <;> rfl
    · rw [setField, if_neg hk, lookup_field, lookup_field, ih]
      by_cases h : key' = k
      · rw [if_pos h, if_pos h, if_neg fun e => hk (h.symm.trans e)]
      · rw [if_neg h, if_neg h]

theorem get_set (m : List (String × Value)) (key key' : String) (v : Value) :
    ((object m).set key v).get key' = if key' = key then some v else (object m).get key' :=
  lookup_setField key key' v m

/-- A value with a field is an object. -/
theorem get_set_of_get {v w x : Value} {key : String} (h : v.get key = some w)
    (key' key'' : String) :
    (v.set key' x).get key'' = if key'' = key' then some x else v.get key'' := by
  cases v with
  | object m => exact get_set m key' key'' x
  | _ => cases h

theorem lookup_filter_ne {key key' : String} (h : key' ≠ key) (m : List (String × Value)) :
    (m.filter fun e => e.1 != key).lookup key' = m.lookup key' := by
  induction m with
  | nil => rfl
  | cons e m ih =>
    obtain ⟨k, w⟩ := e
    by_cases hk : k = key
    · rw [List.filter_cons_of_neg (by simp [hk]), ih, lookup_field, if_neg (hk ▸ h)]
    · rw [List.filter_cons_of_pos (by simp [hk]), lookup_field, lookup_field, ih]

theorem get_remove {key key' : String} (h : key' ≠ key) (m : List (String × Value)) :
    ((object m).remove key).get key' = (object m).get key' :=
  lookup_filter_ne h m

theorem get_remove_of_ne {key key' : String} (h : key' ≠ key) (v : Value) :
    (v.remove key).get key' = v.get key' := by
  cases v with
  | object m => exact get_remove h m
  | _ => rfl

theorem get_remove_self (v : Value) (key : String) : (v.remove key).get key = none := by
  cases v with
  | object m =>
    rw [remove, get_object, List.lookup_eq_none_iff]
    intro e he
    rw [bne_comm]
    exact (List.mem_filter.mp he).2
  | _ => rfl

end Value

/-- The functions of `serde_json` between text and values. -/
structure Serde where
  /-- `serde_json::from_str::<Value>(s).ok()`. -/
  fromStr : String → Option Value
  /-- `serde_json::to_string(&value)`, which does not fail on a `Value`. -/
  toString : Value → String

/-- `serde_json` on a few texts. -/
def tableSerde (table : List (String × Value)) : Serde where
  fromStr s := table.lookup s
  toString _ := "null"

end ApertureRouter
