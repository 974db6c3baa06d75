import Mathlib.Algebra.GroupWithZero.Nat
import Mathlib.Data.List.AList

/-!
# Hash maps

A hash map is its entries, with no key twice (`AList`). Two things a hash map leaves open are
left open here:

* **Iteration order.** `IterOrder` is any order of the entries; a program that iterates takes one
  as an argument, and its theorems hold for all.
* **Capacity and hashing** do not exist: `insert` always succeeds.

The lemmas say what each operation does to `get` and to membership, so a proof about a program
that uses a map does not look at the entries.
-/

/-- A map from keys `κ` to values `ν`. -/
abbrev HashMap (κ ν : Type) : Type := AList fun _ : κ => ν

namespace HashMap

variable {κ ν : Type} [DecidableEq κ]

/-- The value at `k`. -/
def get (m : HashMap κ ν) (k : κ) : Option ν := m.lookup k

/-- Puts `v` at `k`. -/
def insert (m : HashMap κ ν) (k : κ) (v : ν) : HashMap κ ν := AList.insert k v m

/-- Puts in each of `l`, one after the other. -/
def insertAll (m : HashMap κ ν) (l : List (κ × ν)) : HashMap κ ν :=
  l.foldl (fun m e => m.insert e.1 e.2) m

/-- The values, in the order of the entries. -/
def values (m : HashMap κ ν) : List ν := m.entries.map Sigma.snd

/-- Takes `k` out. -/
def remove (m : HashMap κ ν) (k : κ) : HashMap κ ν := AList.erase k m

/-- The number of entries. -/
def len (m : HashMap κ ν) : Nat := m.entries.length

/-- Puts `f v` in the place of each value `v`. -/
def mapValues (f : ν → ν) (m : HashMap κ ν) : HashMap κ ν where
  entries := m.entries.map fun e => ⟨e.1, f e.2⟩
  nodupKeys := by
    have h := m.nodupKeys
    rw [List.NodupKeys, List.keys] at h ⊢
    rwa [List.map_map]

/-- Keeps the entries that `p` holds of. -/
def retain (p : κ → ν → Bool) (m : HashMap κ ν) : HashMap κ ν :=
  ⟨m.entries.filter fun e => p e.1 e.2, m.nodupKeys.sublist List.filter_sublist⟩

theorem mem_entries {m : HashMap κ ν} {k : κ} {v : ν} : ⟨k, v⟩ ∈ m.entries ↔ m.get k = some v :=
  AList.mem_lookup_iff.symm

theorem mem_iff_get {m : HashMap κ ν} {k : κ} : k ∈ m ↔ ∃ v, m.get k = some v := by
  rw [← AList.lookup_isSome, Option.isSome_iff_exists]
  rfl

theorem get_eq_none {m : HashMap κ ν} {k : κ} : m.get k = none ↔ k ∉ m := AList.lookup_eq_none

@[simp] theorem get_empty (k : κ) : get (∅ : HashMap κ ν) k = none := rfl

theorem get_insert (m : HashMap κ ν) (k k' : κ) (v : ν) :
    (m.insert k v).get k' = if k' = k then some v else m.get k' := by
  unfold insert get
  by_cases h : k' = k
  · subst h; simp
  · simp [h, AList.lookup_insert_ne]

theorem mem_insert {m : HashMap κ ν} {k k' : κ} {v : ν} : k' ∈ m.insert k v ↔ k' = k ∨ k' ∈ m :=
  AList.mem_insert m

theorem mem_insertAll {l : List (κ × ν)} {m : HashMap κ ν} {k : κ} :
    k ∈ m.insertAll l ↔ k ∈ m ∨ k ∈ l.map Prod.fst := by
  induction l generalizing m with
  | nil => simp [insertAll]
  | cons e l ih =>
    show k ∈ (m.insert e.1 e.2).insertAll l ↔ _
    rw [ih, mem_insert, List.map_cons, List.mem_cons, or_assoc, or_left_comm]

/-- A value comes from the map or from the list. -/
theorem get_insertAll {l : List (κ × ν)} {m : HashMap κ ν} {k : κ} {v : ν}
    (h : (m.insertAll l).get k = some v) : m.get k = some v ∨ (k, v) ∈ l := by
  induction l generalizing m with
  | nil => exact .inl h
  | cons e l ih =>
    have h : ((m.insert e.1 e.2).insertAll l).get k = some v := h
    rcases ih h with h | h
    · rw [get_insert] at h
      split at h
      · rename_i hk
        cases h
        exact .inr (by rw [hk]; simp)
      · exact .inl h
    · exact .inr (by simp [h])

theorem get_retain (m : HashMap κ ν) (p : κ → ν → Bool) (k : κ) :
    (m.retain p).get k = (m.get k).filter (p k) := by
  have hmem : ∀ v, (m.retain p).get k = some v ↔ m.get k = some v ∧ p k v = true := fun v => by
    rw [← mem_entries, ← mem_entries]
    exact List.mem_filter
  apply Option.ext
  intro v
  rw [hmem, Option.filter_eq_some_iff]

theorem mem_retain {m : HashMap κ ν} {p : κ → ν → Bool} {k : κ} :
    k ∈ m.retain p ↔ ∃ v, m.get k = some v ∧ p k v = true := by
  rw [mem_iff_get]
  simp only [get_retain, Option.filter_eq_some_iff]

theorem get_remove (m : HashMap κ ν) (k k' : κ) :
    (m.remove k).get k' = if k' = k then none else m.get k' := by
  unfold remove get
  by_cases h : k' = k
  · subst h; simp
  · simp [h, AList.lookup_erase_ne]

theorem get_mapValues (m : HashMap κ ν) (f : ν → ν) (k : κ) :
    (m.mapValues f).get k = (m.get k).map f := by
  apply Option.ext
  intro v
  rw [← mem_entries, Option.map_eq_some_iff]
  constructor
  · intro h
    obtain ⟨e, he, heq⟩ := List.mem_map.mp h
    cases heq
    exact ⟨e.2, mem_entries.mp he, rfl⟩
  · rintro ⟨w, hw, rfl⟩
    exact List.mem_map.mpr ⟨⟨k, w⟩, mem_entries.mpr hw, rfl⟩

/-! ### The number of entries -/

section

omit [DecidableEq κ]

@[simp] theorem len_empty : len (∅ : HashMap κ ν) = 0 := rfl

theorem len_eq_keys (m : HashMap κ ν) : m.len = m.keys.length := (List.length_map _).symm

theorem len_retain_le (m : HashMap κ ν) (p : κ → ν → Bool) : (m.retain p).len ≤ m.len :=
  List.length_filter_le _ _

theorem mapValues_id (m : HashMap κ ν) : m.mapValues id = m :=
  AList.ext (List.map_id _)

theorem len_mapValues (m : HashMap κ ν) (f : ν → ν) : (m.mapValues f).len = m.len :=
  List.length_map _

/-- A map whose keys are all in a list is no longer than it. -/
theorem len_le_of_keys {m : HashMap κ ν} {l : List κ} (h : ∀ k ∈ m, k ∈ l) : m.len ≤ l.length := by
  rw [len_eq_keys]
  exact List.Subperm.length_le (List.subperm_of_subset m.keys_nodup
    fun k hk => h k (AList.mem_keys.mpr hk))

end

theorem len_remove_of_mem {m : HashMap κ ν} {k : κ} (h : k ∈ m) :
    (m.remove k).len + 1 = m.len := by
  have hpos := List.length_pos_of_mem (AList.mem_keys.mp h)
  rw [len_eq_keys, len_eq_keys, remove, AList.keys_erase,
    List.length_erase_of_mem (AList.mem_keys.mp h)]
  omega

theorem len_remove_le (m : HashMap κ ν) (k : κ) : (m.remove k).len ≤ m.len := by
  rw [len_eq_keys, len_eq_keys, remove, AList.keys_erase]
  exact List.length_erase_le

theorem len_insert_of_mem {m : HashMap κ ν} {k : κ} (h : k ∈ m) (v : ν) :
    (m.insert k v).len = m.len := by
  have hpos := List.length_pos_of_mem (AList.mem_keys.mp h)
  rw [len_eq_keys, len_eq_keys, insert, AList.keys_insert, List.length_cons,
    List.length_erase_of_mem (AList.mem_keys.mp h)]
  omega

theorem len_insert_of_notMem {m : HashMap κ ν} {k : κ} (h : k ∉ m) (v : ν) :
    (m.insert k v).len = m.len + 1 := by
  rw [len_eq_keys, len_eq_keys, insert, AList.keys_insert, List.length_cons,
    List.erase_of_not_mem fun hk => h (AList.mem_keys.mpr hk)]

/-- A sum over the entries, after one more has been put in. -/
theorem sum_insert (m : HashMap κ ν) (k : κ) (v : ν) (f : ν → Nat) :
    ((m.insert k v).entries.map fun e => f e.2).sum + ((m.get k).map f).getD 0 =
      (m.entries.map fun e => f e.2).sum + f v := by
  have hinsert : (m.insert k v).entries = ⟨k, v⟩ :: m.entries.kerase k := rfl
  rw [hinsert, List.map_cons, List.sum_cons]
  by_cases hk : k ∈ m
  · obtain ⟨w, l₁, l₂, -, hentries, herase⟩ := List.exists_of_kerase (AList.mem_keys.mp hk)
    have hw : m.get k = some w := by
      rw [← mem_entries, hentries]
      simp
    rw [herase, hw, hentries]
    simp only [List.map_append, List.map_cons, List.sum_append, List.sum_cons, Option.map_some,
      Option.getD_some]
    omega
  · rw [List.kerase_of_notMem_keys fun hmem => hk (AList.mem_keys.mpr hmem), get_eq_none.mpr hk]
    simp only [Option.map_none, Option.getD_none]
    omega

theorem mem_values {m : HashMap κ ν} {v : ν} : v ∈ m.values ↔ ∃ k, m.get k = some v := by
  constructor
  · intro h
    obtain ⟨⟨k, w⟩, hm, rfl⟩ := List.mem_map.mp h
    exact ⟨k, mem_entries.mp hm⟩
  · rintro ⟨k, hk⟩
    exact List.mem_map.mpr ⟨_, mem_entries.mpr hk, rfl⟩

/-! ### What the values list -/

section

variable {β : Type} (lists : ν → β → Prop)

/-- The value at `k` lists `b`. -/
def Lists (m : HashMap κ ν) (k : κ) (b : β) : Prop := ∃ v, m.get k = some v ∧ lists v b

/-- A value that lists one more is put in the place of the old one. -/
theorem lists_insert (b' : β) {m : HashMap κ ν} {k k' : κ} {v : ν} {b : β}
    (h : ∀ b, lists v b ↔ Lists lists m k b ∨ b = b') :
    Lists lists (m.insert k v) k' b ↔ Lists lists m k' b ∨ k' = k ∧ b = b' := by
  unfold Lists
  rw [get_insert]
  split
  · rename_i hk
    subst hk
    constructor
    · rintro ⟨w, hw, hb⟩
      obtain rfl := Option.some.inj hw
      exact ((h b).mp hb).imp_right fun hb => ⟨rfl, hb⟩
    · exact fun hb => ⟨v, rfl, (h b).mpr (hb.imp_right fun hb => hb.2)⟩
  · rename_i hk
    rw [or_iff_left fun hb => hk hb.1]

end

/-- What each step adds, a loop adds for all. -/
theorem foldl_iff {σ α : Type} {step : σ → α → σ} (has : σ → Prop) (adds : α → Prop)
    (h : ∀ s a, has (step s a) ↔ has s ∨ adds a) (l : List α) (s : σ) :
    has (l.foldl step s) ↔ has s ∨ ∃ a ∈ l, adds a := by
  induction l generalizing s with
  | nil => simp
  | cons a l ih => rw [List.foldl_cons, ih, h, List.exists_mem_cons_iff, or_assoc]

end HashMap

/-- An order in which a program meets the entries of a map: any order, each entry once. -/
structure IterOrder (κ ν : Type) where
  list : HashMap κ ν → List (Sigma fun _ : κ => ν)
  perm : ∀ m, (list m).Perm m.entries

namespace IterOrder

variable {κ ν : Type}

/-- The order of the entries themselves. -/
def entries : IterOrder κ ν := ⟨fun m => m.entries, fun _ => .refl _⟩

/-- The order does not look at the values. -/
def IgnoresValues (o : IterOrder κ ν) : Prop :=
  ∀ (f : ν → ν) (m : HashMap κ ν), o.list (m.mapValues f) = (o.list m).map fun e => ⟨e.1, f e.2⟩

theorem entries_ignoresValues : (entries : IterOrder κ ν).IgnoresValues := fun _ _ => rfl

theorem mem_list [DecidableEq κ] (o : IterOrder κ ν) {m : HashMap κ ν} {k : κ} {v : ν} :
    ⟨k, v⟩ ∈ o.list m ↔ m.get k = some v := by
  rw [(o.perm m).mem_iff, HashMap.mem_entries]

/-- The order that meets key `k` first. -/
def startingWith [DecidableEq κ] (k : κ) : IterOrder κ ν where
  list m := (m.entries.filter fun e => decide (e.1 = k)) ++
    m.entries.filter fun e => !decide (e.1 = k)
  perm m := List.filter_append_perm (fun e => decide (e.1 = k)) m.entries

/-- A search in that order that accepts the entry of `k` finds it. -/
theorem find?_startingWith [DecidableEq κ] {m : HashMap κ ν} {k : κ} {v : ν} (h : m.get k = some v)
    {p : (Sigma fun _ : κ => ν) → Bool} (hp : p ⟨k, v⟩ = true) :
    ((startingWith k).list m).find? p = some ⟨k, v⟩ := by
  have hmem : (⟨k, v⟩ : Sigma fun _ : κ => ν) ∈ m.entries.filter fun e => decide (e.1 = k) := by
    simp [HashMap.mem_entries, h]
  have hsome : ((m.entries.filter fun e => decide (e.1 = k)).find? p).isSome :=
    List.find?_isSome.mpr ⟨_, hmem, hp⟩
  obtain ⟨⟨k', v'⟩, he⟩ := Option.isSome_iff_exists.mp hsome
  obtain ⟨hin, hk⟩ := List.mem_filter.mp (List.mem_of_find?_eq_some he)
  obtain rfl : k' = k := by simpa using hk
  rw [HashMap.mem_entries, h] at hin
  cases hin
  show List.find? p (_ ++ _) = _
  rw [List.find?_append, he]
  rfl

end IterOrder
