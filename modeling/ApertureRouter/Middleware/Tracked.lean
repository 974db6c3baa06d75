import Mathlib.Data.List.Dedup
import Mathlib.Data.List.MinMax
import ApertureRouter.Lib.HashMap
import ApertureRouter.Lib.Window
import ApertureRouter.Security

/-!
# Times tracked per address

The table of `RateLimiter` (`src/middleware/rate_limit.rs`) and the table of failures of `AuthState`
(`src/middleware/auth.rs`): the times of each address. Both make room for a new address in the same
way (`evict`), and the background task of each cleans up in the same way (`cleanup`).

* A time is what `Instant::now()` reads, a natural number. It overflows in one place, which is left out:
  in `Instant::now() + ban_duration`, if `ban_duration_secs` is next to `i64::MAX`.
* `min_by_key` meets the entries of the table in some order (`IterOrder`) and returns the first of
  the smallest.
-/

namespace ApertureRouter

open Window

/-- `MAX_TRACKED_IPS`, in both files. -/
def maxTrackedIps : Nat := 10000

/-- The times of each address, oldest first. -/
abbrev Tracked : Type := HashMap IpAddr (List Nat)

abbrev TrackedOrder : Type := IterOrder IpAddr (List Nat)

/-- `StatusCode::TOO_MANY_REQUESTS`. -/
def tooManyRequests : Nat := 429

/-- The addresses, each counted once, have room in a table. -/
def Few (ips : List IpAddr) : Prop := ips.dedup.length ≤ maxTrackedIps

theorem Few.of_subset {ips ips' : List IpAddr} (h : Few ips) (hsub : ips' ⊆ ips) : Few ips' := by
  refine Nat.le_trans (List.Subperm.length_le (List.subperm_of_subset ips'.nodup_dedup ?_)) h
  exact fun ip hip => List.mem_dedup.mpr (hsub (List.mem_dedup.mp hip))

theorem Few.of_forall_eq {ips : List IpAddr} {ip : IpAddr} (h : ∀ ip' ∈ ips, ip' = ip) :
    Few ips := by
  have hone : Few [ip] := by
    show [ip].dedup.length ≤ 10000
    rw [(List.nodup_singleton ip).dedup]
    exact Nat.le_add_left 1 9999
  exact hone.of_subset fun ip' hmem => List.mem_singleton.mpr (h ip' hmem)

namespace Tracked

/-- The times of an address, none if it has no entry. -/
def times (table : Tracked) (ip : IpAddr) : List Nat := (table.get ip).getD []

/-- The address whose last time is the oldest. An address without times is passed over. -/
def oldestIp (order : TrackedOrder) (table : Tracked) : Option IpAddr :=
  (((order.list table).filterMap fun e => e.2.getLast?.map fun t => (e.1, t)).argmin (·.2)).map
    (·.1)

/-- Makes room for an address in a full table. -/
def evict (order : TrackedOrder) (ip : IpAddr) (table : Tracked) : Tracked :=
  if maxTrackedIps ≤ table.len ∧ ip ∉ table then
    match oldestIp order table with
    | some oldest => table.remove oldest
    | none => table
  else table

/-- The background task: throws away the times that do not count any more, and then the addresses
without times. -/
def cleanup (window now : Nat) (table : Tracked) : Tracked :=
  (table.mapValues (prune window now)).retain fun _ times => !times.isEmpty

@[simp] theorem times_empty (ip : IpAddr) : times ∅ ip = [] := rfl

theorem times_insert (table : Tracked) (ip ip' : IpAddr) (log : List Nat) :
    times (table.insert ip log) ip' = if ip' = ip then log else table.times ip' := by
  rw [times, HashMap.get_insert]
  split <;> rfl

theorem times_remove (table : Tracked) (ip ip' : IpAddr) :
    times (table.remove ip) ip' = if ip' = ip then [] else table.times ip' := by
  rw [times, HashMap.get_remove]
  split <;> rfl

theorem oldestIp_mem {order : TrackedOrder} {table : Tracked} {ip : IpAddr}
    (h : oldestIp order table = some ip) : ip ∈ table := by
  obtain ⟨⟨ip', t⟩, hmin, rfl⟩ := Option.map_eq_some_iff.mp h
  obtain ⟨e, he, hlast⟩ := List.mem_filterMap.mp (List.argmin_mem hmin)
  obtain ⟨t', -, heq⟩ := Option.map_eq_some_iff.mp hlast
  cases heq
  exact HashMap.mem_iff_get.mpr ⟨e.2, order.mem_list.mp he⟩

/-- What making room does: nothing, or it throws away another address. -/
theorem evict_cases (order : TrackedOrder) (ip : IpAddr) (table : Tracked) :
    table.evict order ip = table ∨
      ∃ oldest ∈ table, oldest ≠ ip ∧ table.evict order ip = table.remove oldest := by
  unfold evict
  split
  · rename_i h
    cases hold : oldestIp order table with
    | none => exact .inl rfl
    | some oldest =>
      refine .inr ⟨oldest, oldestIp_mem hold, ?_, rfl⟩
      rintro rfl
      exact h.2 (oldestIp_mem hold)
  · exact .inl rfl

/-- The address itself keeps its times. -/
theorem times_evict_self (order : TrackedOrder) (ip : IpAddr) (table : Tracked) :
    (table.evict order ip).times ip = table.times ip := by
  rcases evict_cases order ip table with h | ⟨oldest, -, hne, h⟩
  · rw [h]
  · rw [h, times_remove, if_neg (Ne.symm hne)]

/-- What an evicted table holds, the table held. -/
theorem get_of_get_evict {order : TrackedOrder} {ip ip' : IpAddr} {table : Tracked} {log : List Nat}
    (h : (table.evict order ip).get ip' = some log) : table.get ip' = some log := by
  rcases evict_cases order ip table with heq | ⟨oldest, -, -, heq⟩
  · rw [← heq]
    exact h
  · rw [heq, HashMap.get_remove] at h
    split at h
    · cases h
    · exact h

/-- Nothing but the times of other addresses is thrown away. -/
theorem times_evict (order : TrackedOrder) (ip ip' : IpAddr) (table : Tracked) :
    (table.evict order ip).times ip' = table.times ip' ∨ (table.evict order ip).times ip' = [] := by
  cases h : (table.evict order ip).get ip' with
  | none => exact .inr (by rw [times, h, Option.getD_none])
  | some log => exact .inl (by rw [times, times, h, get_of_get_evict h])

theorem mem_of_mem_evict {order : TrackedOrder} {ip ip' : IpAddr} {table : Tracked}
    (h : ip' ∈ table.evict order ip) : ip' ∈ table := by
  obtain ⟨log, hlog⟩ := HashMap.mem_iff_get.mp h
  exact HashMap.mem_iff_get.mpr ⟨log, get_of_get_evict hlog⟩

/-- There is room as long as all addresses, the new one included, are few. -/
theorem evict_eq_self {order : TrackedOrder} {ip : IpAddr} {table : Tracked} {ips : List IpAddr}
    (hips : ∀ ip' ∈ table, ip' ∈ ips) (hip : ip ∈ ips) (hfew : Few ips) :
    table.evict order ip = table := by
  refine if_neg fun ⟨hfull, hnew⟩ => ?_
  have hlt : (table.insert ip []).len ≤ ips.dedup.length := by
    refine HashMap.len_le_of_keys fun ip' hip' => List.mem_dedup.mpr ?_
    rcases HashMap.mem_insert.mp hip' with rfl | hmem
    · exact hip
    · exact hips ip' hmem
  rw [HashMap.len_insert_of_notMem hnew] at hlt
  exact absurd (Nat.le_trans hlt hfew) (by omega)

theorem times_cleanup (window now : Nat) (table : Tracked) (ip : IpAddr) :
    (table.cleanup window now).times ip = prune window now (table.times ip) := by
  rw [times, times, cleanup, HashMap.get_retain, HashMap.get_mapValues]
  cases table.get ip with
  | none => rfl
  | some log =>
    rw [Option.map_some, Option.filter_some, Option.getD_some]
    cases prune window now log <;> rfl

theorem mem_of_mem_cleanup {window now : Nat} {table : Tracked} {ip : IpAddr}
    (h : ip ∈ table.cleanup window now) : ip ∈ table := by
  obtain ⟨log, hlog, -⟩ := HashMap.mem_retain.mp h
  rw [HashMap.get_mapValues] at hlog
  obtain ⟨log', hlog', -⟩ := Option.map_eq_some_iff.mp hlog
  exact HashMap.mem_iff_get.mpr ⟨log', hlog'⟩

/-! ## A bounded table -/

/-- Every address has times, and there are not too many addresses. -/
structure Bounded (table : Tracked) : Prop where
  nonempty : ∀ ip log, table.get ip = some log → log ≠ []
  len_le : table.len ≤ maxTrackedIps

theorem Bounded.empty : Bounded ∅ where
  nonempty _ _ h := by cases h
  len_le := Nat.zero_le _

/-- A full table has an address to throw away. -/
theorem Bounded.exists_oldestIp {table : Tracked} (h : table.Bounded) (order : TrackedOrder)
    (hfull : maxTrackedIps ≤ table.len) : ∃ ip, oldestIp order table = some ip := by
  obtain ⟨e, he⟩ := List.exists_mem_of_length_pos
    (show 0 < table.entries.length from Nat.lt_of_lt_of_le (by decide) hfull)
  have hget := HashMap.mem_entries.mp (show ⟨e.1, e.2⟩ ∈ table.entries from he)
  rw [← Option.isSome_iff_exists, oldestIp, Option.isSome_map, Option.isSome_iff_ne_none, ne_eq,
    List.argmin_eq_none]
  refine List.ne_nil_of_mem (a := (e.1, e.2.getLast (h.nonempty e.1 e.2 hget))) ?_
  refine List.mem_filterMap.mpr ⟨e, order.mem_list.mpr hget, ?_⟩
  rw [List.getLast?_eq_some_getLast (h.nonempty e.1 e.2 hget)]
  rfl

/-- With room made for it, an address gets times. -/
theorem Bounded.insert_evict {table : Tracked} (h : table.Bounded) (order : TrackedOrder)
    (ip : IpAddr) {log : List Nat} (hlog : log ≠ []) :
    Bounded ((table.evict order ip).insert ip log) := by
  constructor
  · intro ip' log' hget
    rw [HashMap.get_insert] at hget
    split at hget
    · rw [← Option.some.inj hget]
      exact hlog
    · exact h.nonempty ip' log' (get_of_get_evict hget)
  · have hle := h.len_le
    unfold evict
    split
    · rename_i hfull
      obtain ⟨oldest, hold⟩ := h.exists_oldestIp order hfull.1
      have hlen := HashMap.len_remove_of_mem (oldestIp_mem hold)
      rw [hold]
      dsimp only
      by_cases hip : ip ∈ table.remove oldest
      · rw [HashMap.len_insert_of_mem hip]
        omega
      · rw [HashMap.len_insert_of_notMem hip]
        omega
    · rename_i hroom
      by_cases hip : ip ∈ table
      · rw [HashMap.len_insert_of_mem hip]
        exact hle
      · rw [HashMap.len_insert_of_notMem hip]
        exact Nat.lt_of_not_le fun hfull => hroom ⟨hfull, hip⟩

theorem Bounded.remove {table : Tracked} (h : table.Bounded) (ip : IpAddr) :
    Bounded (table.remove ip) := by
  constructor
  · intro ip' log hget
    rw [HashMap.get_remove] at hget
    split at hget
    · cases hget
    · exact h.nonempty ip' log hget
  · exact Nat.le_trans (HashMap.len_remove_le table ip) h.len_le

theorem Bounded.cleanup {table : Tracked} (h : table.Bounded) (window now : Nat) :
    Bounded (table.cleanup window now) := by
  constructor
  · intro ip log hget
    rw [Tracked.cleanup, HashMap.get_retain, Option.filter_eq_some_iff] at hget
    rintro rfl
    cases hget.2
  · refine Nat.le_trans (HashMap.len_retain_le _ _) ?_
    rw [HashMap.len_mapValues]
    exact h.len_le

end Tracked

end ApertureRouter
