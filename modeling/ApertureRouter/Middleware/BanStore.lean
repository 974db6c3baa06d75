import ApertureRouter.Middleware.Bans

/-!
# The size of the ban store

`record_failure` makes room in `failed_attempts` before it puts an address in, but not in
`banned_until`. So the first map is bounded (`failedAttempts_bounded`), and the second one is if
every new ban finds room in it (`store_bounded_iff`). Nothing sees to that: `floodOfFailures`.
-/

namespace ApertureRouter

namespace BanStore

variable (limits : AuthLimits)

/-- If the event bans an address anew, the map of bans is not full. -/
def FindsRoom (e : AuthEvent) (store : BanStore) : Prop :=
  ∀ ip order delay, e.op = .recordFailure ip order delay → ReachesLimit limits ip e.time store →
    ip ∉ store.bannedUntil → store.bannedUntil.len < maxTrackedIps

variable {limits}

theorem failedAttempts_bounded (run : List AuthEvent) :
    (afterRun limits run).failedAttempts.Bounded := by
  induction run with
  | nil => exact .empty
  | cons e run ih =>
    rw [afterRun_cons, apply]
    cases e.op with
    | recordFailure ip order delay =>
      dsimp only
      rw [recordFailure_failedAttempts]
      refine ih.insert_evict order ip ?_
      split
      · rename_i hfull
        exact List.ne_nil_of_length_pos (Nat.lt_of_lt_of_le limits.maxAttempts_pos hfull)
      · exact List.append_ne_nil_of_right_ne_nil _ (List.cons_ne_nil _ _)
    | recordSuccess ip => exact ih.remove ip
    | cleanup => exact ih.cleanup _ _

/-- One event keeps the bans bounded exactly if a new one finds room. -/
theorem bannedUntil_len_apply_le_iff {e : AuthEvent} {store : BanStore}
    (h : store.bannedUntil.len ≤ maxTrackedIps) :
    (apply limits e store).bannedUntil.len ≤ maxTrackedIps ↔ FindsRoom limits e store := by
  unfold apply FindsRoom
  cases e.op with
  | recordFailure ip order delay =>
    dsimp only
    rw [recordFailure_bannedUntil]
    by_cases hbans : ReachesLimit limits ip e.time store
    · rw [if_pos hbans]
      by_cases hip : ip ∈ store.bannedUntil
      · rw [HashMap.len_insert_of_mem hip]
        refine iff_of_true h ?_
        rintro _ _ _ ⟨⟩ - hnew
        exact absurd hip hnew
      · rw [HashMap.len_insert_of_notMem hip]
        refine ⟨fun hlt _ _ _ _ _ _ => hlt, fun hroom => ?_⟩
        exact hroom ip order delay rfl hbans hip
    · rw [if_neg hbans]
      refine iff_of_true h ?_
      rintro _ _ _ ⟨⟩ hbans'
      exact absurd hbans' hbans
  | recordSuccess ip =>
    exact iff_of_true (Nat.le_trans (HashMap.len_remove_le _ _) h) (fun _ _ _ hop => by cases hop)
  | cleanup =>
    exact iff_of_true (Nat.le_trans (HashMap.len_retain_le _ _) h) (fun _ _ _ hop => by cases hop)

theorem bannedUntil_len_le {run : List AuthEvent}
    (h : ∀ e run', e :: run' <:+ run → FindsRoom limits e (afterRun limits run')) :
    (afterRun limits run).bannedUntil.len ≤ maxTrackedIps := by
  induction run with
  | nil => exact Nat.zero_le _
  | cons e run ih =>
    have ih := ih fun e' run' hsuffix => h e' run' (hsuffix.trans (List.suffix_cons e run))
    exact (bannedUntil_len_apply_le_iff ih).mpr (h e run List.suffix_rfl)

/-- Both maps are bounded in all states of a run exactly if each new ban finds room. -/
theorem store_bounded_iff (limits : AuthLimits) (run : List AuthEvent) :
    (∀ run', run' <:+ run → (afterRun limits run').failedAttempts.len ≤ maxTrackedIps ∧
      (afterRun limits run').bannedUntil.len ≤ maxTrackedIps) ↔
    ∀ e run', e :: run' <:+ run → FindsRoom limits e (afterRun limits run') := by
  constructor
  · intro h e run' hsuffix
    have hbefore := (h run' ((List.suffix_cons e run').trans hsuffix)).2
    exact (bannedUntil_len_apply_le_iff hbefore).mp (h (e :: run') hsuffix).2
  · intro h run' hsuffix
    exact ⟨(failedAttempts_bounded run').len_le,
      bannedUntil_len_le fun e run'' hsuffix' => h e run'' (hsuffix'.trans hsuffix)⟩

/-! ## A flood of failures -/

/-- The `n`-th address of `10.0.0.0/8`. -/
def floodIp (n : Nat) : IpAddr :=
  .v4 ⟨10, UInt8.ofNat (n / 65536), UInt8.ofNat (n / 256), UInt8.ofNat n⟩

/-- One failure of each of `n` addresses. -/
def floodOfFailures : Nat → List AuthEvent
  | 0 => []
  | n + 1 => ⟨0, .recordFailure (floodIp n) .entries 0⟩ :: floodOfFailures n

/-- A single failure bans. -/
def oneAttempt : AuthLimits := ⟨1, 60, 300, by decide, by decide, by decide⟩

theorem floodIp_inj {i j : Nat} (hi : i < 16777216) (hj : j < 16777216)
    (h : floodIp i = floodIp j) : i = j := by
  unfold floodIp at h
  injection h with h
  injection h with _ hb hc hd
  have hb := congrArg UInt8.toNat hb
  have hc := congrArg UInt8.toNat hc
  have hd := congrArg UInt8.toNat hd
  simp only [UInt8.toNat_ofNat'] at hb hc hd
  omega

theorem bannedUntil_flood_succ (n : Nat) :
    (afterRun oneAttempt (floodOfFailures (n + 1))).bannedUntil =
      (afterRun oneAttempt (floodOfFailures n)).bannedUntil.insert (floodIp n) 300 :=
  recordFailure_bannedUntil.trans (if_pos (Nat.le_add_left 1 _))

theorem mem_bannedUntil_flood {ip : IpAddr} {n : Nat}
    (h : ip ∈ (afterRun oneAttempt (floodOfFailures n)).bannedUntil) : ∃ i < n, ip = floodIp i := by
  induction n with
  | zero => cases h
  | succ n ih =>
    rw [bannedUntil_flood_succ] at h
    rcases HashMap.mem_insert.mp h with rfl | h
    · exact ⟨n, Nat.lt_succ_self n, rfl⟩
    · obtain ⟨i, hi, rfl⟩ := ih h
      exact ⟨i, Nat.lt_succ_of_lt hi, rfl⟩

/-- Every address of the flood is banned. -/
theorem flood_len {n : Nat} (hn : n ≤ 16777216) :
    (afterRun oneAttempt (floodOfFailures n)).bannedUntil.len = n := by
  induction n with
  | zero => rfl
  | succ n ih =>
    rw [bannedUntil_flood_succ, HashMap.len_insert_of_notMem, ih (by omega)]
    intro hmem
    obtain ⟨i, hi, heq⟩ := mem_bannedUntil_flood hmem
    exact absurd (floodIp_inj (by omega) (by omega) heq) (by omega)

theorem floodOfFailures_unbounded :
    ¬ ∀ run', run' <:+ floodOfFailures 10001 →
      (afterRun oneAttempt run').failedAttempts.len ≤ maxTrackedIps ∧
        (afterRun oneAttempt run').bannedUntil.len ≤ maxTrackedIps := by
  intro h
  have hlen := (h _ List.suffix_rfl).2
  rw [flood_len (by decide)] at hlen
  exact absurd hlen (by decide)

end BanStore

end ApertureRouter
