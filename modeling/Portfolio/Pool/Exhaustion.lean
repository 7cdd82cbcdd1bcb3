import Portfolio.Pool.Accounting

/-!
# Giving up

A call of `acquire` that has found the pool full waits on the idle queue alone. The pool stays full
for it as long as no connection is discarded in front of it (`Undisturbed`): only a discard lowers
the counter, and it wakes nobody. What happens to other calls that wait does not matter.
-/

namespace Portfolio.Pool

variable {config : PoolConfig} {made : Nat → Conn}

/-- The call has found the pool full and can still give up. -/
def Call.foundFull : Call → Bool
  | .timing | .waiting => true
  | _ => false

/-- The call is about to lower the counter. -/
def Call.discards : Call → Bool
  | .discounting .. => true
  | _ => false

/-- No connection is discarded while the call `i` has found the pool full and can still give up. -/
def Undisturbed (i : Nat) (s : Threads ConnectionPool Call) (k : Call) : Prop :=
  k.discards = true → ∀ l ∈ s.calls[i]?, l.foundFull = false

instance (i : Nat) (s : Threads ConnectionPool Call) (k : Call) : Decidable (Undisturbed i s k) :=
  inferInstanceAs (Decidable (_ → ∀ l ∈ s.calls[i]?, _))

/-! ### Steps -/

/-- The counter moves with creations and discards only. -/
theorem step_total {env : Env} {p p' : ConnectionPool} {k k' : Call} (h : k.Step config env p p' k') :
    p'.totalConnections =
      p.totalConnections + (k.created config env p).toList.length - if k.discards then 1 else 0 := by
  cases h with
  | create room factory =>
    simp [Call.created, Call.discards, ConnectionPool.createConnection, room, factory]
  | refused room factory => simp [Call.created, Call.discards, room, factory]
  | full full => simp [Call.created, Call.discards, Int.not_lt.2 full]
  | _ => simp [Call.created, Call.discards]

/-- A call is in front of a full pool after a step only if it was before, or has just read the
counter. -/
theorem foundFull_step {env : Env} {p p' : ConnectionPool} {k k' : Call} (h : k.Step config env p p' k')
    (hfull : k'.foundFull = true) :
    p' = p ∧ (k.foundFull = true ∨ config.maxConnections ≤ p.totalConnections) := by
  cases h with
  | full full => exact ⟨rfl, .inr full⟩
  | patient | wait => exact ⟨rfl, .inl rfl⟩
  | @discount c acquiring raised => cases acquiring <;> cases raised <;> cases hfull
  | _ => cases hfull

/-- `PoolExhaustedError` is raised by a call that had found the pool full. -/
theorem foundFull_of_exhausted {env : Env} {p p' : ConnectionPool} {k k' : Call}
    (h : k.Step config env p p' k') (hk : k ≠ .exhausted) (hnow : k' = .exhausted) : k.foundFull = true := by
  cases h with
  | late | giveUp => rfl
  | exhausted => exact absurd rfl hk
  | @discount c acquiring raised => cases acquiring <;> cases raised <;> cases hnow
  | _ => cases hnow

/-! ### Runs -/

/-- If the call `i` has found the pool full, it is right. -/
def StillFull (config : PoolConfig) (i : Nat) (s : Threads ConnectionPool Call) : Prop :=
  ∀ l ∈ s.calls[i]?, l.foundFull = true → config.maxConnections ≤ s.shared.totalConnections

theorem StillFull.step {s : Threads ConnectionPool Call} {i : Nat} (h : StillFull config i s) {j : Nat}
    {k : Call} (env : Env) (hk : s.calls[j]? = some k) (hu : Undisturbed i s k) :
    StillFull config i ⟨(k.next config env s.shared).1, s.calls.set j (k.next config env s.shared).2⟩ := by
  intro l hl hfull
  have hl : (s.calls.set j (k.next config env s.shared).2)[i]? = some l := hl
  by_cases hij : j = i
  · subst hij
    rw [List.getElem?_set_self (List.getElem?_eq_some_iff.1 hk).1] at hl
    obtain rfl := Option.some.inj hl
    obtain ⟨hp, hown⟩ := foundFull_step (k.next_step config env s.shared) hfull
    show config.maxConnections ≤ (k.next config env s.shared).1.totalConnections
    rw [hp]
    rcases hown with hown | hown
    · exact h k hk hown
    · exact hown
  · -- Another call: the counter does not fall under `i`.
    rw [List.getElem?_set_ne hij] at hl
    have hle := h l hl hfull
    have hdiscards : k.discards = false := by
      rw [← Bool.not_eq_true]
      intro hd
      rw [hu hd l hl] at hfull
      cases hfull
    have htotal := step_total (k.next_step config env s.shared)
    rw [hdiscards] at htotal
    show config.maxConnections ≤ (k.next config env s.shared).1.totalConnections
    rw [htotal, if_neg Bool.false_ne_true]
    omega

theorem stillFull_run {i : Nat} (acts : List (Sched Request Env))
    (hacts : (poolMachine config made).Along (OfCall fun s k _ => Undisturbed i s k) acts) :
    StillFull config i ((poolMachine config made).run acts).1 := by
  refine (protocol config).machine_inv (I := StillFull config i) (fun k hk => by cases hk)
    (fun s r h k hk hfull => ?_) (fun s j k env h hk hG => h.step env hk hG) acts hacts
  have hk : (s.calls ++ [r.start])[i]? = some k := hk
  rcases List.mem_append.1 (List.mem_of_getElem? hk) with hold | hnew
  · by_cases hlt : i < s.calls.length
    · rw [List.getElem?_append_left hlt] at hk
      exact h k hk hfull
    · rw [List.getElem?_append_right (Nat.le_of_not_lt hlt)] at hk
      obtain rfl := List.mem_singleton.1 (List.mem_of_getElem? hk)
      cases r <;> cases hfull
  · obtain rfl := List.mem_singleton.1 hnew
    cases r <;> cases hfull

/-- A call that gives up leaves a pool with `max_connections` connections behind, in runs in which
nothing is discarded in front of it after it has found the pool full. -/
theorem existing_eq_max_of_exhausted (hconfig : config.postInit = .ok ())
    (hmade : ∀ m n, made m = made n → m = n)
    (acts : List (Sched Request Env))
    (hsound : (poolMachine config made).Along (OfCall (Sound config)) acts) {i : Nat}
    (hacts : (poolMachine config made).Along (OfCall fun s k _ => Undisturbed i s k) acts)
    {k : Call} (env : Env) (hk : ((poolMachine config made).run acts).1.calls[i]? = some k)
    (hwas : k ≠ .exhausted)
    (hnow : (k.next config env ((poolMachine config made).run acts).1.shared).2 = .exhausted) :
    existing ((poolMachine config made).run acts).1 = config.maxConnections := by
  have hplaced : Placed ((poolMachine config made).run acts).1 :=
    (protocol config).machine_inv (.new hmade) (fun s r h => h.call r)
      (fun s i k env h hk hG => h.step hk hG) acts hsound
  have hbefore := foundFull_of_exhausted (k.next_step config env _) hwas hnow
  have hfull := stillFull_run acts hacts k hk hbefore
  rw [← hplaced.total]
  exact Int.le_antisymm (total_le_max hconfig acts) hfull

/-- The only connection is in use, and a second `acquire` waits for one. -/
def waitingForOne : List (Sched Request Env) :=
  .call .acquire :: List.replicate 4 (.step 0 {}) ++ .call .acquire :: List.replicate 3 (.step 1 {})

/-- The connection in use turns out unhealthy when it is closed, and is discarded. -/
def discardedMeanwhile : List (Sched Request Env) :=
  waitingForOne ++ .call (.close 0) :: List.replicate 4 (.step 2 {}) ++
    List.replicate 3 (.step 2 { health := .unhealthy })

/-- Two more calls come: one makes a connection, the other waits for it. -/
def filledAgain : List (Sched Request Env) :=
  discardedMeanwhile ++ [.call .acquire, .step 3 {}, .step 3 { factory := some 5 }, .step 3 {}, .step 3 {},
    .step 3 {}, .call .acquire, .step 4 {}, .step 4 {}, .step 4 {}]

/-- The last call gives up. -/
theorem existing_eq_max_of_exhausted_filled :
    existing ((poolMachine single id).run filledAgain).1 = single.maxConnections :=
  existing_eq_max_of_exhausted rfl (fun _ _ h => h) _ ((Machine.along_iff_forall_lt _).2 (by decide +kernel))
    ((Machine.along_iff_forall_lt _).2 (by decide +kernel)) { expired := true } (i := 4) (k := .waiting)
    (by decide +kernel) (by decide) (by decide +kernel)

/-- The call that waits gives up although there is no connection any more. -/
theorem exhausted_with_empty_pool :
    single.postInit = .ok () ∧ (poolMachine single id).Along (OfCall (Sound single)) discardedMeanwhile ∧
      ((poolMachine single id).run (discardedMeanwhile ++ [.step 1 { expired := true }])).1.calls[1]? =
        some .exhausted ∧
      existing ((poolMachine single id).run (discardedMeanwhile ++ [.step 1 { expired := true }])).1 =
        0 := by
  refine ⟨rfl, (Machine.along_iff_forall_lt _).2 ?_, ?_, ?_⟩
  · decide +kernel
  · decide +kernel
  · decide +kernel

end Portfolio.Pool
