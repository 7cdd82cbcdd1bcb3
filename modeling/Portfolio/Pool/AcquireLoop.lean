import Mathlib.Algebra.Order.Ring.Rat
import Mathlib.Data.Nat.Cast.Order.Basic
import Portfolio.Pool.ConnectionPool

/-!
# The loop of `acquire`

One call of `acquire`, for any behaviour of the callbacks and of the clock, while other threads may do
anything to the pool between its steps. Only a call that has found the pool full looks at the deadline:
a call that finds room goes round for as long as its connections fail their health check.
-/

namespace Portfolio.Pool

/-- What the callbacks do in their first, second, ... call by one `acquire`. -/
structure Callbacks where
  /-- The connection that the factory returns, if it does not raise. -/
  factory : Nat → Option Conn
  health : Nat → Health
  closeRaises : Nat → Bool

/-- A call of `acquire`, the pool that it sees, and how often it has called the callbacks. -/
structure Attempt where
  pool : ConnectionPool
  call : Call := .polling
  made : Nat := 0
  checked : Nat := 0
  closed : Nat := 0

/-- `acquire` has returned or raised. -/
def Call.ended : Call → Bool
  | .acquired _ | .exhausted | .failed => true
  | _ => false

/-- The steps of `acquire`. -/
def Call.acquiring : Call → Bool
  | .polling | .allocating | .timing | .waiting | .validating _ | .registering _ | .recording _
  | .disposing _ true | .discounting _ true _ => true
  | _ => false

namespace Attempt

/-- The next step; `expired` tells whether the deadline has passed. -/
def step (config : PoolConfig) (cb : Callbacks) (expired : Bool) (s : Attempt) : Attempt :=
  let env : Env :=
    { factory := cb.factory s.made, health := cb.health s.checked, closeRaises := cb.closeRaises s.closed
      expired := expired }
  let r := s.call.next config env s.pool
  { pool := r.1
    call := r.2
    made := s.made +
      if s.call = .allocating ∧ s.pool.totalConnections < config.maxConnections then 1 else 0
    checked := s.checked + match s.call with
      | .validating _ => 1
      | _ => 0
    closed := s.closed + match s.call with
      | .disposing _ _ => 1
      | _ => 0 }

end Attempt

/-- The call after `n` steps. Before its `n`-th step the other threads turn the pool into `others n` of
it; the clock shows `clock 0` when the call begins and `clock (n + 1)` in its `n`-th step. -/
def attempt (config : PoolConfig) (cb : Callbacks) (others : Nat → ConnectionPool → ConnectionPool)
    (clock : Nat → Rat) (p : ConnectionPool) : Nat → Attempt
  | 0 => { pool := p }
  | n + 1 =>
    let s := attempt config cb others clock p n
    { s with pool := others n s.pool }.step config cb
      (decide (clock 0 + config.acquisitionTimeout ≤ clock (n + 1)))

/-- Nobody else uses the pool. -/
def alone (_ : Nat) (p : ConnectionPool) : ConnectionPool := p

def Returns (config : PoolConfig) (cb : Callbacks) (others : Nat → ConnectionPool → ConnectionPool)
    (clock : Nat → Rat) (p : ConnectionPool) : Prop :=
  ∃ n, (attempt config cb others clock p n).call.ended = true

/-- Some health check does not just fail, or some `close` raises. -/
def Callbacks.Ends (cb : Callbacks) : Prop := ∃ n, cb.health n ≠ .unhealthy ∨ cb.closeRaises n = true

/-! ### What a step can do -/

namespace Attempt

inductive Step (config : PoolConfig) (cb : Callbacks) (expired : Bool) (s : Attempt) : Attempt → Prop
  | take {c rest} (at_ : s.call = .polling ∨ s.call = .waiting) (queue : s.pool.available = c :: rest) :
    Step config cb expired s { s with pool := { s.pool with available := rest }, call := .validating c }
  | empty (at_ : s.call = .polling) (queue : s.pool.available = []) :
    Step config cb expired s { s with call := .allocating }
  | create {c} (at_ : s.call = .allocating) (room : s.pool.totalConnections < config.maxConnections)
      (factory : cb.factory s.made = some c) :
    Step config cb expired s
      { s with pool := s.pool.createConnection, call := .validating c, made := s.made + 1 }
  | refused (at_ : s.call = .allocating) (room : s.pool.totalConnections < config.maxConnections)
      (factory : cb.factory s.made = none) :
    Step config cb expired s { s with call := .failed, made := s.made + 1 }
  | full (at_ : s.call = .allocating) (full : config.maxConnections ≤ s.pool.totalConnections) :
    Step config cb expired s { s with call := .timing }
  | patient (at_ : s.call = .timing) : Step config cb expired s { s with call := .waiting }
  | wait (at_ : s.call = .waiting) (early : expired = false) : Step config cb expired s s
  | giveUp (at_ : s.call = .timing ∨ s.call = .waiting) (late : expired = true) :
    Step config cb expired s { s with call := .exhausted }
  | accept {c} (at_ : s.call = .validating c) (health : cb.health s.checked = .healthy) :
    Step config cb expired s { s with call := .registering c, checked := s.checked + 1 }
  | reject {c} (at_ : s.call = .validating c) (health : cb.health s.checked = .unhealthy) :
    Step config cb expired s { s with call := .disposing c true, checked := s.checked + 1 }
  | escape {c} (at_ : s.call = .validating c) (health : cb.health s.checked = .escapes) :
    Step config cb expired s { s with call := .failed, checked := s.checked + 1 }
  | register {c} (at_ : s.call = .registering c) :
    Step config cb expired s
      { s with pool := { s.pool with inUse := insert c s.pool.inUse }, call := .recording c }
  | handOut {c n p} (at_ : s.call = .recording c) :
    Step config cb expired s { s with pool := p, call := .acquired n }
  | close {c} (at_ : s.call = .disposing c true) :
    Step config cb expired s
      { s with call := .discounting c true (cb.closeRaises s.closed), closed := s.closed + 1 }
  | discount {c raised} (at_ : s.call = .discounting c true raised) :
    Step config cb expired s
      { s with
        pool := { s.pool with totalConnections := s.pool.totalConnections - 1 }
        call := if raised then .failed else .polling }

theorem step_cases {config : PoolConfig} {cb : Callbacks} {expired : Bool} {s : Attempt}
    (h : s.call.acquiring = true) : Step config cb expired s (s.step config cb expired) := by
  obtain ⟨pool, call, made, checked, closed⟩ := s
  unfold Attempt.step
  dsimp only
  have hnext := call.next_step config { factory := cb.factory made, health := cb.health checked
                                        closeRaises := cb.closeRaises closed, expired := expired } pool
  generalize call.next config _ pool = r at hnext ⊢
  obtain ⟨pool', call'⟩ := r
  cases hnext with
  | poll queue => simpa using Step.take (.inl rfl) queue
  | empty queue => simpa using Step.empty rfl queue
  | create room factory =>
    simpa [room, ConnectionPool.createConnection] using Step.create rfl room factory
  | refused room factory => simpa [room] using Step.refused rfl room factory
  | full full => simpa [Int.not_lt.2 full] using Step.full rfl full
  | patient => exact Step.patient rfl
  | late late => exact Step.giveUp (.inl rfl) late
  | get queue => simpa using Step.take (.inr rfl) queue
  | wait queue early => exact Step.wait rfl early
  | giveUp queue late => exact Step.giveUp (.inr rfl) late
  | accept health => exact Step.accept rfl health
  | reject health => exact Step.reject rfl health
  | escape health => exact Step.escape rfl health
  | register => exact Step.register rfl
  | handOut => exact Step.handOut rfl
  | @close c acquiring =>
    cases acquiring with
    | true => exact Step.close rfl
    | false => cases h
  | @discount c acquiring raised =>
    cases acquiring with
    | true => exact Step.discount rfl
    | false => cases h
  | _ => cases h

variable {config : PoolConfig} {cb : Callbacks} {expired : Bool} {s s' : Attempt}

theorem Step.acquiring_or_ended (h : Step config cb expired s s') :
    s'.call.acquiring = true ∨ s'.call.ended = true := by
  cases h with
  | wait at_ =>
    rw [at_]
    exact .inl rfl
  | discount at_ => rename_i raised; cases raised <;> simp [Call.acquiring, Call.ended]
  | refused => exact .inr rfl
  | giveUp => exact .inr rfl
  | escape => exact .inr rfl
  | handOut => exact .inr rfl
  | _ => exact .inl rfl

/-- The factory is called by a call that found room. -/
theorem Step.made_eq (h : Step config cb expired s s') :
    s'.made = s.made ∨ (s.call = .allocating ∧ s.pool.totalConnections < config.maxConnections) := by
  cases h with
  | create at_ room => exact .inr ⟨at_, room⟩
  | refused at_ room => exact .inr ⟨at_, room⟩
  | _ => exact .inl rfl

/-- How far a call is from its next health check; after one it counts again. -/
def rank : Call → Nat
  | .disposing _ _ => 7
  | .discounting _ _ _ => 6
  | .polling => 5
  | .allocating => 4
  | .timing => 3
  | .waiting => 2
  | .validating _ => 1
  | .registering _ => 2
  | .recording _ => 1
  | _ => 0

/-- With `bound` checks at most, every step but waiting gets closer to the end. -/
theorem Step.rank_lt (h : Step config cb expired s s') {bound : Nat} (hbound : s'.checked ≤ bound) :
    10 * (bound - s'.checked) + rank s'.call < 10 * (bound - s.checked) + rank s.call ∨
      (expired = false ∧ s' = s) := by
  cases h with
  | wait at_ early => exact .inr ⟨early, rfl⟩
  | take at_ =>
    left
    rcases at_ with at_ | at_
    · simp [at_, rank]
    · simp [at_, rank]
  | giveUp at_ =>
    left
    rcases at_ with at_ | at_
    · simp [at_, rank]
    · simp [at_, rank]
  | discount at_ =>
    left
    rename_i raised
    cases raised
    · simp [at_, rank]
    · simp [at_, rank]
  | accept at_ | reject at_ | escape at_ =>
    left
    simp only [at_, rank] at hbound ⊢
    omega
  | empty at_ | create at_ | refused at_ | full at_ | patient at_ | register at_ | handOut at_ | close at_ =>
    left
    simp [at_, rank]

end Attempt

/-! ### Enough checks end the call -/

section
variable {config : PoolConfig} {cb : Callbacks} {others : Nat → ConnectionPool → ConnectionPool}
  {clock : Nat → Rat} {p : ConnectionPool}

/-- The step that `attempt` takes, as long as the call has not ended. -/
theorem attempt_step (hrun : ¬ Returns config cb others clock p) (n : Nat) :
    (attempt config cb others clock p n).call.acquiring = true ∧
      Attempt.Step config cb (decide (clock 0 + config.acquisitionTimeout ≤ clock (n + 1)))
        { attempt config cb others clock p n with pool := others n (attempt config cb others clock p n).pool }
        (attempt config cb others clock p (n + 1)) := by
  have hstep : ∀ n, (attempt config cb others clock p n).call.acquiring = true →
      Attempt.Step config cb (decide (clock 0 + config.acquisitionTimeout ≤ clock (n + 1)))
        { attempt config cb others clock p n with pool := others n (attempt config cb others clock p n).pool }
        (attempt config cb others clock p (n + 1)) := fun n h => Attempt.step_cases h
  have hacquiring : ∀ n, (attempt config cb others clock p n).call.acquiring = true := by
    intro n
    induction n with
    | zero => rfl
    | succ n ih => exact (hstep n ih).acquiring_or_ended.resolve_right fun hended => hrun ⟨n + 1, hended⟩
  exact ⟨hacquiring n, hstep n (hacquiring n)⟩

/-- A call that would check at most `bound` connections ends, once the deadline has passed. -/
theorem returns_of_bounded (hclock : ∃ n, ∀ m, n ≤ m → clock 0 + config.acquisitionTimeout ≤ clock m)
    (bound : Nat) (hbound : ¬ Returns config cb others clock p →
      ∀ n, (attempt config cb others clock p n).checked ≤ bound) : Returns config cb others clock p := by
  by_contra hrun
  obtain ⟨late, hlate⟩ := hclock
  let fuel (n : Nat) : Nat := 10 * (bound - (attempt config cb others clock p n).checked) +
    Attempt.rank (attempt config cb others clock p n).call + (late - n)
  have hfuel : ∀ n, fuel (n + 1) < fuel n := by
    intro n
    have hbelow := hbound hrun (n + 1)
    rcases (attempt_step hrun n).2.rank_lt hbelow with hlt | ⟨hearly, hsame⟩
    · dsimp only [fuel] at hlt ⊢
      omega
    · -- waiting: the deadline is ahead
      have hn : n + 1 < late := by
        by_contra hpast
        exact of_decide_eq_false hearly (hlate (n + 1) (Nat.le_of_not_lt hpast))
      dsimp only [fuel]
      rw [hsame]
      dsimp only
      omega
  have hle : ∀ n, fuel n + n ≤ fuel 0 := by
    intro n
    induction n with
    | zero => exact Nat.le_refl _
    | succ n ih =>
      have hlt := hfuel n
      omega
  have hend := hle (fuel 0 + 1)
  omega

/-! ### A check that does not just fail -/

/-- The first `n` connections failed their check and were closed. -/
def Bad (cb : Callbacks) (n : Nat) : Prop := ∀ k, k < n → cb.health k = .unhealthy ∧ cb.closeRaises k = false

theorem Bad.succ {n : Nat} (h : Bad cb n) (hhealth : cb.health n = .unhealthy) (hclose : cb.closeRaises n = false) :
    Bad cb (n + 1) := by
  intro k hk
  rcases Nat.lt_succ_iff_lt_or_eq.1 hk with hk | rfl
  · exact h k hk
  · exact ⟨hhealth, hclose⟩

/-- The call goes on because the connections so far were bad. -/
def Rejecting (cb : Callbacks) (s : Attempt) : Prop :=
  match s.call with
  | .disposing _ _ => s.checked = s.closed + 1 ∧ Bad cb s.closed ∧ cb.health s.closed = .unhealthy
  | .discounting _ _ raised => ∃ n, s.checked = n + 1 ∧ s.closed = n + 1 ∧ Bad cb n ∧
    cb.health n = .unhealthy ∧ raised = cb.closeRaises n
  | .registering _ | .recording _ => ∃ n, s.checked = n + 1 ∧ Bad cb n
  | .polling | .allocating | .timing | .waiting | .validating _ => s.closed = s.checked ∧ Bad cb s.checked
  | _ => True

theorem Rejecting.step {expired : Bool} {s s' : Attempt} (h : Rejecting cb s)
    (hstep : Attempt.Step config cb expired s s') : Rejecting cb s' := by
  cases hstep with
  | wait => exact h
  | take at_ =>
    unfold Rejecting at h
    rcases at_ with at_ | at_
    · rw [at_] at h
      exact h
    · rw [at_] at h
      exact h
  | empty at_ | create at_ | full at_ | patient at_ | register at_ =>
    unfold Rejecting at h
    rw [at_] at h
    exact h
  | refused | giveUp | escape | handOut => trivial
  | accept at_ =>
    unfold Rejecting at h
    rw [at_] at h
    exact ⟨s.checked, rfl, h.2⟩
  | reject at_ hhealth =>
    unfold Rejecting at h
    rw [at_] at h
    obtain ⟨heven, hbad⟩ := h
    show s.checked + 1 = s.closed + 1 ∧ Bad cb s.closed ∧ cb.health s.closed = .unhealthy
    rw [heven]
    exact ⟨rfl, hbad, hhealth⟩
  | close at_ =>
    unfold Rejecting at h
    rw [at_] at h
    obtain ⟨hchecked, hbad, hhealth⟩ := h
    exact ⟨s.closed, hchecked, rfl, hbad, hhealth, rfl⟩
  | discount at_ =>
    unfold Rejecting at h
    rw [at_] at h
    obtain ⟨n, hchecked, hclosed, hbad, hhealth, hraised⟩ := h
    rename_i raised
    cases raised with
    | true => trivial
    | false =>
      show s.closed = s.checked ∧ Bad cb s.checked
      rw [hclosed, hchecked]
      exact ⟨rfl, hbad.succ hhealth hraised.symm⟩

theorem rejecting_attempt (hrun : ¬ Returns config cb others clock p) (n : Nat) :
    Rejecting cb (attempt config cb others clock p n) := by
  induction n with
  | zero => exact ⟨rfl, fun k hk => absurd hk (Nat.not_lt_zero k)⟩
  | succ n ih =>
    have hothers : Rejecting cb { attempt config cb others clock p n with
        pool := others n (attempt config cb others clock p n).pool } := ih
    exact hothers.step (attempt_step hrun n).2

/-- An answer that is not bad comes soon. -/
theorem Rejecting.checked_le {s : Attempt} (h : Rejecting cb s) (hacquiring : s.call.acquiring = true) {n : Nat}
    (hn : cb.health n ≠ .unhealthy ∨ cb.closeRaises n = true) : s.checked ≤ n + 1 := by
  have hle : ∀ {m : Nat}, Bad cb m → m ≤ n := by
    intro m hbad
    by_contra hlt
    obtain ⟨hhealth, hclose⟩ := hbad n (Nat.lt_of_not_le hlt)
    rcases hn with hn | hn
    · exact hn hhealth
    · rw [hclose] at hn
      cases hn
  obtain ⟨pool, call, made, checked, closed⟩ := s
  show checked ≤ n + 1
  cases call with
  | polling | allocating | timing | waiting | validating _ => exact (hle h.2).trans (Nat.le_succ n)
  | disposing _ _ =>
    obtain ⟨hchecked, hbad, -⟩ := h
    have hclosed : closed ≤ n := hle hbad
    have hchecked : checked = closed + 1 := hchecked
    omega
  | discounting _ _ _ =>
    obtain ⟨m, hchecked, -, hbad, -⟩ := h
    have hm := hle hbad
    dsimp only at hchecked
    omega
  | registering _ | recording _ =>
    obtain ⟨m, hchecked, hbad⟩ := h
    have hm := hle hbad
    dsimp only at hchecked
    omega
  | _ => cases hacquiring

/-- Whatever the other threads do. -/
theorem returns_of_ends (hclock : ∃ n, ∀ m, n ≤ m → clock 0 + config.acquisitionTimeout ≤ clock m)
    (h : cb.Ends) : Returns config cb others clock p := by
  obtain ⟨n, hn⟩ := h
  exact returns_of_bounded hclock (n + 1) fun hrun m =>
    (rejecting_attempt hrun m).checked_le (attempt_step hrun m).1 hn

/-! ### Alone with the pool -/

/-- One while a health check is due. -/
def Call.due : Call → Nat
  | .validating _ => 1
  | _ => 0

/-- Alone, a call checks what was idle and what it had made, each once; and the counter falls with what
is closed. -/
structure Tracked (cb : Callbacks) (p : ConnectionPool) (s : Attempt) : Prop where
  source : s.call.acquiring = true →
    s.checked + s.pool.available.length + s.call.due = p.available.length + s.made
  factory : s.call.acquiring = true → ∀ k, k < s.made → cb.factory k ≠ none
  total : s.call.acquiring = true → (∀ c, s.call ≠ .recording c) →
    s.pool.totalConnections - s.pool.available.length - s.call.carried.toList.length =
      p.totalConnections - p.available.length

theorem Tracked.step {expired : Bool} {s s' : Attempt} (h : Tracked cb p s)
    (hstep : Attempt.Step config cb expired s s') : Tracked cb p s' := by
  obtain ⟨hsource, hfactory, htotal⟩ := h
  obtain ⟨pool, call, made, checked, closed⟩ := s
  cases hstep with
  | wait => exact ⟨hsource, hfactory, htotal⟩
  | @take c rest at_ queue =>
    have hdue : call.due = 0 := by rcases at_ with rfl | rfl <;> rfl
    have hcarried : call.carried = none := by rcases at_ with rfl | rfl <;> rfl
    have hacquiring : call.acquiring = true := by rcases at_ with rfl | rfl <;> rfl
    have hnot : ∀ c, call ≠ .recording c := by rcases at_ with rfl | rfl <;> nofun
    have hsource := hsource hacquiring
    have htotal := htotal hacquiring hnot
    have queue : pool.available = c :: rest := queue
    simp only [queue, hdue, hcarried, List.length_cons, Option.toList_none, List.length_nil] at hsource htotal
    refine ⟨fun _ => ?_, fun _ => hfactory hacquiring, fun _ _ => ?_⟩
    · simp only [Call.due]
      omega
    · simp only [Call.carried, Option.toList_some, List.length_singleton]
      omega
  | empty at_ | full at_ | patient at_ =>
    cases at_
    exact ⟨fun _ => hsource rfl, fun _ => hfactory rfl, fun _ _ => htotal rfl nofun⟩
  | create at_ room factory =>
    cases at_
    have hsource := hsource rfl
    have htotal := htotal rfl nofun
    simp only [Call.due, Call.carried, Option.toList_none, List.length_nil] at hsource htotal
    refine ⟨fun _ => ?_, fun _ k hk => ?_, fun _ _ => ?_⟩
    · simp only [ConnectionPool.createConnection, Call.due]
      omega
    · rcases Nat.lt_succ_iff_lt_or_eq.1 hk with hk | rfl
      · exact hfactory rfl k hk
      · rw [factory]
        nofun
    · simp only [ConnectionPool.createConnection, Call.carried, Option.toList_some, List.length_singleton]
      omega
  | accept at_ | reject at_ =>
    cases at_
    have hsource := hsource rfl
    refine ⟨fun _ => ?_, fun _ => hfactory rfl, fun _ _ => htotal rfl nofun⟩
    simp only [Call.due] at hsource ⊢
    omega
  | register at_ =>
    cases at_
    exact ⟨fun _ => hsource rfl, fun _ => hfactory rfl, fun _ hne => absurd rfl (hne _)⟩
  | close at_ =>
    cases at_
    exact ⟨fun _ => hsource rfl, fun _ => hfactory rfl, fun _ _ => htotal rfl nofun⟩
  | @discount c raised at_ =>
    cases at_
    have htotal := htotal rfl nofun
    simp only [Call.carried, Option.toList_some, List.length_singleton] at htotal
    cases raised with
    | true => exact ⟨nofun, nofun, nofun⟩
    | false =>
      refine ⟨fun _ => hsource rfl, fun _ => hfactory rfl, fun _ _ => ?_⟩
      simp only [Bool.false_eq_true, if_false, Call.carried, Option.toList_none, List.length_nil]
      omega
  | refused | giveUp | escape | handOut => exact ⟨nofun, nofun, nofun⟩

theorem tracked_attempt (hrun : ¬ Returns config cb alone clock p) (n : Nat) :
    Tracked cb p (attempt config cb alone clock p n) := by
  induction n with
  | zero =>
    refine ⟨fun _ => ?_, fun _ k hk => absurd hk (Nat.not_lt_zero k), fun _ _ => ?_⟩
    · simp [attempt, Call.due]
    · simp [attempt, Call.carried]
  | succ n ih => exact ih.step (attempt_step hrun n).2

theorem returns_of_factory (hclock : ∃ n, ∀ m, n ≤ m → clock 0 + config.acquisitionTimeout ≤ clock m) {n : Nat}
    (h : cb.factory n = none) : Returns config cb alone clock p := by
  refine returns_of_bounded hclock (p.available.length + n) fun hrun m => ?_
  have htracked := tracked_attempt hrun m
  have hacquiring := (attempt_step hrun m).1
  have hmade : (attempt config cb alone clock p m).made ≤ n := by
    by_contra hlt
    exact htracked.factory hacquiring n (Nat.lt_of_not_le hlt) h
  have hsource := htracked.source hacquiring
  omega

/-- Connections that are not idle fill the pool: nothing is made. -/
theorem returns_of_full (hclock : ∃ n, ∀ m, n ≤ m → clock 0 + config.acquisitionTimeout ≤ clock m)
    (h : config.maxConnections ≤ p.totalConnections - p.available.length) : Returns config cb alone clock p := by
  refine returns_of_bounded hclock p.available.length fun hrun m => ?_
  have hmade : ∀ n, (attempt config cb alone clock p n).made = 0 := by
    intro n
    induction n with
    | zero => rfl
    | succ n ih =>
      rcases (attempt_step hrun n).2.made_eq with hmade | ⟨hat, hroom⟩
      · rw [hmade]
        exact ih
      · -- the counter has not fallen below the connections that others hold
        have hat : (attempt config cb alone clock p n).call = .allocating := hat
        have hroom : (attempt config cb alone clock p n).pool.totalConnections < config.maxConnections := hroom
        have htotal := (tracked_attempt hrun n).total (attempt_step hrun n).1 (by rw [hat]; nofun)
        rw [hat] at htotal
        simp only [Call.carried, Option.toList_none, List.length_nil] at htotal
        omega
  have hsource := (tracked_attempt hrun m).source (attempt_step hrun m).1
  have := hmade m
  omega

/-! ### Round and round -/

/-- The call goes round: connections that others hold leave room, and no connection is good. -/
def Going (config : PoolConfig) (s : Attempt) : Prop :=
  s.pool.totalConnections - s.pool.available.length - s.call.carried.toList.length < config.maxConnections ∧
    match s.call with
    | .polling | .validating _ | .disposing _ true | .discounting _ true false => True
    | .allocating => s.pool.available = []
    | _ => False

theorem Going.step {expired : Bool} {s s' : Attempt} (h : Going config s)
    (hhealth : ∀ n, cb.health n = .unhealthy) (hclose : ∀ n, cb.closeRaises n = false)
    (hfactory : ∀ n, cb.factory n ≠ none) (hstep : Attempt.Step config cb expired s s') : Going config s' := by
  obtain ⟨hroom, hcall⟩ := h
  obtain ⟨pool, call, made, checked, closed⟩ := s
  cases hstep with
  | wait => exact ⟨hroom, hcall⟩
  | @take c rest at_ queue =>
    have queue : pool.available = c :: rest := queue
    rcases at_ with rfl | rfl
    · have hroom : pool.totalConnections - pool.available.length - (0 : Nat) < config.maxConnections := hroom
      rw [queue, List.length_cons] at hroom
      refine ⟨?_, trivial⟩
      simp only [Call.carried, Option.toList_some, List.length_singleton]
      omega
    · cases hcall
  | empty at_ queue =>
    cases at_
    exact ⟨hroom, queue⟩
  | create at_ room =>
    cases at_
    have hcall : pool.available = [] := hcall
    refine ⟨?_, trivial⟩
    simp only [ConnectionPool.createConnection, hcall, Call.carried, Option.toList_some, List.length_singleton,
      List.length_nil] at room ⊢
    omega
  | refused at_ room factory => exact absurd factory (hfactory made)
  | full at_ full =>
    cases at_
    have hcall : pool.available = [] := hcall
    simp only [hcall, Call.carried, Option.toList_none, List.length_nil] at hroom full
    omega
  | giveUp at_ =>
    rcases at_ with rfl | rfl
    · cases hcall
    · cases hcall
  | patient at_ | register at_ | handOut at_ =>
    cases at_
    cases hcall
  | accept at_ health | escape at_ health =>
    rw [hhealth] at health
    cases health
  | reject at_ =>
    cases at_
    exact ⟨hroom, trivial⟩
  | close at_ =>
    cases at_
    rw [hclose]
    exact ⟨hroom, trivial⟩
  | @discount c raised at_ =>
    cases at_
    cases raised with
    | true => cases hcall
    | false =>
      simp only [Call.carried, Option.toList_some, List.length_singleton] at hroom
      refine ⟨?_, trivial⟩
      simp only [Bool.false_eq_true, if_false, Call.carried, Option.toList_none, List.length_nil]
      omega

theorem Going.acquiring {s : Attempt} (h : Going config s) : s.call.acquiring = true := by
  obtain ⟨pool, call, made, checked, closed⟩ := s
  obtain ⟨-, hcall⟩ := h
  cases call with
  | polling | allocating | validating _ => rfl
  | disposing _ acquiring =>
    cases acquiring with
    | true => rfl
    | false => cases hcall
  | discounting _ acquiring raised =>
    cases acquiring with
    | true => rfl
    | false => cases hcall
  | _ => cases hcall

theorem Call.not_ended_of_acquiring {k : Call} (h : k.acquiring = true) : k.ended = false := by
  cases k with
  | acquired | exhausted | failed => cases h
  | _ => rfl

theorem not_returns_alone (hhealth : ∀ n, cb.health n = .unhealthy) (hclose : ∀ n, cb.closeRaises n = false)
    (hfactory : ∀ n, cb.factory n ≠ none)
    (hroom : p.totalConnections - p.available.length < config.maxConnections) :
    ¬ Returns config cb alone clock p := by
  have hgoing : ∀ n, Going config (attempt config cb alone clock p n) := by
    intro n
    induction n with
    | zero => exact ⟨by simpa [attempt, Call.carried] using hroom, trivial⟩
    | succ n ih => exact ih.step hhealth hclose hfactory (Attempt.step_cases ih.acquiring)
  rintro ⟨n, hended⟩
  rw [Call.not_ended_of_acquiring (hgoing n).acquiring] at hended
  cases hended

/-- `acquire` returns or raises, whatever the other threads do, if some answer of a health check or of
`close` makes it. When nobody else uses the pool it does so exactly if there is such an answer, or the
factory raises, or the connections in use fill the pool. -/
theorem acquire_returns_iff (config : PoolConfig) (cb : Callbacks) {clock : Nat → Rat} (hmono : Monotone clock)
    (hpass : ∃ n, clock 0 + config.acquisitionTimeout ≤ clock n) (p : ConnectionPool) :
    (cb.Ends → ∀ others, Returns config cb others clock p) ∧
      (Returns config cb alone clock p ↔ cb.Ends ∨ (∃ n, cb.factory n = none) ∨
        config.maxConnections ≤ p.totalConnections - p.available.length) := by
  have hclock : ∃ n, ∀ m, n ≤ m → clock 0 + config.acquisitionTimeout ≤ clock m := by
    obtain ⟨n, hn⟩ := hpass
    exact ⟨n, fun m hm => hn.trans (hmono hm)⟩
  refine ⟨fun hends others => returns_of_ends hclock hends, ?_, ?_⟩
  · intro hreturns
    by_contra hnone
    obtain ⟨hends, hfactory, hfull⟩ : ¬ cb.Ends ∧ (¬ ∃ n, cb.factory n = none) ∧
        ¬ config.maxConnections ≤ p.totalConnections - p.available.length := by tauto
    have hbad : ∀ n, cb.health n = .unhealthy ∧ cb.closeRaises n = false := by
      intro n
      by_contra hn
      refine hends ⟨n, ?_⟩
      cases hclose : cb.closeRaises n with
      | true => exact .inr rfl
      | false => exact .inl fun hhealth => hn ⟨hhealth, hclose⟩
    exact not_returns_alone (fun n => (hbad n).1) (fun n => (hbad n).2) (fun n hn => hfactory ⟨n, hn⟩)
      (Int.not_le.1 hfull) hreturns
  · rintro (hends | ⟨n, hn⟩ | hfull)
    · exact returns_of_ends hclock hends
    · exact returns_of_factory hclock hn
    · exact returns_of_full hclock hfull

end

/-- At most one connection; the second one that the factory makes is healthy. -/
def flaky : Callbacks where
  factory n := some n
  health n := if n = 1 then .healthy else .unhealthy
  closeRaises _ := false

def lazyPool : PoolConfig := { minConnections := 0, maxConnections := 1, connectionFactory := true }

/-- The other threads put connection 9 back before every step of the call. -/
def returning (_ : Nat) (p : ConnectionPool) : ConnectionPool := { p with available := [9] }

theorem acquire_returns_iff_flaky : Returns lazyPool flaky returning (fun n => n) (.new lazyPool id) :=
  (acquire_returns_iff lazyPool flaky Nat.mono_cast ⟨5, by decide +kernel⟩ (.new lazyPool id)).1
    ⟨1, .inl (by decide)⟩ returning

/-- The factory only makes connections that fail their health check: `acquire` never ends, although the
clock passes its deadline. -/
theorem acquire_never_returns :
    lazyPool.postInit = .ok () ∧ ((0 : Nat) : Rat) + lazyPool.acquisitionTimeout ≤ (5 : Nat) ∧
      ¬ Returns lazyPool { factory := some, health := fun _ => .unhealthy, closeRaises := fun _ => false } alone
        (fun n => n) (.new lazyPool id) :=
  ⟨rfl, by decide +kernel,
    not_returns_alone (fun _ => rfl) (fun _ => rfl) (fun _ => nofun) (by decide)⟩

end Portfolio.Pool
