import Mathlib.Tactic.Linarith
import Mathlib.Tactic.Ring
import Portfolio.Lib.Machine
import Portfolio.Lib.Scalar

/-!
# `sync/time_sync.cpp`

`TimeSync` and its clock slew in exact rational arithmetic. `observe` moves the estimate and the
smoothed offset by the same filter, so `target` never finds a difference to work off
(`Level.smoothed_eq`), and the slew is what the observations make of it (`drift`).
-/

namespace Portfolio.Netcode

/-! ### `mini::sync::TimeSync` -/

structure TimeSync (α : Type) where
  alpha : α
  maxSlew : α
  offsetEstimate : α
  smoothedOffset : α
  lastTargetLocal : α
  hasObservation : Bool

inductive TimeSyncOp (α : Type) where
  | observe (localTick serverTick : α)
  | target (localTickNow : α)

namespace TimeSync

section
variable {α : Type} [Scalar α]

def new (alpha maxSlew : α) : TimeSync α where
  alpha := alpha
  maxSlew := maxSlew
  offsetEstimate := Scalar.lit 0
  smoothedOffset := Scalar.lit 0
  lastTargetLocal := Scalar.lit 0
  hasObservation := false

def observe (s : TimeSync α) (localTick serverTick : α) : TimeSync α :=
  let measurement := serverTick - localTick
  if !s.hasObservation then
    { s with offsetEstimate := measurement, smoothedOffset := measurement, hasObservation := true }
  else
    { s with
      offsetEstimate := (Scalar.lit 1 - s.alpha) * s.offsetEstimate + s.alpha * measurement
      smoothedOffset := (Scalar.lit 1 - s.alpha) * s.smoothedOffset + s.alpha * measurement }

def target (s : TimeSync α) (localTickNow : α) : TimeSync α × α :=
  if !s.hasObservation then (s, localTickNow)
  else
    let deltaLocal := Scalar.max (Scalar.lit 0) (localTickNow - s.lastTargetLocal)
    let maxAdjust := s.maxSlew * deltaLocal
    let deltaOffset := s.offsetEstimate - s.smoothedOffset
    let smoothed := s.smoothedOffset + Scalar.clamp deltaOffset (-maxAdjust) maxAdjust
    ({ s with smoothedOffset := smoothed, lastTargetLocal := localTickNow }, localTickNow + smoothed)

omit [Scalar α] in
def offset (s : TimeSync α) : α := s.offsetEstimate

def exec (s : TimeSync α) : TimeSyncOp α → TimeSync α × List α
  | .observe localTick serverTick => (s.observe localTick serverTick, [])
  | .target localTickNow => ((s.target localTickNow).1, [(s.target localTickNow).2])

end

/-- The outputs are what the calls of `target` return. -/
def machine {α : Type} [Scalar α] (alpha maxSlew : α) : Machine (TimeSync α) (TimeSyncOp α) α where
  init := .new alpha maxSlew
  step := exec

/-! ### The filter -/

/-- What the measurements, oldest first, add to a filtered offset `e`: the deviation of each counts
with the weight `alpha`, which every later measurement reduces by the factor `1 - alpha`. -/
def drift (alpha e : ℚ) : List ℚ → ℚ
  | [] => 0
  | m :: ms => (1 - alpha) ^ ms.length * alpha * (m - e) + drift alpha e ms

theorem drift_concat (alpha e : ℚ) (ms : List ℚ) (m : ℚ) :
    drift alpha e (ms ++ [m]) = (1 - alpha) * drift alpha e ms + alpha * (m - e) := by
  induction ms with
  | nil => simp [drift]
  | cons n ms ih =>
    rw [List.cons_append, drift, ih, drift, List.length_append, List.length_singleton, pow_succ]
    ring

/-- The state keeps its parameters, and once there is an observation the two offsets are equal. -/
structure Level (alpha maxSlew : ℚ) (s : TimeSync ℚ) : Prop where
  alpha_eq : s.alpha = alpha
  maxSlew_eq : s.maxSlew = maxSlew
  smoothed_eq : s.hasObservation = true → s.smoothedOffset = s.offsetEstimate

section
variable {alpha maxSlew : ℚ} {s : TimeSync ℚ}

theorem Level.observe (h : Level alpha maxSlew s) (localTick serverTick : ℚ) :
    Level alpha maxSlew (s.observe localTick serverTick) := by
  cases hobs : s.hasObservation with
  | false =>
    simp only [TimeSync.observe, hobs]
    exact ⟨h.alpha_eq, h.maxSlew_eq, fun _ => rfl⟩
  | true =>
    simp only [TimeSync.observe, hobs]
    refine ⟨h.alpha_eq, h.maxSlew_eq, fun _ => ?_⟩
    simp only [h.smoothed_eq hobs]
    rfl

theorem clamp_zero {a : ℚ} (ha : 0 ≤ a) : Scalar.clamp 0 (-a) a = 0 := by
  have hlow : ¬ (0 : ℚ) < -a := by linarith
  have hhigh : ¬ a < (0 : ℚ) := by linarith
  rw [Scalar.clamp, if_neg hlow, if_neg hhigh]

theorem max_zero_nonneg (a : ℚ) : 0 ≤ Scalar.max 0 a := by
  unfold Scalar.max
  split
  · next h => exact le_of_lt h
  · exact le_refl 0

/-- `target` adds nothing to the smoothed offset. -/
theorem Level.target_eq (h : Level alpha maxSlew s) (hslew : 0 ≤ maxSlew) (hobs : s.hasObservation = true)
    (localTickNow : ℚ) :
    s.target localTickNow = ({ s with lastTargetLocal := localTickNow }, localTickNow + s.offset) := by
  have hadjust : 0 ≤ s.maxSlew * Scalar.max (Scalar.lit 0) (localTickNow - s.lastTargetLocal) := by
    rw [h.maxSlew_eq]
    exact mul_nonneg hslew (max_zero_nonneg _)
  have hdelta : s.offsetEstimate - s.smoothedOffset = 0 := by
    rw [h.smoothed_eq hobs]
    exact sub_self _
  have hstays : s.smoothedOffset + Scalar.clamp (s.offsetEstimate - s.smoothedOffset)
      (-(s.maxSlew * Scalar.max (Scalar.lit 0) (localTickNow - s.lastTargetLocal)))
      (s.maxSlew * Scalar.max (Scalar.lit 0) (localTickNow - s.lastTargetLocal)) = s.smoothedOffset := by
    rw [hdelta, clamp_zero hadjust]
    exact add_zero _
  unfold target
  rw [if_neg (by simp [hobs])]
  dsimp only
  rw [hstays, offset, h.smoothed_eq hobs]

theorem Level.target (h : Level alpha maxSlew s) (hslew : 0 ≤ maxSlew) (localTickNow : ℚ) :
    Level alpha maxSlew (s.target localTickNow).1 := by
  cases hobs : s.hasObservation with
  | false =>
    simp only [TimeSync.target, hobs]
    exact h
  | true =>
    rw [h.target_eq hslew hobs]
    exact ⟨h.alpha_eq, h.maxSlew_eq, h.smoothed_eq⟩

theorem level_run (hslew : 0 ≤ maxSlew) (ops : List (TimeSyncOp ℚ)) :
    Level alpha maxSlew ((machine alpha maxSlew).run ops).1 := by
  refine (machine alpha maxSlew).run_inv (P := fun _ _ s => Level alpha maxSlew s) ?_ ?_ ops
  · exact ⟨rfl, rfl, fun _ => rfl⟩
  · intro _ _ s op h
    cases op with
    | observe localTick serverTick => exact h.observe localTick serverTick
    | target localTickNow => exact h.target hslew localTickNow

/-! ### Observations -/

theorem observe_hasObservation (s : TimeSync ℚ) (localTick serverTick : ℚ) :
    (s.observe localTick serverTick).hasObservation = true := by
  unfold TimeSync.observe
  split
  · rfl
  · next h => simpa using h

/-- A later observation filters its measurement. -/
theorem observe_offset (hobs : s.hasObservation = true) (localTick serverTick : ℚ) :
    (s.observe localTick serverTick).offset =
      (1 - s.alpha) * s.offset + s.alpha * (serverTick - localTick) := by
  simp only [TimeSync.observe, hobs]
  rfl

end

/-- The calls of `observe` between two calls of `target`: local and server tick of each. -/
def observeAll {α : Type} [Scalar α] (s : TimeSync α) (observed : List (α × α)) : TimeSync α :=
  observed.foldl (fun s o => s.observe o.1 o.2) s

def measurements (observed : List (ℚ × ℚ)) : List ℚ := observed.map fun o => o.2 - o.1

/-- Between two calls of `target` the offset moves by the drift of the measurements. -/
theorem observeAll_offset {s : TimeSync ℚ} (hobs : s.hasObservation = true) (observed : List (ℚ × ℚ)) :
    (s.observeAll observed).hasObservation = true ∧ (s.observeAll observed).alpha = s.alpha ∧
      (s.observeAll observed).offset = s.offset + drift s.alpha s.offset (measurements observed) := by
  induction observed using List.reverseRecOn with
  | nil => exact ⟨hobs, rfl, (add_zero _).symm⟩
  | append_singleton observed o ih =>
    obtain ⟨hobs', halpha, hoffset⟩ := ih
    have hfold : s.observeAll (observed ++ [o]) = (s.observeAll observed).observe o.1 o.2 := by
      simp only [observeAll, List.foldl_append, List.foldl_cons, List.foldl_nil]
    have halpha' : ((s.observeAll observed).observe o.1 o.2).alpha = (s.observeAll observed).alpha := by
      unfold TimeSync.observe
      split <;> rfl
    refine ⟨hfold ▸ observe_hasObservation _ _ _, by rw [hfold, halpha', halpha], ?_⟩
    have hmeasured : measurements (observed ++ [o]) = measurements observed ++ [o.2 - o.1] := List.map_append
    rw [hfold, observe_offset hobs', halpha, hoffset, hmeasured, drift_concat]
    ring

/-! ### The slew between two calls -/

theorem hasObservation_run (alpha maxSlew : ℚ) {ops : List (TimeSyncOp ℚ)} {localTick serverTick : ℚ}
    (h : .observe localTick serverTick ∈ ops) :
    ((machine alpha maxSlew).run ops).1.hasObservation = true := by
  induction ops using List.reverseRecOn with
  | nil => cases h
  | append_singleton ops op ih =>
    rw [Machine.run_concat]
    cases op with
    | observe l t => exact observe_hasObservation _ l t
    | target l =>
      have hobs := ih (by simpa using h)
      show (((machine alpha maxSlew).run ops).1.target l).1.hasObservation = true
      simp only [TimeSync.target, hobs]
      rfl

/-- The operations of two calls of `target` with only observations between them. -/
def twoTargets (l₁ : ℚ) (observed : List (ℚ × ℚ)) (l₂ : ℚ) : List (TimeSyncOp ℚ) :=
  .target l₁ :: (observed.map fun o => .observe o.1 o.2) ++ [.target l₂]

theorem run_observes (alpha maxSlew : ℚ) (ops : List (TimeSyncOp ℚ)) (observed : List (ℚ × ℚ)) :
    (machine alpha maxSlew).run (ops ++ observed.map fun o => .observe o.1 o.2) =
      (((machine alpha maxSlew).run ops).1.observeAll observed, ((machine alpha maxSlew).run ops).2) := by
  induction observed using List.reverseRecOn with
  | nil => rw [List.map_nil, List.append_nil]; rfl
  | append_singleton observed o ih =>
    rw [List.map_append, List.map_singleton, ← List.append_assoc, Machine.run_concat, ih]
    simp only [observeAll, List.foldl_append, List.foldl_cons, List.foldl_nil]
    exact Prod.ext rfl (List.append_nil _)

theorem run_twoTargets (alpha maxSlew : ℚ) (ops : List (TimeSyncOp ℚ)) (l₁ : ℚ) (observed : List (ℚ × ℚ))
    (l₂ : ℚ) :
    ((machine alpha maxSlew).run (ops ++ twoTargets l₁ observed l₂)).2 =
      ((machine alpha maxSlew).run ops).2 ++ [(((machine alpha maxSlew).run ops).1.target l₁).2,
        (((((machine alpha maxSlew).run ops).1.target l₁).1.observeAll observed).target l₂).2] := by
  rw [show ops ++ twoTargets l₁ observed l₂ =
      (ops ++ [.target l₁] ++ observed.map fun o => .observe o.1 o.2) ++ [.target l₂] by simp [twoTargets],
    Machine.run_concat, run_observes, Machine.run_concat]
  show _ ++ [_] ++ [_] = _ ++ [_, _]
  rw [List.append_assoc]
  rfl

theorem Level.observeAll {alpha maxSlew : ℚ} {s : TimeSync ℚ} (h : Level alpha maxSlew s)
    (observed : List (ℚ × ℚ)) : Level alpha maxSlew (s.observeAll observed) := by
  induction observed generalizing s with
  | nil => exact h
  | cons o observed ih => exact ih (h.observe o.1 o.2)

/-- After any operations that have observed something, two calls of `target` with only observations
between them are off by at most the allowed slew if and only if the drift of these observations from
the offset that was known at the first call is within it. -/
theorem slew_limited_iff {alpha maxSlew : ℚ} (hslew : 0 ≤ maxSlew) (ops : List (TimeSyncOp ℚ))
    {localTick serverTick : ℚ} (hobs : .observe localTick serverTick ∈ ops) (l₁ : ℚ)
    (observed : List (ℚ × ℚ)) (l₂ : ℚ) :
    ∃ t₁ t₂, ((machine alpha maxSlew).run (ops ++ twoTargets l₁ observed l₂)).2 =
        ((machine alpha maxSlew).run ops).2 ++ [t₁, t₂] ∧
      (|(t₂ - l₂) - (t₁ - l₁)| ≤ maxSlew * (l₂ - l₁) ↔
        |drift alpha ((machine alpha maxSlew).run ops).1.offset (measurements observed)| ≤
          maxSlew * (l₂ - l₁)) := by
  refine ⟨_, _, run_twoTargets alpha maxSlew ops l₁ observed l₂, ?_⟩
  have hhas := hasObservation_run alpha maxSlew hobs
  have hlevel : Level alpha maxSlew ((machine alpha maxSlew).run ops).1 := level_run hslew ops
  generalize ((machine alpha maxSlew).run ops).1 = s at hhas hlevel ⊢
  rw [hlevel.target_eq hslew hhas]
  -- The first call only notes its tick, so the observations start from the offset at that call.
  have hnoted : Level alpha maxSlew { s with lastTargetLocal := l₁ } :=
    ⟨hlevel.alpha_eq, hlevel.maxSlew_eq, hlevel.smoothed_eq⟩
  obtain ⟨hhas', -, hoffset⟩ := observeAll_offset (s := { s with lastTargetLocal := l₁ }) hhas observed
  rw [(hnoted.observeAll observed).target_eq hslew hhas', hoffset]
  have hdrift : ∀ d : ℚ, (l₂ + (s.offset + d) - l₂) - (l₁ + s.offset - l₁) = d := fun d => by ring
  have hslewed := hdrift (drift alpha s.offset (measurements observed))
  rw [← hlevel.alpha_eq] at hslewed ⊢
  exact iff_of_eq (congrArg (fun d : ℚ => |d| ≤ maxSlew * (l₂ - l₁)) hslewed)

/-- With the default parameters, one observation between two calls a tick apart moves the result by
ten ticks more. -/
theorem slew_exceeded :
    ¬ ∀ t₁ t₂, ((machine (1 / 10) (1 / 2)).run
        ([.observe 0 0] ++ twoTargets 0 [(0, 100)] 1)).2 = [t₁, t₂] →
      |(t₂ - 1) - (t₁ - 0)| ≤ (1 / 2 : ℚ) * (1 - 0) := by
  intro h
  have hexceeded := h 0 11 (by decide +kernel)
  revert hexceeded
  norm_num [abs_le]

/-- Slowly drifting observations stay within the limit. -/
theorem slew_limited_iff_steady :
    ∃ t₁ t₂, ((machine (1 / 10) (1 / 2)).run
        ([.observe 0 0] ++ twoTargets 0 [(1, 2), (2, 3)] 3)).2 = [t₁, t₂] ∧
      (|(t₂ - 3) - (t₁ - 0)| ≤ (1 / 2 : ℚ) * (3 - 0) ↔
        |drift (1 / 10) ((machine (1 / 10) (1 / 2)).run [.observe 0 0]).1.offset
          (measurements [(1, 2), (2, 3)])| ≤ 1 / 2 * (3 - 0)) :=
  slew_limited_iff (by norm_num) [.observe 0 0] List.mem_cons_self 0 [(1, 2), (2, 3)] 3

end TimeSync

end Portfolio.Netcode
