import Mathlib.Data.Rat.Floor
import Mathlib.Tactic.Linarith
import Portfolio.Lib.Pacing

/-!
# `PongServer::game_loop`

The pacing of `lab1.4-ws-pong` and the tick statistics that it keeps. The clock is in nanoseconds; what
passes between two readings is an input of the run, and `double` is exact. The update and the broadcast of
a tick are between its two readings. A pass that finds the server stopped ends the run.
-/

namespace Portfolio.WsPong

def frameDuration : Int := 16666667

/-- `std::numeric_limits<double>::max()` -/
def maxDouble : ℚ := (2 ^ 53 - 1) * 2 ^ 971

/-- `min_tick_ms_` and its neighbours. -/
structure TickStats where
  lastTickTime : Option Int := none
  total : ℚ := 0
  min : ℚ := maxDouble
  max : ℚ := 0
  samples : Nat := 0
  deriving DecidableEq, Repr

/-- What a tick does to the statistics; `have_last_tick_time_` is that there is one. -/
def TickStats.observe (stats : TickStats) (now : Int) : TickStats :=
  match stats.lastTickTime with
  | none => { stats with lastTickTime := some now }
  | some last =>
    let interval : ℚ := ((now - last : Int) : ℚ) / 10 ^ 6
    { lastTickTime := some now
      total := stats.total + interval
      min := if interval < stats.min then interval else stats.min
      max := if stats.max < interval then interval else stats.max
      samples := stats.samples + 1 }

/-- `ticks` of `metrics_snapshot`. -/
structure TickMetrics where
  samples : Nat
  minMs : ℚ
  maxMs : ℚ
  avgMs : ℚ
  deriving DecidableEq, Repr

def TickStats.snapshot (stats : TickStats) : TickMetrics :=
  if 0 < stats.samples then ⟨stats.samples, stats.min, stats.max, stats.total / stats.samples⟩
  else ⟨stats.samples, 0, 0, 0⟩

theorem TickStats.snapshot_samples (stats : TickStats) : stats.snapshot.samples = stats.samples := by
  unfold TickStats.snapshot
  split <;> rfl

theorem TickStats.snapshot_of_pos {stats : TickStats} (h : 0 < stats.samples) :
    stats.snapshot = ⟨stats.samples, stats.min, stats.max, stats.total / stats.samples⟩ := if_pos h

theorem TickStats.snapshot_of_zero {stats : TickStats} (h : stats.samples = 0) :
    stats.snapshot = ⟨stats.samples, 0, 0, 0⟩ := if_neg (by omega)

structure LoopState where
  /-- The latest reading of the clock. -/
  clock : Int
  nextTick : Int
  stats : TickStats := {}

structure Pass where
  elapsed : Nat
  overslept : Nat := 0
  work : Nat

def gamePass (s : LoopState) (p : Pass) : LoopState × List (Beat Int) :=
  let now := s.clock + p.elapsed
  let now := if now < s.nextTick then s.nextTick + p.overslept else now
  let nextTick := s.nextTick + frameDuration
  let finished := now + p.work
  ({ clock := finished
     nextTick := if nextTick + frameDuration < finished then finished else nextTick
     stats := s.stats.observe finished },
   [⟨now, finished⟩])

/-- `game_loop`, started at a reading of the clock. -/
def gameLoop (start : Int) : Machine LoopState Pass (Beat Int) where
  init := { clock := start, nextTick := start }
  step := gamePass

theorem paced_gameLoop (start : Int) (passes : List Pass) :
    Paced frameDuration frameDuration (2 * frameDuration) start ((gameLoop start).run passes).2
      ((gameLoop start).run passes).1.nextTick := by
  refine (gameLoop start).run_inv (P := fun _ beats s =>
    Paced frameDuration frameDuration (2 * frameDuration) start beats s.nextTick) .nil ?_ passes
  intro _ beats s p h
  have hpos : 0 < frameDuration := by decide
  refine h.concat ?_ ?_ ?_ ?_
  · show s.nextTick ≤ if s.clock + p.elapsed < s.nextTick then s.nextTick + p.overslept else s.clock + p.elapsed
    split <;> omega
  all_goals
    simp only [gameLoop, gamePass]
    generalize (if s.clock + p.elapsed < s.nextTick then s.nextTick + p.overslept else s.clock + p.elapsed) = now
    split <;> omega

/-! ### The statistics -/

/-- Milliseconds from one tick to another. -/
def intervalMs (a b : Beat Int) : ℚ := ((b.finish - a.finish : Int) : ℚ) / 10 ^ 6

/-- What the statistics tell of the ticks so far. -/
structure Measures (beats : List (Beat Int)) (stats : TickStats) : Prop where
  last : stats.lastTickTime = beats.getLast?.map Beat.finish
  samples : stats.samples = beats.length - 1
  total : ∀ a b, beats.head? = some a → beats.getLast? = some b → stats.total = intervalMs a b
  bounds : ∀ pre a b post, beats = pre ++ a :: b :: post → stats.min ≤ intervalMs a b ∧ intervalMs a b ≤ stats.max
  average : stats.min * stats.samples ≤ stats.total ∧ stats.total ≤ stats.max * stats.samples

theorem Measures.observe_first (b : Beat Int) : Measures [b] (TickStats.observe {} b.finish) := by
  refine ⟨rfl, rfl, ?_, ?_, ?_⟩
  · rintro a c ha hc
    obtain rfl := Option.some.inj ha
    obtain rfl := Option.some.inj hc
    simp [TickStats.observe, intervalMs]
  · intro pre a c post hb
    have hlength := congrArg List.length hb
    simp only [List.length_append, List.length_cons, List.length_nil] at hlength
    omega
  · simp [TickStats.observe]

theorem Measures.observe {beats : List (Beat Int)} {stats : TickStats} {last : Beat Int}
    (h : Measures (beats ++ [last]) stats) (b : Beat Int) :
    Measures (beats ++ [last] ++ [b]) (stats.observe b.finish) := by
  have hlast : stats.lastTickTime = some last.finish := by
    rw [h.last, List.getLast?_concat]
    rfl
  have hobserve : stats.observe b.finish =
      { lastTickTime := some b.finish
        total := stats.total + intervalMs last b
        min := if intervalMs last b < stats.min then intervalMs last b else stats.min
        max := if stats.max < intervalMs last b then intervalMs last b else stats.max
        samples := stats.samples + 1 } := by
    unfold TickStats.observe
    rw [hlast]
    rfl
  have hmin : (stats.observe b.finish).min ≤ stats.min ∧ (stats.observe b.finish).min ≤ intervalMs last b := by
    rw [hobserve]
    dsimp only
    split
    · next hlt => exact ⟨hlt.le, le_refl _⟩
    · next hge => exact ⟨le_refl _, not_lt.1 hge⟩
  have hmax : stats.max ≤ (stats.observe b.finish).max ∧ intervalMs last b ≤ (stats.observe b.finish).max := by
    rw [hobserve]
    dsimp only
    split
    · next hlt => exact ⟨hlt.le, le_refl _⟩
    · next hge => exact ⟨le_refl _, not_lt.1 hge⟩
  have htotal : (stats.observe b.finish).total = stats.total + intervalMs last b := by rw [hobserve]
  have hsamples : (stats.observe b.finish).samples = stats.samples + 1 := by rw [hobserve]
  refine ⟨?_, ?_, ?_, ?_, ?_⟩
  · rw [hobserve, List.getLast?_concat]
    rfl
  · rw [hsamples, h.samples]
    simp
  · intro a c ha hc
    rw [List.getLast?_concat] at hc
    obtain rfl := Option.some.inj hc
    rw [List.head?_append_of_ne_nil _ (by simp)] at ha
    rw [htotal, h.total a last ha (List.getLast?_concat ..)]
    unfold intervalMs
    push_cast
    ring
  · intro pre a c post hb
    rcases concat_eq_append_cons.1 hb with ⟨-, -, hnil⟩ | ⟨post', hpost, hb'⟩
    · exact absurd hnil (List.cons_ne_nil _ _)
    · cases post' with
      | nil =>
        obtain ⟨rfl, rfl⟩ := List.cons.inj hpost
        obtain ⟨rfl, hl⟩ := List.append_inj' hb' rfl
        obtain rfl := List.singleton_inj.1 hl
        exact ⟨hmin.2, hmax.2⟩
      | cons e post' =>
        obtain ⟨rfl, rfl⟩ := List.cons.inj hpost
        obtain ⟨hlow, hhigh⟩ := h.bounds pre a c post' hb'
        exact ⟨hmin.1.trans hlow, hhigh.trans hmax.1⟩
  · obtain ⟨hlow, hhigh⟩ := h.average
    have hn : (0 : ℚ) ≤ stats.samples := Nat.cast_nonneg _
    have hlow' := mul_le_mul_of_nonneg_right hmin.1 hn
    have hhigh' := mul_le_mul_of_nonneg_right hmax.1 hn
    rw [htotal, hsamples]
    push_cast
    constructor <;> linarith [hmin.2, hmax.2]

/-- Without an interval there is nothing to average. -/
theorem Measures.avg_mul_samples {beats : List (Beat Int)} {stats : TickStats} (h : Measures beats stats) :
    stats.snapshot.avgMs * stats.snapshot.samples = stats.total := by
  obtain ⟨hlow, hhigh⟩ := h.average
  rcases Nat.eq_zero_or_pos stats.samples with hzero | hpos
  · rw [hzero, Nat.cast_zero, mul_zero] at hlow hhigh
    rw [TickStats.snapshot_of_zero hzero, le_antisymm hhigh hlow, zero_mul]
  · have hne : (stats.samples : ℚ) ≠ 0 := Nat.cast_ne_zero.2 hpos.ne'
    rw [TickStats.snapshot_of_pos hpos]
    exact div_mul_cancel₀ _ hne

theorem Measures.avg_between {beats : List (Beat Int)} {stats : TickStats} (h : Measures beats stats) :
    stats.snapshot.minMs ≤ stats.snapshot.avgMs ∧ stats.snapshot.avgMs ≤ stats.snapshot.maxMs := by
  obtain ⟨hlow, hhigh⟩ := h.average
  rcases Nat.eq_zero_or_pos stats.samples with hzero | hpos
  · rw [TickStats.snapshot_of_zero hzero]
    exact ⟨le_refl _, le_refl _⟩
  · have hcast : (0 : ℚ) < stats.samples := Nat.cast_pos.2 hpos
    rw [TickStats.snapshot_of_pos hpos]
    exact ⟨(le_div_iff₀ hcast).2 hlow, (div_le_iff₀ hcast).2 hhigh⟩

theorem measures_gameLoop (start : Int) (passes : List Pass) :
    Measures ((gameLoop start).run passes).2 ((gameLoop start).run passes).1.stats := by
  refine (gameLoop start).run_inv (P := fun _ beats s => (beats = [] → s.stats = {}) ∧ Measures beats s.stats)
    ?_ ?_ passes |>.2
  · refine ⟨fun _ => rfl, rfl, rfl, nofun, ?_, by simp [gameLoop]⟩
    intro pre a b post hb
    simp at hb
  · intro _ beats s p ⟨hnil, h⟩
    refine ⟨fun hend => absurd hend (by simp [gameLoop, gamePass]), ?_⟩
    rcases List.eq_nil_or_concat beats with rfl | ⟨beats, last, rfl⟩
    · have hfirst : s.stats = {} := hnil rfl
      show Measures [_] (s.stats.observe _)
      rw [hfirst]
      exact .observe_first ⟨_, _⟩
    · rw [List.concat_eq_append] at h ⊢
      exact h.observe _

/-- The loop, whatever its passes take. Two ticks with `n` ticks between them are at least `n - 1` frame
durations apart. The statistics count the intervals between the ticks, their average is that of the whole
time, and every one of them is between the least and the largest. -/
theorem ticks_paced_and_measured (start : Int) (passes : List Pass) :
    let r := (gameLoop start).run passes
    let ticks := r.1.stats.snapshot
    (∀ pre a mid b post, r.2 = pre ++ a :: (mid ++ b :: post) →
      a.start + mid.length * frameDuration ≤ b.start + frameDuration) ∧
    ticks.samples = r.2.length - 1 ∧
    (∀ a b, r.2.head? = some a → r.2.getLast? = some b → ticks.avgMs * ticks.samples = intervalMs a b) ∧
    (∀ pre a b post, r.2 = pre ++ a :: b :: post → ticks.minMs ≤ intervalMs a b ∧ intervalMs a b ≤ ticks.maxMs) ∧
    ticks.minMs ≤ ticks.avgMs ∧ ticks.avgMs ≤ ticks.maxMs := by
  intro r ticks
  have h := measures_gameLoop start passes
  refine ⟨?_, ?_, ?_, ?_, ?_⟩
  · intro pre a mid b post hbeats
    have hpaced : Paced _ _ _ _ r.2 _ := paced_gameLoop start passes
    have hwindow := (hbeats ▸ hpaced).window
    simpa using hwindow
  · rw [← h.samples]
    exact r.1.stats.snapshot_samples
  · intro a b ha hb
    rw [← h.total a b ha hb]
    exact h.avg_mul_samples
  · intro pre a b post hbeats
    have hpos : 0 < r.1.stats.samples := by
      have hlength := congrArg List.length hbeats
      rw [List.length_append, List.length_cons, List.length_cons] at hlength
      have hsamples : r.1.stats.samples = r.2.length - 1 := h.samples
      omega
    have hticks : ticks = _ := TickStats.snapshot_of_pos hpos
    rw [hticks]
    exact h.bounds pre a b post hbeats
  · exact h.avg_between

end Portfolio.WsPong
