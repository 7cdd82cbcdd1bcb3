import Mathlib.Data.Rat.Floor
import Portfolio.Lib.Pacing

/-!
# `core::GameLoop`

The loop of `netcode-core/core/game_loop.cpp`. The steady clock is counted in nanoseconds, and what passes
between two of its readings (the handler included) is an input of the run. `double` is exact. A pass of the
loop sleeps or ticks; after a tick that came too late to be caught up the schedule starts anew.
-/

namespace Portfolio.Netcode

structure GameLoop where
  targetTps : ℚ
  tickDuration : Int

namespace GameLoop

def minTps : ℚ := 1

/-- The constructor. -/
def make (targetTps : ℚ) : GameLoop :=
  let targetTps := if targetTps < minTps then minTps else targetTps
  { targetTps := targetTps, tickDuration := ⌊1 / targetTps * 10 ^ 9⌋ }

structure LoopState where
  /-- The latest reading of the clock. -/
  clock : Int
  nextTick : Int
  lastTick : Int
  tickCounter : Nat := 0
  deriving DecidableEq, Repr

/-- What passes before the clock is read, and by how much `sleep_until` is late if the loop sleeps. -/
structure Pass where
  elapsed : Nat
  overslept : Nat := 0

/-- A call of the handler, and the reading it is made at. -/
structure Tick where
  tick : Nat
  dtSeconds : ℚ
  now : Int
  deriving DecidableEq, Repr

def dtSeconds (loop : GameLoop) (now lastTick : Int) : ℚ :=
  let dt : ℚ := ((now - lastTick : Int) : ℚ) / 10 ^ 9
  if dt ≤ 0 then 1 / loop.targetTps else dt

/-- `next_tick` after a tick. -/
def advanceTick (tickDuration now nextTick : Int) : Int :=
  let nextTick := nextTick + tickDuration
  if tickDuration < now - nextTick then now + tickDuration else nextTick

def pass (loop : GameLoop) (s : LoopState) (p : Pass) : LoopState × List Tick :=
  let now := s.clock + p.elapsed
  if now < s.nextTick then ({ s with clock := s.nextTick + p.overslept }, [])
  else
    ({ clock := now
       nextTick := advanceTick loop.tickDuration now s.nextTick
       lastTick := now
       tickCounter := s.tickCounter + 1 },
     [⟨s.tickCounter, loop.dtSeconds now s.lastTick, now⟩])

/-- `run`, started at a reading of the clock. -/
def runFrom (loop : GameLoop) (start : Int) : Machine LoopState Pass Tick where
  init := { clock := start, nextTick := start, lastTick := start }
  step := loop.pass

/-! ### The schedule -/

theorem targetTps_pos (targetTps : ℚ) : 0 < (make targetTps).targetTps := by
  unfold make minTps
  dsimp only
  split
  · exact one_pos
  · next h => exact one_pos.trans_le (not_lt.1 h)

theorem tickDuration_nonneg (targetTps : ℚ) : 0 ≤ (make targetTps).tickDuration := by
  have hpos := targetTps_pos targetTps
  exact Int.floor_nonneg.2 (by positivity)

def Tick.beat (t : Tick) : Beat Int := ⟨t.now, t.now⟩

variable (loop : GameLoop) (start : Int)

theorem paced_run (hd : 0 ≤ loop.tickDuration) (passes : List Pass) :
    Paced loop.tickDuration loop.tickDuration (2 * loop.tickDuration) start
      (((loop.runFrom start).run passes).2.map Tick.beat) ((loop.runFrom start).run passes).1.nextTick := by
  refine (loop.runFrom start).run_inv (P := fun _ ticks s => Paced loop.tickDuration loop.tickDuration
    (2 * loop.tickDuration) start (ticks.map Tick.beat) s.nextTick) .nil ?_ passes
  intro _ ticks s p h
  have hstep : (loop.runFrom start).step s p = loop.pass s p := rfl
  rw [hstep, pass]
  by_cases hnow : s.clock + p.elapsed < s.nextTick
  · rw [if_pos hnow, List.append_nil]
    exact h
  · rw [if_neg hnow, List.map_append]
    refine h.concat (not_lt.1 hnow) ?_ ?_ ?_
    all_goals
      simp only [Tick.beat, advanceTick]
      split <;> omega

/-! ### What the handler is told -/

/-- The calls so far: numbered from zero, each with a positive time step, which is the time that has passed
since the call before when there has passed any. -/
structure Told (loop : GameLoop) (start : Int) (ticks : List Tick) (s : LoopState) : Prop where
  counter : ticks.map Tick.tick = List.range s.tickCounter
  length : ticks.length = s.tickCounter
  last : (start :: ticks.map Tick.now).getLast? = some s.lastTick
  positive : 0 < loop.targetTps → ∀ t ∈ ticks, 0 < t.dtSeconds
  simulated : (start :: ticks.map Tick.now).Pairwise (· < ·) →
    (ticks.map Tick.dtSeconds).sum = ((s.lastTick - start : Int) : ℚ) / 10 ^ 9

theorem dtSeconds_pos (h : 0 < loop.targetTps) (now lastTick : Int) : 0 < loop.dtSeconds now lastTick := by
  unfold dtSeconds
  dsimp only
  split
  · positivity
  · next hdt => exact not_le.1 hdt

theorem dtSeconds_of_lt {now lastTick : Int} (h : lastTick < now) :
    loop.dtSeconds now lastTick = ((now - lastTick : Int) : ℚ) / 10 ^ 9 := by
  have hpos : (0 : ℚ) < ((now - lastTick : Int) : ℚ) := by exact_mod_cast sub_pos.2 h
  unfold dtSeconds
  dsimp only
  rw [if_neg (not_le.2 (by positivity))]

theorem told_run (passes : List Pass) :
    Told loop start ((loop.runFrom start).run passes).2 ((loop.runFrom start).run passes).1 := by
  refine (loop.runFrom start).run_inv (P := fun _ ticks s => Told loop start ticks s) ?_ ?_ passes
  · exact ⟨rfl, rfl, rfl, fun _ t ht => absurd ht List.not_mem_nil, fun _ => by simp [runFrom]⟩
  · intro _ ticks s p h
    have hstep : (loop.runFrom start).step s p = loop.pass s p := rfl
    rw [hstep, pass]
    by_cases hnow : s.clock + p.elapsed < s.nextTick
    · rw [if_pos hnow, List.append_nil]
      exact ⟨h.counter, h.length, h.last, h.positive, h.simulated⟩
    · rw [if_neg hnow]
      refine ⟨?_, ?_, ?_, ?_, ?_⟩
      · rw [List.map_append, h.counter, List.range_succ]
        rfl
      · rw [List.length_append, h.length]
        rfl
      · rw [List.map_append, ← List.cons_append, List.map_singleton]
        exact List.getLast?_concat
      · intro htps t ht
        rcases List.mem_append.1 ht with ht | ht
        · exact h.positive htps t ht
        · rw [List.mem_singleton.1 ht]
          exact loop.dtSeconds_pos htps _ _
      · intro hincreasing
        rw [List.map_append, ← List.cons_append, List.pairwise_append] at hincreasing
        obtain ⟨hold, -, hlast⟩ := hincreasing
        have hlt : s.lastTick < s.clock + p.elapsed :=
          hlast _ (List.mem_of_getLast? h.last) _ (List.mem_singleton_self _)
        rw [List.map_append, List.sum_append, h.simulated hold, List.map_singleton, List.sum_singleton,
          loop.dtSeconds_of_lt hlt]
        push_cast
        ring

/-- The loop, whatever its passes take. Two ticks with `n` ticks between them are at least `n - 1` tick
durations apart. A loop none of whose ticks is two durations late does not drift, ahead or behind. The
handler is told consecutive numbers and positive time steps, and these add up to the time that has passed. -/
theorem ticks_on_schedule (targetTps : ℚ) (start : Int) (passes : List Pass) :
    let loop := make targetTps
    let ticks := ((loop.runFrom start).run passes).2
    (∀ pre a mid b post, ticks = pre ++ a :: (mid ++ b :: post) →
      a.now + mid.length * loop.tickDuration ≤ b.now + loop.tickDuration) ∧
    ((∀ pre b post, ticks = pre ++ b :: post → b.now < start + (pre.length + 2) * loop.tickDuration) →
      ∀ pre b post, ticks = pre ++ b :: post → start + pre.length * loop.tickDuration ≤ b.now) ∧
    ticks.map Tick.tick = List.range ticks.length ∧ (∀ t ∈ ticks, 0 < t.dtSeconds) ∧
    ((start :: ticks.map Tick.now).Pairwise (· < ·) → ∀ last, (start :: ticks.map Tick.now).getLast? = some last →
      (ticks.map Tick.dtSeconds).sum = ((last - start : Int) : ℚ) / 10 ^ 9) := by
  intro loop ticks
  have hpaced := loop.paced_run start (tickDuration_nonneg targetTps) passes
  have htold := loop.told_run start passes
  refine ⟨?_, ?_, ?_, ?_, ?_⟩
  · intro pre a mid b post hticks
    have hcut : ticks.map Tick.beat =
        pre.map Tick.beat ++ a.beat :: (mid.map Tick.beat ++ b.beat :: post.map Tick.beat) := by
      rw [hticks]
      simp
    have hwindow := (hcut ▸ hpaced).window
    simpa [Tick.beat] using hwindow
  · intro hin pre b post hticks
    have hcut : ticks.map Tick.beat = pre.map Tick.beat ++ b.beat :: post.map Tick.beat := by
      rw [hticks]
      simp
    have hintime : Paced.InTime loop.tickDuration (2 * loop.tickDuration) start (ticks.map Tick.beat) := by
      intro pre b post hbeats
      obtain ⟨l, _, hl, rfl, htail⟩ := List.map_eq_append_iff.1 hbeats
      obtain ⟨t, r, rfl, rfl, rfl⟩ := List.map_eq_cons_iff.1 htail
      have hlt := hin l t r hl
      rw [List.length_map, nsmul_eq_mul]
      show t.now < _
      linarith
    have htime := (hcut ▸ hpaced).on_time (hcut ▸ hintime)
    simpa [Tick.beat] using htime
  · rw [htold.counter, htold.length]
  · exact htold.positive (targetTps_pos targetTps)
  · intro hincreasing last hlast
    rw [htold.last] at hlast
    obtain rfl := Option.some.inj hlast
    exact htold.simulated hincreasing

end GameLoop
end Portfolio.Netcode
