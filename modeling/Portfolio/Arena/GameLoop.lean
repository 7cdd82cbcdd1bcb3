import Mathlib.Data.Rat.Floor
import Mathlib.Tactic.Linarith
import Portfolio.Lib.Pacing

/-!
# `GameLoop` of the arena

The loop of `server/src/core/game_loop.cpp`. Times are nanoseconds of the steady clock, exact also where
the source has `double`; what passes between two readings of the clock is an input of the run. The wait at
the end of a frame is not left before `next_frame`, but for a stop, which ends the run. The first frame
starts at once, and the second is due two periods after the start.
-/

namespace Portfolio.Arena

structure TickInfo where
  tick : Nat
  deltaSeconds : ℚ
  frameStart : ℚ
  deriving DecidableEq, Repr

def TickInfo.beat (info : TickInfo) : Beat ℚ := ⟨info.frameStart, info.frameStart⟩

structure GameLoop where
  tickRate : ℚ
  /-- Nanoseconds. -/
  targetDelta : ℚ

namespace GameLoop

/-- The constructor, of a rate that is not zero. -/
def make (tickRate : ℚ) : GameLoop := { tickRate := tickRate, targetDelta := 10 ^ 9 / tickRate }

structure LoopState where
  /-- The latest reading of the clock. -/
  clock : ℚ
  previous : ℚ
  nextFrame : ℚ
  tickCounter : Nat := 0
  lastDurations : List ℚ := []
  deriving DecidableEq, Repr

/-- What passes before the frame starts, until it has ended, and how late the wait is left. -/
structure Frame where
  before : Nat := 0
  work : Nat
  overslept : Nat := 0

def pushDuration (lastDurations : List ℚ) (delta : ℚ) : List ℚ :=
  let durations := lastDurations ++ [delta]
  if 240 < durations.length then durations.tail else durations

def frame (loop : GameLoop) (s : LoopState) (f : Frame) : LoopState × List TickInfo :=
  let frameStart := s.clock + f.before
  let delta := (frameStart - s.previous) / 10 ^ 9
  let nextFrame := s.nextFrame + loop.targetDelta
  let now := frameStart + f.work
  let clock := if 0 < nextFrame - now then nextFrame + f.overslept else now + f.overslept
  ({ clock := clock
     previous := frameStart
     nextFrame := if 0 < nextFrame - now then nextFrame else clock
     tickCounter := s.tickCounter + 1
     lastDurations := pushDuration s.lastDurations delta },
   [⟨s.tickCounter, delta, frameStart⟩])

/-- `Run`, started at a reading of the clock. -/
def runFrom (loop : GameLoop) (start : ℚ) : Machine LoopState Frame TickInfo where
  init := { clock := start, previous := start, nextFrame := start + loop.targetDelta }
  step := loop.frame

/-! ### The schedule -/

variable (loop : GameLoop) (start : ℚ)

/-- Since when the next frame may start; the first one does not wait. -/
def due (s : LoopState) : ℚ := if s.tickCounter = 0 then start else s.nextFrame

/-- The frames keep their distance, and the clock has been waited for. -/
structure Scheduled (infos : List TickInfo) (s : LoopState) : Prop where
  paced : Paced loop.targetDelta 0 0 start (infos.map TickInfo.beat) (due start s)
  clock : due start s ≤ s.clock
  next : due start s ≤ s.nextFrame

theorem scheduled_run (hdelta : 0 ≤ loop.targetDelta) (frames : List Frame) :
    Scheduled loop start ((loop.runFrom start).run frames).2 ((loop.runFrom start).run frames).1 := by
  refine (loop.runFrom start).run_inv (P := fun _ infos s => Scheduled loop start infos s) ?_ ?_ frames
  · refine ⟨.nil, le_refl _, ?_⟩
    show start ≤ start + loop.targetDelta
    linarith
  · intro _ infos s f h
    have hbefore : (0 : ℚ) ≤ f.before := Nat.cast_nonneg _
    have hwork : (0 : ℚ) ≤ f.work := Nat.cast_nonneg _
    have hlate : (0 : ℚ) ≤ f.overslept := Nat.cast_nonneg _
    have hclock := h.clock
    have hnext := h.next
    have hstep : (loop.runFrom start).step s f = loop.frame s f := rfl
    rw [hstep]
    -- The next frame may start when the wait is over, and that is after this one.
    have hafter : due start (loop.frame s f).1 = (loop.frame s f).1.nextFrame := if_neg (Nat.succ_ne_zero _)
    have hmoved : due start s + loop.targetDelta ≤ (loop.frame s f).1.nextFrame ∧
        s.clock + f.before ≤ (loop.frame s f).1.nextFrame ∧
        (loop.frame s f).1.nextFrame ≤ (loop.frame s f).1.clock := by
      simp only [frame]
      by_cases hwait : 0 < s.nextFrame + loop.targetDelta - (s.clock + f.before + f.work)
      · simp only [if_pos hwait]
        refine ⟨by linarith, by linarith, by linarith⟩
      · simp only [if_neg hwait]
        refine ⟨by linarith, by linarith, le_refl _⟩
    refine ⟨?_, ?_, ?_⟩
    · rw [List.map_append, hafter]
      refine h.paced.concat (b := ⟨s.clock + f.before, s.clock + f.before⟩) ?_ hmoved.1 ?_ ?_
      · show due start s ≤ s.clock + f.before
        linarith
      · rw [add_zero]
        exact hmoved.2.1
      · intro hlt
        have hlt' : s.clock + f.before < due start s + 0 := hlt
        linarith
    · rw [hafter]
      exact hmoved.2.2
    · rw [hafter]

/-! ### What the callback is told -/

/-- The calls so far, with consecutive numbers and the time between frames, and the durations kept. -/
structure Told (infos : List TickInfo) (s : LoopState) : Prop where
  counter : infos.map TickInfo.tick = List.range s.tickCounter
  length : infos.length = s.tickCounter
  last : (start :: infos.map TickInfo.frameStart).getLast? = some s.previous
  simulated : (infos.map TickInfo.deltaSeconds).sum = (s.previous - start) / 10 ^ 9
  durations : s.lastDurations = (infos.map TickInfo.deltaSeconds).drop (infos.length - 240)

theorem pushDuration_drop (deltas : List ℚ) (delta : ℚ) :
    pushDuration (deltas.drop (deltas.length - 240)) delta =
      (deltas ++ [delta]).drop ((deltas ++ [delta]).length - 240) := by
  have hdrop : (deltas ++ [delta]).drop (deltas.length - 240) = deltas.drop (deltas.length - 240) ++ [delta] :=
    List.drop_append_of_le_length (Nat.sub_le ..)
  unfold pushDuration
  dsimp only
  rw [← hdrop, List.length_drop, List.length_append, List.length_singleton]
  by_cases hfull : 240 ≤ deltas.length
  · have hcount : deltas.length + 1 - 240 = deltas.length - 240 + 1 := by omega
    rw [if_pos (by omega), hcount, List.tail_drop]
  · have hcount : deltas.length + 1 - 240 = deltas.length - 240 := by omega
    rw [if_neg (by omega), hcount]

theorem told_run (frames : List Frame) :
    Told start ((loop.runFrom start).run frames).2 ((loop.runFrom start).run frames).1 := by
  refine (loop.runFrom start).run_inv (P := fun _ infos s => Told start infos s) ?_ ?_ frames
  · exact ⟨rfl, rfl, rfl, by simp [runFrom], rfl⟩
  · intro _ infos s f h
    refine ⟨?_, ?_, ?_, ?_, ?_⟩
    · rw [List.map_append, h.counter]
      exact List.range_succ.symm
    · rw [List.length_append, h.length]
      rfl
    · rw [List.map_append, ← List.cons_append]
      exact List.getLast?_concat
    · show _ = (s.clock + f.before - start) / 10 ^ 9
      have hdelta : ((loop.frame s f).2.map TickInfo.deltaSeconds).sum = (s.clock + f.before - s.previous) / 10 ^ 9 :=
        add_zero _
      rw [List.map_append, List.sum_append, h.simulated]
      refine (congrArg _ hdelta).trans ?_
      ring
    · have hkept := pushDuration_drop (infos.map TickInfo.deltaSeconds) ((s.clock + f.before - s.previous) / 10 ^ 9)
      rw [List.length_map, ← h.durations, List.length_append, List.length_map] at hkept
      rw [List.map_append, List.length_append]
      exact hkept

/-- The loop of a positive rate, whatever its frames take. A frame that was late is not caught up: two
frames with `n` frames between them are at least `n` periods apart. The callback is told consecutive
numbers, and time steps that add up to the time that has passed; the last 240 of them are kept. -/
theorem frames_on_schedule {tickRate : ℚ} (h : 0 < tickRate) (start : ℚ) (frames : List Frame) :
    let loop := make tickRate
    let r := (loop.runFrom start).run frames
    (∀ pre a mid b post, r.2 = pre ++ a :: (mid ++ b :: post) →
      a.frameStart + mid.length * loop.targetDelta ≤ b.frameStart) ∧
    Told start r.2 r.1 := by
  intro loop r
  have hdelta : 0 ≤ loop.targetDelta := by
    show 0 ≤ 10 ^ 9 / tickRate
    positivity
  refine ⟨fun pre a mid b post hinfos => ?_, loop.told_run start frames⟩
  have hpaced := (loop.scheduled_run start hdelta frames).paced
  have hcut : r.2.map TickInfo.beat =
      pre.map TickInfo.beat ++ a.beat :: (mid.map TickInfo.beat ++ b.beat :: post.map TickInfo.beat) := by
    rw [hinfos]
    simp
  have hwindow := (hcut ▸ hpaced).window
  simpa [TickInfo.beat] using hwindow

/-- The second frame takes ten periods. -/
def stall : List Frame := [⟨0, 0, 0⟩, ⟨0, 200000000, 0⟩, ⟨0, 0, 5⟩]

theorem frames_on_schedule_stall :
    Told 0 (((make 50).runFrom 0).run stall).2 (((make 50).runFrom 0).run stall).1 :=
  (frames_on_schedule (by decide) 0 stall).2

end GameLoop
end Portfolio.Arena
