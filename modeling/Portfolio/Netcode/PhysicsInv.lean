import Portfolio.Lib.Machine
import Portfolio.Lib.RealScalar
import Portfolio.Netcode.World

/-!
# Where the ball and the paddles can be

In exact arithmetic every call of `World` keeps the paddles and the ball in the field and the ball
at its speed, whatever time a step covers: the paddles are clamped, the walls and the goals put the
ball back, and a paddle sends it off with at most three quarters of its speed upwards or downwards,
so that it never stops moving to a side.
-/

namespace Portfolio.Netcode

theorem worldConfig_real : ({} : WorldConfig ℝ) = ⟨800, 480, 12, 96, 8, 420, 380, 32⟩ := by
  simp only [Scalar.lit_real]
  norm_num

theorem halfPaddle_real : halfPaddle ({} : WorldConfig ℝ) = 48 := by
  rw [worldConfig_real]
  show (96 : ℝ) / ((2 : ℚ) : ℝ) = 48
  norm_num

/-- The ball moves to a side, at `ball_speed`. -/
def OnCourse (s : WorldState ℝ) : Prop := s.ballVx ≠ 0 ∧ s.ballVx ^ 2 + s.ballVy ^ 2 = 380 ^ 2

def PaddlesInField (s : WorldState ℝ) : Prop :=
  s.leftPaddleY ∈ Set.Icc 48 432 ∧ s.rightPaddleY ∈ Set.Icc 48 432

/-- Everything that holds between two calls. -/
structure InField (s : WorldState ℝ) : Prop where
  paddles : PaddlesInField s
  ballY : s.ballY ∈ Set.Icc 8 472
  ballX : s.ballX ∈ Set.Icc (-8) 808
  course : OnCourse s

/-! ### The parts of `advance` -/

theorem movePaddle_mem (dt y : ℝ) (direction : Int) :
    movePaddle ({} : WorldConfig ℝ) dt y direction ∈ Set.Icc 48 432 := by
  have hhi : ({} : WorldConfig ℝ).height - halfPaddle {} = 432 := by
    rw [halfPaddle_real, worldConfig_real]
    show (480 : ℝ) - 48 = 432
    norm_num
  unfold movePaddle
  rw [hhi, halfPaddle_real]
  exact Scalar.clamp_mem (by norm_num) _

theorem paddlesInField_movePaddles (s : WorldState ℝ) (dt : ℝ) :
    PaddlesInField (movePaddles s {} dt) :=
  ⟨movePaddle_mem dt _ _, movePaddle_mem dt _ _⟩

theorem bounceWalls_ballY (s : WorldState ℝ) : (bounceWalls s {}).ballY ∈ Set.Icc 8 472 := by
  unfold bounceWalls
  rw [worldConfig_real]
  dsimp only
  split
  · exact ⟨le_refl (8 : ℝ), by norm_num⟩
  · next hlow =>
    split
    · constructor
      · show (8 : ℝ) ≤ 480 - 8
        norm_num
      · show (480 : ℝ) - 8 ≤ 472
        norm_num
    · next hhigh =>
      have hlow : 8 < s.ballY := not_le.1 hlow
      have hhigh : s.ballY < (480 : ℝ) - 8 := not_le.1 hhigh
      exact ⟨hlow.le, by linarith⟩

theorem bounceWalls_course {s : WorldState ℝ} (h : OnCourse s) : OnCourse (bounceWalls s {}) := by
  obtain ⟨hvx, hspeed⟩ := h
  unfold bounceWalls
  split
  · refine ⟨hvx, ?_⟩
    show s.ballVx ^ 2 + |s.ballVy| ^ 2 = _
    rw [sq_abs, hspeed]
  · split
    · refine ⟨hvx, ?_⟩
      show s.ballVx ^ 2 + (-|s.ballVy|) ^ 2 = _
      rw [neg_sq, sq_abs, hspeed]
    · exact ⟨hvx, hspeed⟩

/-- A hit sends the ball off with at most `0.75 * 380` vertically. -/
theorem abs_deflect_le (ballY paddleY : ℝ) : |deflect {} ballY paddleY| ≤ 285 := by
  have hlow : (Scalar.lit (-1) : ℝ) = -1 := by
    rw [Scalar.lit_real]
    norm_num
  have hhigh : (Scalar.lit 1 : ℝ) = 1 := by
    rw [Scalar.lit_real]
    norm_num
  obtain ⟨hlo, hhi⟩ := Scalar.clamp_mem (show (-1 : ℝ) ≤ 1 by norm_num)
    ((ballY - paddleY) / halfPaddle {})
  have hdeflect : deflect ({} : WorldConfig ℝ) ballY paddleY =
      Scalar.clamp ((ballY - paddleY) / halfPaddle {}) (-1) 1 * 285 := by
    unfold deflect
    rw [worldConfig_real, hlow, hhigh]
    show _ * (380 : ℝ) * ((3 / 4 : ℚ) : ℝ) = _ * (285 : ℝ)
    push_cast
    ring
  rw [hdeflect, abs_le]
  constructor <;> linarith

/-- The horizontal speed that is left is positive, and the two make up `ball_speed`. -/
theorem restSpeed_deflect {vy : ℝ} (h : |vy| ≤ 285) :
    0 < restSpeed ({} : WorldConfig ℝ) vy ∧ restSpeed {} vy ^ 2 + vy ^ 2 = 380 ^ 2 := by
  have hsq : vy ^ 2 ≤ 285 ^ 2 := sq_le_sq' (neg_le_of_abs_le h) (le_of_abs_le h)
  have hpos : 0 < 380 * 380 - vy * vy := by nlinarith only [hsq]
  have hrest : restSpeed ({} : WorldConfig ℝ) vy = √(380 * 380 - vy * vy) := by
    unfold restSpeed Scalar.max
    rw [worldConfig_real, if_neg]
    · rfl
    · rw [Scalar.lit_real]
      push_cast
      exact not_lt.2 hpos.le
  rw [hrest, Real.sq_sqrt hpos.le]
  exact ⟨Real.sqrt_pos.2 hpos, by ring⟩

theorem bounceLeft_course {s : WorldState ℝ} (h : OnCourse s) : OnCourse (bounceLeft s {}) := by
  obtain ⟨hpos, hspeed⟩ := restSpeed_deflect (abs_deflect_le s.ballY s.leftPaddleY)
  unfold bounceLeft
  dsimp only
  split
  · split
    · exact ⟨hpos.ne', hspeed⟩
    · exact h
  · exact h

theorem bounceRight_course {s : WorldState ℝ} (h : OnCourse s) : OnCourse (bounceRight s {}) := by
  obtain ⟨hpos, hspeed⟩ := restSpeed_deflect (abs_deflect_le s.ballY s.rightPaddleY)
  unfold bounceRight
  dsimp only
  split
  · split
    · refine ⟨neg_ne_zero.2 hpos.ne', ?_⟩
      show (-restSpeed {} _) ^ 2 + _ = _
      rw [neg_sq]
      exact hspeed
    · exact h
  · exact h

/-- Equal paddles and scores. -/
structure SameBoard (s s' : WorldState ℝ) : Prop where
  leftPaddleY : s'.leftPaddleY = s.leftPaddleY
  rightPaddleY : s'.rightPaddleY = s.rightPaddleY
  leftScore : s'.leftScore = s.leftScore
  rightScore : s'.rightScore = s.rightScore

theorem SameBoard.trans {s s' s'' : WorldState ℝ} (h : SameBoard s s') (h' : SameBoard s' s'') :
    SameBoard s s'' :=
  ⟨h'.1.trans h.1, h'.2.trans h.2, h'.3.trans h.3, h'.4.trans h.4⟩

theorem SameBoard.paddles {s s' : WorldState ℝ} (h : SameBoard s s') (hs : PaddlesInField s) :
    PaddlesInField s' := by
  unfold PaddlesInField
  rwa [h.leftPaddleY, h.rightPaddleY]

theorem sameBoard_bounceWalls (s : WorldState ℝ) : SameBoard s (bounceWalls s {}) := by
  unfold bounceWalls
  split
  · exact ⟨rfl, rfl, rfl, rfl⟩
  · split <;> exact ⟨rfl, rfl, rfl, rfl⟩

theorem bounceLeft_board (s : WorldState ℝ) :
    SameBoard s (bounceLeft s {}) ∧ (bounceLeft s {}).ballY = s.ballY := by
  unfold bounceLeft
  dsimp only
  split
  · split <;> exact ⟨⟨rfl, rfl, rfl, rfl⟩, rfl⟩
  · exact ⟨⟨rfl, rfl, rfl, rfl⟩, rfl⟩

theorem bounceRight_board (s : WorldState ℝ) :
    SameBoard s (bounceRight s {}) ∧ (bounceRight s {}).ballY = s.ballY := by
  unfold bounceRight
  dsimp only
  split
  · split <;> exact ⟨⟨rfl, rfl, rfl, rfl⟩, rfl⟩
  · exact ⟨⟨rfl, rfl, rfl, rfl⟩, rfl⟩

/-- At most one of the two scores goes up, by one. -/
def AtMostOnePoint (s s' : WorldState ℝ) : Prop :=
  (s'.leftScore = s.leftScore ∧ s'.rightScore = s.rightScore) ∨
    (s'.leftScore = s.leftScore + 1 ∧ s'.rightScore = s.rightScore) ∨
    (s'.leftScore = s.leftScore ∧ s'.rightScore = s.rightScore + 1)

theorem SameBoard.atMostOnePoint {s s' s'' : WorldState ℝ} (h : SameBoard s s')
    (hp : AtMostOnePoint s' s'') : AtMostOnePoint s s'' := by
  unfold AtMostOnePoint at hp ⊢
  rwa [h.leftScore, h.rightScore] at hp

theorem AtMostOnePoint.sum_le {s s' : WorldState ℝ} (h : AtMostOnePoint s s') :
    s'.leftScore.toNat + s'.rightScore.toNat ≤ s.leftScore.toNat + s.rightScore.toNat + 1 := by
  have hsucc : ∀ score : BitVec 32, (score + 1).toNat ≤ score.toNat + 1 := by
    intro score
    rw [BitVec.toNat_add]
    exact Nat.mod_le _ _
  have hleft := hsucc s.leftScore
  have hright := hsucc s.rightScore
  rcases h with ⟨hl, hr⟩ | ⟨hl, hr⟩ | ⟨hl, hr⟩
  · rw [hl, hr]
    omega
  · rw [hl, hr]
    omega
  · rw [hl, hr]
    omega

/-- The ball is served again from the middle if it has left the field. -/
theorem inField_scorePoint {s : WorldState ℝ} (hp : PaddlesInField s) (hy : s.ballY ∈ Set.Icc 8 472)
    (hc : OnCourse s) : InField (scorePoint s {}) ∧ AtMostOnePoint s (scorePoint s {}) := by
  have hmiddle : (480 : ℝ) / ((2 : ℚ) : ℝ) ∈ Set.Icc (8 : ℝ) 472 := by
    constructor <;> norm_num
  have hcentre : (800 : ℝ) / ((2 : ℚ) : ℝ) ∈ Set.Icc (-8 : ℝ) 808 := by
    constructor <;> norm_num
  have hserve : ∀ vx : ℝ, vx ^ 2 = 380 ^ 2 → vx ≠ 0 → ∀ s : WorldState ℝ, PaddlesInField s →
      InField (serve s ⟨800, 480, 12, 96, 8, 420, 380, 32⟩ vx) := by
    intro vx hsq hne s hp
    refine ⟨hp, hmiddle, hcentre, hne, ?_⟩
    show vx ^ 2 + ((0 : ℚ) : ℝ) ^ 2 = 380 ^ 2
    rw [hsq]
    norm_num
  unfold scorePoint
  rw [worldConfig_real]
  dsimp only
  split
  · exact ⟨hserve 380 rfl (by norm_num) _ hp, .inr (.inr ⟨rfl, rfl⟩)⟩
  · next hleft =>
    split
    · refine ⟨hserve (-380 : ℝ) (neg_sq _) (by norm_num) _ hp, .inr (.inl ⟨rfl, rfl⟩)⟩
    · next hright =>
      have hleft : -8 ≤ s.ballX := not_lt.1 hleft
      have hright : s.ballX ≤ (800 : ℝ) + 8 := not_lt.1 hright
      exact ⟨⟨hp, hy, ⟨hleft, by linarith⟩, hc⟩, .inl ⟨rfl, rfl⟩⟩

/-! ### Steps and runs -/

theorem inField_advance {s : WorldState ℝ} (h : InField s) (dt : ℝ) :
    InField (advance s {} dt) ∧ AtMostOnePoint s (advance s {} dt) := by
  let moved := moveBall (movePaddles s {} dt) dt
  have hmoved : PaddlesInField moved := paddlesInField_movePaddles s dt
  have hwalls := sameBoard_bounceWalls moved
  obtain ⟨hleft, hly⟩ := bounceLeft_board (bounceWalls moved {})
  obtain ⟨hright, hry⟩ := bounceRight_board (bounceLeft (bounceWalls moved {}) {})
  have hboard := (hwalls.trans hleft).trans hright
  have hcourse : OnCourse moved := h.course
  have hy := bounceWalls_ballY moved
  rw [← hly, ← hry] at hy
  obtain ⟨hin, hpoint⟩ := inField_scorePoint (hboard.paddles hmoved) hy
    (bounceRight_course (bounceLeft_course (bounceWalls_course hcourse)))
  exact ⟨hin, hboard.atMostOnePoint hpoint⟩

theorem inField_initialState : InField (initialState ℝ) := by
  unfold initialState
  rw [worldConfig_real]
  refine ⟨⟨⟨?_, ?_⟩, ⟨?_, ?_⟩⟩, ⟨?_, ?_⟩, ⟨?_, ?_⟩, ?_, ?_⟩ <;> norm_num

inductive WorldCall where
  | setPlayerInput (side : PlayerSide) (direction : Int)
  | step (dt : ℝ)

namespace World

noncomputable def calls : Machine (World ℝ) WorldCall (WorldState ℝ) where
  init := {}
  step world
    | .setPlayerInput side direction => (world.setPlayerInput side direction, [])
    | .step dt => (world.step dt, [(world.step dt).state])

theorem inField_step {world : World ℝ} (hconfig : world.config = {}) (h : InField world.state) (dt : ℝ) :
    InField (world.step dt).state ∧ AtMostOnePoint world.state (world.step dt).state := by
  obtain ⟨hin, hpoint⟩ := inField_advance h dt
  rw [← hconfig] at hin hpoint
  exact ⟨⟨hin.paddles, hin.ballY, hin.ballX, hin.course⟩, hpoint⟩

theorem inField_setPlayerInput {world : World ℝ} (h : InField world.state) (side : PlayerSide)
    (direction : Int) : InField (world.setPlayerInput side direction).state := by
  cases side with
  | left => exact ⟨h.paddles, h.ballY, h.ballX, h.course⟩
  | right => exact ⟨h.paddles, h.ballY, h.ballX, h.course⟩
  | spectator => exact h

theorem setPlayerInput_config (world : World ℝ) (side : PlayerSide) (direction : Int) :
    (world.setPlayerInput side direction).config = world.config := by
  cases side <;> rfl

theorem run_inField (inputs : List WorldCall) :
    (calls.run inputs).1.config = {} ∧ InField (calls.run inputs).1.state := by
  refine calls.run_inv (P := fun _ _ world => world.config = {} ∧ InField world.state)
    ⟨rfl, inField_initialState⟩ ?_ inputs
  rintro is os world call ⟨hconfig, hin⟩
  cases call with
  | setPlayerInput side direction =>
    exact ⟨(setPlayerInput_config world side direction).trans hconfig,
      inField_setPlayerInput hin side direction⟩
  | step dt => exact ⟨hconfig, (inField_step hconfig hin dt).1⟩

/-- Every state that calls reach is in the field, and a step from it scores at most one point. -/
theorem physics_invariant (inputs : List WorldCall) :
    InField (calls.run inputs).1.state ∧ ∀ dt : ℝ,
      AtMostOnePoint (calls.run inputs).1.state ((calls.run inputs).1.step dt).state ∧
      ((calls.run inputs).1.step dt).state.leftScore.toNat +
          ((calls.run inputs).1.step dt).state.rightScore.toNat ≤
        (calls.run inputs).1.state.leftScore.toNat + (calls.run inputs).1.state.rightScore.toNat + 1 := by
  obtain ⟨hconfig, hin⟩ := run_inField inputs
  refine ⟨hin, fun dt => ?_⟩
  have hpoint := (inField_step hconfig hin dt).2
  exact ⟨hpoint, hpoint.sum_le⟩

end World
end Portfolio.Netcode
