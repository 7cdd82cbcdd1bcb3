import Portfolio.Lib.Machine
import Portfolio.Netcode.World

/-!
# `pong::PongGame` of lab 1.4

The first version of the Pong simulation, with the constants in the class, the directions beside the
snapshot and a helper that puts the ball back. `toWorldState` reads the game as the state of a
`core::World`; every stage of `update` is then a stage of `physics::advance`
(`toWorldState_update`), and the two programs give the same snapshots.
-/

namespace Portfolio.Netcode

structure GameSnapshot (α : Type) where
  ballX : α
  ballY : α
  ballVx : α
  ballVy : α
  leftPaddleY : α
  rightPaddleY : α
  leftScore : BitVec 32 := 0
  rightScore : BitVec 32 := 0
  tick : Nat := 0
  leftDirection : Int := 0
  rightDirection : Int := 0
  deriving DecidableEq, Repr

namespace PongGame
variable {α : Type} [Scalar α]

def width : α := Scalar.lit 800
def height : α := Scalar.lit 480
def paddleWidth : α := Scalar.lit 12
def paddleHeight : α := Scalar.lit 96
def ballRadius : α := Scalar.lit 8
def paddleSpeed : α := Scalar.lit 420
def ballSpeed : α := Scalar.lit 380
def paddleXOffset : α := Scalar.lit 32

end PongGame

/-- The game with the defaults of its constructor; `last_snapshot_` is what `update` returns. -/
structure PongGame (α : Type) [Scalar α] where
  leftInput : Int := 0
  rightInput : Int := 0
  leftPaddleY : α := PongGame.height / Scalar.lit 2
  rightPaddleY : α := PongGame.height / Scalar.lit 2
  ballX : α := PongGame.width / Scalar.lit 2
  ballY : α := PongGame.height / Scalar.lit 2
  ballVx : α := PongGame.ballSpeed
  ballVy : α := Scalar.lit 0
  leftScore : BitVec 32 := 0
  rightScore : BitVec 32 := 0
  tickCounter : Nat := 0
  nextDirection : Int := -1

namespace PongGame
variable {α : Type} [Scalar α]

def snapshot (g : PongGame α) : GameSnapshot α where
  ballX := g.ballX
  ballY := g.ballY
  ballVx := g.ballVx
  ballVy := g.ballVy
  leftPaddleY := g.leftPaddleY
  rightPaddleY := g.rightPaddleY
  leftScore := g.leftScore
  rightScore := g.rightScore
  tick := g.tickCounter
  leftDirection := g.leftInput
  rightDirection := g.rightInput

def setPlayerDirection (g : PongGame α) (side : PlayerSide) (direction : Int) : PongGame α :=
  let clamped := max (-1) (min direction 1)
  match side with
  | .left => { g with leftInput := clamped }
  | .right => { g with rightInput := clamped }
  | .spectator => g

/-! ### `update` -/

def halfPaddle : α := paddleHeight / Scalar.lit 2

/-- `static_cast<double>` of an `int` -/
def toDouble (n : Int) : α := Scalar.lit n

def movePaddle (dt y : α) (input : Int) : α :=
  Scalar.clamp (y + toDouble input * paddleSpeed * dt) halfPaddle (height - halfPaddle)

def movePaddles (g : PongGame α) (dt : α) : PongGame α :=
  { g with
    leftPaddleY := movePaddle dt g.leftPaddleY g.leftInput
    rightPaddleY := movePaddle dt g.rightPaddleY g.rightInput }

def moveBall (g : PongGame α) (dt : α) : PongGame α :=
  { g with
    ballX := g.ballX + g.ballVx * dt
    ballY := g.ballY + g.ballVy * dt }

def bounceWalls (g : PongGame α) : PongGame α :=
  if g.ballY ≤ ballRadius then { g with ballY := ballRadius, ballVy := Scalar.abs g.ballVy }
  else if height - ballRadius ≤ g.ballY then
    { g with ballY := height - ballRadius, ballVy := -Scalar.abs g.ballVy }
  else g

def bounceLeft (g : PongGame α) : PongGame α :=
  let leftPaddleX : α := paddleXOffset + paddleWidth / Scalar.lit 2
  if g.ballVx < Scalar.lit 0 ∧ g.ballX - ballRadius ≤ leftPaddleX then
    if Scalar.abs (g.ballY - g.leftPaddleY) ≤ halfPaddle + ballRadius then
      let relative := Scalar.clamp ((g.ballY - g.leftPaddleY) / halfPaddle) (Scalar.lit (-1)) (Scalar.lit 1)
      let speed := ballSpeed
      let ballVy := relative * speed * Scalar.lit (3 / 4)
      { g with
        ballX := leftPaddleX + ballRadius
        ballVy := ballVy
        ballVx := Scalar.sqrt (Scalar.max (speed * speed - ballVy * ballVy) (Scalar.lit 0)) }
    else g
  else g

def bounceRight (g : PongGame α) : PongGame α :=
  let rightPaddleX : α := width - paddleXOffset - paddleWidth / Scalar.lit 2
  if Scalar.lit 0 < g.ballVx ∧ rightPaddleX ≤ g.ballX + ballRadius then
    if Scalar.abs (g.ballY - g.rightPaddleY) ≤ halfPaddle + ballRadius then
      let relative := Scalar.clamp ((g.ballY - g.rightPaddleY) / halfPaddle) (Scalar.lit (-1)) (Scalar.lit 1)
      let speed := ballSpeed
      let ballVy := relative * speed * Scalar.lit (3 / 4)
      { g with
        ballX := rightPaddleX - ballRadius
        ballVy := ballVy
        ballVx := -Scalar.sqrt (Scalar.max (speed * speed - ballVy * ballVy) (Scalar.lit 0)) }
    else g
  else g

/-- `std::copysign(1.0, x)` as an `int`, for an `x` that is not zero -/
def signOf (x : α) : Int := if x < Scalar.lit 0 then -1 else 1

def resetBall (g : PongGame α) (horizontalDirection : Int) : PongGame α :=
  let direction : α := toDouble horizontalDirection
  let ballVx := Scalar.clamp direction (Scalar.lit (-1)) (Scalar.lit 1) * ballSpeed
  let ballVx := if Scalar.eq ballVx (Scalar.lit 0) then ballSpeed * toDouble g.nextDirection else ballVx
  { g with
    ballX := width / Scalar.lit 2
    ballY := height / Scalar.lit 2
    ballVx := ballVx
    ballVy := Scalar.lit 0
    nextDirection := -signOf ballVx }

def scorePoint (g : PongGame α) : PongGame α :=
  if g.ballX < -ballRadius then resetBall { g with rightScore := g.rightScore + 1 } 1
  else if width + ballRadius < g.ballX then resetBall { g with leftScore := g.leftScore + 1 } (-1)
  else g

def update (g : PongGame α) (dt : α) : PongGame α × GameSnapshot α :=
  let g := moveBall (movePaddles g dt) dt
  let g := bounceLeft (bounceWalls g)
  let g := scorePoint (bounceRight g)
  let g := { g with tickCounter := g.tickCounter + 1 }
  (g, g.snapshot)

end PongGame

/-- A direction input for a side, or a step of the simulation. -/
inductive PongEvent (α : Type) where
  | direction (side : PlayerSide) (direction : Int)
  | update (dt : α)

section
variable (α : Type) [Scalar α]

/-- `PongGame`, with the snapshots that `update` returns -/
def pongGameMachine : Machine (PongGame α) (PongEvent α) (GameSnapshot α) where
  init := {}
  step g
    | .direction side direction => (g.setPlayerDirection side direction, [])
    | .update dt => ((g.update dt).1, [(g.update dt).2])

/-- `core::World`, with the states that `step` returns -/
def worldMachine : Machine (World α) (PongEvent α) (WorldState α) where
  init := {}
  step w
    | .direction side direction => (w.setPlayerInput side direction, [])
    | .update dt => (w.step dt, [(w.step dt).state])

end

/-! ### The game as a world -/

section
variable {α : Type} [Scalar α]

/-- The fields of a snapshot as those of a `core::WorldState`. -/
def GameSnapshot.toWorldState (snapshot : GameSnapshot α) : WorldState α where
  ballX := snapshot.ballX
  ballY := snapshot.ballY
  ballVx := snapshot.ballVx
  ballVy := snapshot.ballVy
  leftPaddleY := snapshot.leftPaddleY
  rightPaddleY := snapshot.rightPaddleY
  leftScore := snapshot.leftScore
  rightScore := snapshot.rightScore
  tick := snapshot.tick
  leftDirection := snapshot.leftDirection
  rightDirection := snapshot.rightDirection

namespace PongGame

def toWorldState (g : PongGame α) : WorldState α := g.snapshot.toWorldState

/-- The game keeps clamped directions only. -/
structure Clamped (g : PongGame α) : Prop where
  left : g.leftInput = -1 ∨ g.leftInput = 0 ∨ g.leftInput = 1
  right : g.rightInput = -1 ∨ g.rightInput = 0 ∨ g.rightInput = 1

theorem toDouble_eq_clampDirection {n : Int} (h : n = -1 ∨ n = 0 ∨ n = 1) :
    (toDouble n : α) = clampDirection n := by
  rcases h with rfl | rfl | rfl
  · rfl
  · rfl
  · rfl

theorem toWorldState_movePaddles {g : PongGame α} (h : g.Clamped) (dt : α) :
    (g.movePaddles dt).toWorldState = Netcode.movePaddles g.toWorldState {} dt := by
  have hleft : movePaddle dt g.leftPaddleY g.leftInput =
      Netcode.movePaddle {} dt g.leftPaddleY g.leftInput := by
    rw [movePaddle, toDouble_eq_clampDirection h.left]
    rfl
  have hright : movePaddle dt g.rightPaddleY g.rightInput =
      Netcode.movePaddle {} dt g.rightPaddleY g.rightInput := by
    rw [movePaddle, toDouble_eq_clampDirection h.right]
    rfl
  simp only [toWorldState, snapshot, movePaddles, Netcode.movePaddles, GameSnapshot.toWorldState, hleft, hright]

theorem toWorldState_bounceWalls (g : PongGame α) :
    g.bounceWalls.toWorldState = Netcode.bounceWalls g.toWorldState {} := by
  unfold bounceWalls Netcode.bounceWalls
  rw [apply_ite toWorldState, apply_ite toWorldState]
  rfl

theorem toWorldState_bounceLeft (g : PongGame α) :
    g.bounceLeft.toWorldState = Netcode.bounceLeft g.toWorldState {} := by
  unfold bounceLeft Netcode.bounceLeft
  dsimp only
  rw [apply_ite toWorldState, apply_ite toWorldState]
  simp only [isPaddleCollision, decide_eq_true_eq]
  rfl

theorem toWorldState_bounceRight (g : PongGame α) :
    g.bounceRight.toWorldState = Netcode.bounceRight g.toWorldState {} := by
  unfold bounceRight Netcode.bounceRight
  dsimp only
  rw [apply_ite toWorldState, apply_ite toWorldState]
  simp only [isPaddleCollision, decide_eq_true_eq]
  rfl

variable [LawfulScalar α]

/-- A speed that is a literal other than 0 is not replaced by the next direction. -/
theorem toWorldState_resetBall {g : PongGame α} {n : Int} {q : ℚ} (hq : q ≠ 0)
    (h : Scalar.clamp (toDouble n) (Scalar.lit (-1)) (Scalar.lit 1) * ballSpeed = (Scalar.lit q : α)) :
    (g.resetBall n).toWorldState = serve g.toWorldState {} (Scalar.lit q) := by
  have hne : Scalar.eq (Scalar.lit q : α) (Scalar.lit 0) = false := by
    simp only [Scalar.eq, Bool.and_eq_false_iff, decide_eq_false_iff_not, LawfulScalar.lit_le]
    rcases lt_or_gt_of_ne hq with hq | hq
    · exact .inr hq.not_ge
    · exact .inl hq.not_ge
  unfold resetBall
  dsimp only
  rw [h, hne]
  rfl

theorem clamp_right : Scalar.clamp (toDouble 1) (Scalar.lit (-1)) (Scalar.lit 1) * ballSpeed =
    (Scalar.lit 380 : α) := by
  show Scalar.clamp (Scalar.lit 1) _ _ * ballSpeed = _
  rw [Scalar.clamp_lit (by decide) (by decide), LawfulScalar.one_mul]
  rfl

theorem clamp_left : Scalar.clamp (toDouble (-1)) (Scalar.lit (-1)) (Scalar.lit 1) * ballSpeed =
    (Scalar.lit (-380) : α) := by
  show Scalar.clamp (Scalar.lit (-1)) _ _ * ballSpeed = _
  rw [Scalar.clamp_lit (by decide) (by decide), LawfulScalar.neg_one_mul, ballSpeed, LawfulScalar.neg_lit]

theorem toWorldState_scorePoint (g : PongGame α) :
    g.scorePoint.toWorldState = Netcode.scorePoint g.toWorldState {} := by
  unfold scorePoint Netcode.scorePoint
  have hserve : -(Scalar.lit 380 : α) = Scalar.lit (-380) := LawfulScalar.neg_lit 380
  rw [apply_ite toWorldState, apply_ite toWorldState, toWorldState_resetBall (by decide) clamp_right,
    toWorldState_resetBall (by decide) clamp_left, ← hserve]
  rfl

/-- One step of the game is one step of a world with the default configuration. -/
theorem toWorldState_update {g : PongGame α} (h : g.Clamped) (dt : α) :
    (g.update dt).1.toWorldState = (World.step { state := g.toWorldState } dt).state := by
  have hadvance : (scorePoint (bounceRight (bounceLeft (bounceWalls
      (moveBall (movePaddles g dt) dt))))).toWorldState = advance g.toWorldState {} dt := by
    have hball : ∀ g : PongGame α, (g.moveBall dt).toWorldState = Netcode.moveBall g.toWorldState dt :=
      fun _ => rfl
    rw [toWorldState_scorePoint, toWorldState_bounceRight, toWorldState_bounceLeft,
      toWorldState_bounceWalls, hball, toWorldState_movePaddles h]
    rfl
  unfold World.step
  dsimp only
  rw [← hadvance]
  rfl

end PongGame

/-- A game and a world that stand at the same point. -/
structure SamePoint (g : PongGame α) (w : World α) : Prop where
  clamped : g.Clamped
  world : w = { state := g.toWorldState }

theorem samePoint_direction {g : PongGame α} {w : World α} (h : SamePoint g w) (side : PlayerSide)
    (direction : Int) : SamePoint (g.setPlayerDirection side direction) (w.setPlayerInput side direction) := by
  have hclamp : max (-1) (min direction 1) = -1 ∨ max (-1) (min direction 1) = 0 ∨
      max (-1) (min direction 1) = 1 := by omega
  rw [h.world]
  cases side with
  | left => exact ⟨⟨hclamp, h.clamped.right⟩, rfl⟩
  | right => exact ⟨⟨h.clamped.left, hclamp⟩, rfl⟩
  | spectator => exact ⟨h.clamped, rfl⟩

variable [LawfulScalar α]

theorem samePoint_update {g : PongGame α} {w : World α} (h : SamePoint g w) (dt : α) :
    SamePoint (g.update dt).1 (w.step dt) ∧ (g.update dt).2.toWorldState = (w.step dt).state := by
  have hstep := PongGame.toWorldState_update h.clamped dt
  obtain ⟨-, hl, hr⟩ := sameInputs_advance g.toWorldState {} dt
  have hleft : (g.update dt).1.leftInput = g.leftInput := (congrArg (·.leftDirection) hstep).trans hl
  have hright : (g.update dt).1.rightInput = g.rightInput := (congrArg (·.rightDirection) hstep).trans hr
  rw [h.world]
  refine ⟨⟨⟨?_, ?_⟩, ?_⟩, hstep⟩
  · rw [hleft]
    exact h.clamped.left
  · rw [hright]
    exact h.clamped.right
  · rw [hstep]
    rfl

variable (α) in
/-- The two implementations of Pong return the same snapshots, whatever the inputs and steps. -/
theorem pong_implementations_agree (events : List (PongEvent α)) :
    ((pongGameMachine α).run events).2.map GameSnapshot.toWorldState = ((worldMachine α).run events).2 := by
  refine ((pongGameMachine α).run_sim (worldMachine α) (R := SamePoint) GameSnapshot.toWorldState
    ⟨⟨.inr (.inl rfl), .inr (.inl rfl)⟩, rfl⟩ ?_ events).2
  intro g w event h
  cases event with
  | direction side direction => exact ⟨samePoint_direction h side direction, rfl⟩
  | update dt =>
    obtain ⟨hsame, hout⟩ := samePoint_update h dt
    exact ⟨hsame, congrArg (fun x => [x]) hout⟩

end

/-- The right paddle has moved away and the left side scores, in both programs. -/
theorem pong_implementations_agree_score :
    ((pongGameMachine ℚ).run [.direction .left 5, .direction .right (-7), .update (1 / 8), .update 1]).2.map
        GameSnapshot.toWorldState =
      ((worldMachine ℚ).run [.direction .left 5, .direction .right (-7), .update (1 / 8), .update 1]).2 ∧
    ((worldMachine ℚ).run [.direction .left 5, .direction .right (-7), .update (1 / 8), .update 1]).2.map
      (·.leftScore) = [0, 1] :=
  ⟨pong_implementations_agree ℚ _, by decide +kernel⟩

end Portfolio.Netcode
