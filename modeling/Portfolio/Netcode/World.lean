import Portfolio.Lib.Scalar

/-!
# `core::World`

The authoritative Pong world of `netcode-core/core`: `WorldState`, `physics::advance` and the
locked operations of `World`. `double` is an arbitrary `Scalar`; `tick` is a natural number, the 64
bits of the source are not exhausted by any run.
-/

namespace Portfolio.Netcode

/-- `WorldState`; the coordinate type is a parameter. -/
structure WorldState (α : Type) where
  ballX : α
  ballY : α
  ballVx : α
  ballVy : α
  leftPaddleY : α
  rightPaddleY : α
  leftScore : BitVec 32 := 0
  rightScore : BitVec 32 := 0
  tick : Nat := 0
  leftDirection : Int := 0
  rightDirection : Int := 0
  deriving DecidableEq, Repr

/-- `s'` differs from `s` in coordinates and scores only. -/
def SameInputs {α : Type} (s s' : WorldState α) : Prop :=
  s'.tick = s.tick ∧ s'.leftDirection = s.leftDirection ∧ s'.rightDirection = s.rightDirection

theorem SameInputs.trans {α : Type} {s s' s'' : WorldState α} (h : SameInputs s s') (h' : SameInputs s' s'') :
    SameInputs s s'' :=
  ⟨h'.1.trans h.1, h'.2.1.trans h.2.1, h'.2.2.trans h.2.2⟩

inductive PlayerSide where
  | left
  | right
  | spectator
  deriving DecidableEq, Repr

section
variable (α : Type) [Scalar α]

structure WorldConfig where
  width : α := Scalar.lit 800
  height : α := Scalar.lit 480
  paddleWidth : α := Scalar.lit 12
  paddleHeight : α := Scalar.lit 96
  ballRadius : α := Scalar.lit 8
  paddleSpeed : α := Scalar.lit 420
  ballSpeed : α := Scalar.lit 380
  paddleXOffset : α := Scalar.lit 32

/-- `World::World` -/
def initialState : WorldState α where
  ballX := ({} : WorldConfig α).width / Scalar.lit 2
  ballY := ({} : WorldConfig α).height / Scalar.lit 2
  ballVx := ({} : WorldConfig α).ballSpeed
  ballVy := Scalar.lit 0
  leftPaddleY := ({} : WorldConfig α).height / Scalar.lit 2
  rightPaddleY := ({} : WorldConfig α).height / Scalar.lit 2

structure World where
  config : WorldConfig α := {}
  state : WorldState α := initialState α

end

section
variable {α : Type} [Scalar α]

/-! ### `physics::advance` -/

def isPaddleCollision (ballY paddleY halfPaddle ballRadius : α) : Bool :=
  decide (Scalar.abs (ballY - paddleY) ≤ halfPaddle + ballRadius)

def clampDirection (direction : Int) : α :=
  if 0 < direction then Scalar.lit 1 else if direction < 0 then Scalar.lit (-1) else Scalar.lit 0

def halfPaddle (config : WorldConfig α) : α := config.paddleHeight / Scalar.lit 2

def movePaddle (config : WorldConfig α) (dt y : α) (direction : Int) : α :=
  Scalar.clamp (y + clampDirection direction * config.paddleSpeed * dt) (halfPaddle config)
    (config.height - halfPaddle config)

def movePaddles (state : WorldState α) (config : WorldConfig α) (dt : α) : WorldState α :=
  { state with
    leftPaddleY := movePaddle config dt state.leftPaddleY state.leftDirection
    rightPaddleY := movePaddle config dt state.rightPaddleY state.rightDirection }

def moveBall (state : WorldState α) (dt : α) : WorldState α :=
  { state with
    ballX := state.ballX + state.ballVx * dt
    ballY := state.ballY + state.ballVy * dt }

def bounceWalls (state : WorldState α) (config : WorldConfig α) : WorldState α :=
  if state.ballY ≤ config.ballRadius then
    { state with ballY := config.ballRadius, ballVy := Scalar.abs state.ballVy }
  else if config.height - config.ballRadius ≤ state.ballY then
    { state with ballY := config.height - config.ballRadius, ballVy := -Scalar.abs state.ballVy }
  else state

/-- The vertical speed after a hit, from where the ball meets the paddle. -/
def deflect (config : WorldConfig α) (ballY paddleY : α) : α :=
  Scalar.clamp ((ballY - paddleY) / halfPaddle config) (Scalar.lit (-1)) (Scalar.lit 1) *
    config.ballSpeed * Scalar.lit (3 / 4)

/-- The horizontal speed that keeps the ball at `ball_speed`. -/
def restSpeed (config : WorldConfig α) (vy : α) : α :=
  Scalar.sqrt (Scalar.max (config.ballSpeed * config.ballSpeed - vy * vy) (Scalar.lit 0))

def bounceLeft (state : WorldState α) (config : WorldConfig α) : WorldState α :=
  let leftPaddleX := config.paddleXOffset + config.paddleWidth / Scalar.lit 2
  if state.ballVx < Scalar.lit 0 ∧ state.ballX - config.ballRadius ≤ leftPaddleX then
    if isPaddleCollision state.ballY state.leftPaddleY (halfPaddle config) config.ballRadius then
      let vy := deflect config state.ballY state.leftPaddleY
      { state with
        ballX := leftPaddleX + config.ballRadius
        ballVy := vy
        ballVx := restSpeed config vy }
    else state
  else state

def bounceRight (state : WorldState α) (config : WorldConfig α) : WorldState α :=
  let rightPaddleX := config.width - config.paddleXOffset - config.paddleWidth / Scalar.lit 2
  if Scalar.lit 0 < state.ballVx ∧ rightPaddleX ≤ state.ballX + config.ballRadius then
    if isPaddleCollision state.ballY state.rightPaddleY (halfPaddle config) config.ballRadius then
      let vy := deflect config state.ballY state.rightPaddleY
      { state with
        ballX := rightPaddleX - config.ballRadius
        ballVy := vy
        ballVx := -restSpeed config vy }
    else state
  else state

/-- The ball in the middle again, with horizontal speed `vx`. -/
def serve (state : WorldState α) (config : WorldConfig α) (vx : α) : WorldState α :=
  { state with
    ballX := config.width / Scalar.lit 2
    ballY := config.height / Scalar.lit 2
    ballVx := vx
    ballVy := Scalar.lit 0 }

def scorePoint (state : WorldState α) (config : WorldConfig α) : WorldState α :=
  if state.ballX < -config.ballRadius then
    serve { state with rightScore := state.rightScore + 1 } config config.ballSpeed
  else if config.width + config.ballRadius < state.ballX then
    serve { state with leftScore := state.leftScore + 1 } config (-config.ballSpeed)
  else state

def advance (state : WorldState α) (config : WorldConfig α) (dt : α) : WorldState α :=
  let state := moveBall (movePaddles state config dt) dt
  let state := bounceLeft (bounceWalls state config) config
  scorePoint (bounceRight state config) config

/-! ### Operations of `World` -/

namespace World

def step (world : World α) (dt : α) : World α :=
  let state := advance world.state world.config dt
  { world with state := { state with tick := state.tick + 1 } }

def setPlayerInput (world : World α) (side : PlayerSide) (direction : Int) : World α :=
  let clamped := max (-1) (min direction 1)
  match side with
  | .left => { world with state := { world.state with leftDirection := clamped } }
  | .right => { world with state := { world.state with rightDirection := clamped } }
  | .spectator => world

end World

/-! ### What a step keeps -/

theorem sameInputs_bounceWalls (s : WorldState α) (config : WorldConfig α) :
    SameInputs s (bounceWalls s config) := by
  unfold bounceWalls
  split
  · exact ⟨rfl, rfl, rfl⟩
  · split <;> exact ⟨rfl, rfl, rfl⟩

theorem sameInputs_bounceLeft (s : WorldState α) (config : WorldConfig α) :
    SameInputs s (bounceLeft s config) := by
  unfold bounceLeft
  dsimp only
  split
  · split <;> exact ⟨rfl, rfl, rfl⟩
  · exact ⟨rfl, rfl, rfl⟩

theorem sameInputs_bounceRight (s : WorldState α) (config : WorldConfig α) :
    SameInputs s (bounceRight s config) := by
  unfold bounceRight
  dsimp only
  split
  · split <;> exact ⟨rfl, rfl, rfl⟩
  · exact ⟨rfl, rfl, rfl⟩

theorem sameInputs_scorePoint (s : WorldState α) (config : WorldConfig α) :
    SameInputs s (scorePoint s config) := by
  unfold scorePoint
  split
  · exact ⟨rfl, rfl, rfl⟩
  · split <;> exact ⟨rfl, rfl, rfl⟩

theorem sameInputs_advance (s : WorldState α) (config : WorldConfig α) (dt : α) :
    SameInputs s (advance s config dt) := by
  have hmove : SameInputs s (moveBall (movePaddles s config dt) dt) := ⟨rfl, rfl, rfl⟩
  unfold advance
  exact (((hmove.trans (sameInputs_bounceWalls _ _)).trans (sameInputs_bounceLeft _ _)).trans
    (sameInputs_bounceRight _ _)).trans (sameInputs_scorePoint _ _)

theorem World.step_tick (world : World α) (dt : α) :
    (world.step dt).state.tick = world.state.tick + 1 := by
  simp only [World.step, (sameInputs_advance world.state world.config dt).1]

theorem World.setPlayerInput_tick (world : World α) (side : PlayerSide) (direction : Int) :
    (world.setPlayerInput side direction).state.tick = world.state.tick := by
  cases side <;> rfl

end

end Portfolio.Netcode
