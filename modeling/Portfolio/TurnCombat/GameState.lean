import Portfolio.Lib.Machine

/-!
# Turn-based combat

`game::GameState` and the loop that drives it (`lab1.2-turn-combat`). The damage of an attack is a
draw from `uniform_int_distribution(5, 15)`; the draw is an argument. Every operation holds the mutex,
so calls from the accept, client and loop threads are a sequence of operations.
-/

namespace Portfolio.TurnCombat

/-! ### Players -/

structure Player where
  id : Int := -1
  name : String := ""
  health : Int := 100
  connected : Bool := false
  deriving DecidableEq, Repr

namespace Player

def isAlive (p : Player) : Bool := decide (0 < p.health)

def setConnected (connected : Bool) (p : Player) : Player := { p with connected := connected }

def resetHealth (health : Int) (p : Player) : Player := { p with health := health }

def applyDamage (amount : Int) (p : Player) : Player := { p with health := max 0 (p.health - amount) }

end Player

/-! ### The state -/

structure GameState where
  players : List Player := []
  currentTurnIndex : Nat := 0
  running : Bool := false
  gameOver : Bool := false
  winnerId : Option Int := none
  lastAction : String := ""
  deriving DecidableEq, Repr

/-- `dist(rng)` -/
def damage (draw : Nat) : Int := 5 + draw % 11

namespace GameState

def indexForPlayer (s : GameState) (id : Int) : Option Nat := s.players.findIdx? (·.id = id)

def addOrUpdatePlayer (s : GameState) (id : Nat) (name : String) : GameState :=
  let players := s.players ++ List.replicate (id + 1 - s.players.length) ({} : Player)
  { s with
    players := players.modify id fun p => { p with id := id, name := name, connected := true, health := 100 }
    lastAction := "Player " ++ toString (id + 1) ++ " joined the lobby." }

def markPlayerDisconnected (s : GameState) (id : Int) : GameState :=
  match s.indexForPlayer id with
  | none => s
  | some index => match s.players[index]? with
    | none => s
    | some player =>
      let players := s.players.modify index (Player.setConnected false)
      if s.running && !s.gameOver then
        let winner := players.find? fun candidate => candidate.id ≠ player.id ∧ candidate.connected
        { s with
          players := players
          gameOver := true
          running := false
          lastAction := player.name ++ " disconnected."
          winnerId := (winner.map (·.id)).or s.winnerId }
      else { s with players := players }

def startIfReady (s : GameState) : GameState :=
  if s.running || s.gameOver then s
  else if s.players.length < 2 then s
  else if s.players.all fun p => decide (0 ≤ p.id) && p.connected then
    { s with
      running := true
      gameOver := false
      winnerId := none
      currentTurnIndex := 0
      players := s.players.map (Player.resetHealth 100)
      lastAction := "Battle started." }
  else s

/-- Attacker and defender, with their indices, if the guards of `apply_attack` let the attack pass. -/
def duel (s : GameState) (attackerId : Int) : Option ((Nat × Player) × (Nat × Player)) :=
  if !s.running || s.gameOver || s.players.length < 2 then none
  else match s.indexForPlayer attackerId with
    | none => none
    | some attackerIndex =>
      if attackerIndex ≠ s.currentTurnIndex then none
      else
        let defenderIndex := (attackerIndex + 1) % s.players.length
        match s.players[attackerIndex]?, s.players[defenderIndex]? with
        | some attacker, some defender =>
          if !defender.connected then none else some ((attackerIndex, attacker), (defenderIndex, defender))
        | _, _ => none

def applyAttack (s : GameState) (attackerId : Int) (draw : Nat) : GameState :=
  match s.duel attackerId with
  | none => s
  | some ((_, attacker), (defenderIndex, defender)) =>
    let hit := defender.applyDamage (damage draw)
    let s := { s with players := s.players.set defenderIndex hit }
    if !hit.isAlive then
      { s with
        gameOver := true
        running := false
        winnerId := some attacker.id
        lastAction := attacker.name ++ " defeated " ++ defender.name ++ "!" }
    else
      { s with
        currentTurnIndex := defenderIndex
        lastAction := attacker.name ++ " attacked " ++ defender.name ++ " (-" ++ toString (damage draw) ++
          " HP)." }

def advanceTick (s : GameState) : GameState :=
  if !s.running || s.gameOver then s
  else if s.players.all fun p => p.connected && p.isAlive then s
  else
    let winner := s.players.find? fun p => p.connected && p.isAlive
    let winnerId := (winner.map (·.id)).or s.winnerId
    { s with
      running := false
      gameOver := true
      winnerId := winnerId
      lastAction := if winnerId.isNone then "All players defeated." else s.lastAction }

end GameState

/-! ### Runs -/

inductive Op where
  | addOrUpdatePlayer (id : Nat) (name : String)
  | markPlayerDisconnected (id : Int)
  | startIfReady
  | applyAttack (attackerId : Int) (draw : Nat)
  | advanceTick
  deriving DecidableEq, Repr

def Op.exec (s : GameState) : Op → GameState
  | .addOrUpdatePlayer id name => s.addOrUpdatePlayer id name
  | .markPlayerDisconnected id => s.markPlayerDisconnected id
  | .startIfReady => s.startIfReady
  | .applyAttack attackerId draw => s.applyAttack attackerId draw
  | .advanceTick => s.advanceTick

/-- The attack that an operation carries out, by its attacker. -/
def Op.accepted (s : GameState) : Op → List Int
  | .applyAttack attackerId _ => if (s.duel attackerId).isSome then [attackerId] else []
  | _ => []

/-- A state from its construction; the outputs are the attackers of the accepted attacks. -/
def battleMachine : Machine GameState Op Int where
  init := {}
  step s op := (op.exec s, op.accepted s)

/-! ### The loop -/

/-- `GameLoop`, with the commands of `CommandType::Attack` that wait, oldest first. -/
structure GameLoop where
  state : GameState
  commands : List Int := []
  tickCounter : Nat := 0

namespace GameLoop

def processInputs (loop : GameLoop) (draws : Nat → Nat) : GameLoop :=
  { loop with
    commands := []
    state := loop.commands.zipIdx.foldl (fun s c => s.applyAttack c.1 (draws c.2)) loop.state }

def update (loop : GameLoop) : GameLoop := { loop with state := loop.state.advanceTick }

/-- One pass of `run`, up to the broadcast. -/
def pass (loop : GameLoop) (draws : Nat → Nat) : GameLoop :=
  let loop := (loop.processInputs draws).update
  { loop with tickCounter := loop.tickCounter + 1 }

/-- The operations of a pass. -/
def ops (loop : GameLoop) (draws : Nat → Nat) : List Op :=
  (loop.commands.zipIdx.map fun c => Op.applyAttack c.1 (draws c.2)) ++ [.advanceTick]

theorem pass_state (loop : GameLoop) (draws : Nat → Nat) :
    (loop.pass draws).state = (loop.ops draws).foldl Op.exec loop.state := by
  unfold ops
  rw [List.foldl_append, List.foldl_map]
  rfl

end GameLoop

end Portfolio.TurnCombat
