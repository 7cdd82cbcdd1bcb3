import Portfolio.Lib.Machine
import Portfolio.Lib.Scalar

/-!
# `arena60::GameSession`

Players, projectiles and combat of the arena server (`arena/server/src/game`). `double` is an
arbitrary `Scalar`, so nothing below depends on what the geometric tests decide. `players_` is an
unordered map; the order in which a tick visits it is an argument. A `last_fire_time` of `lowest()`
is `none`. Log lines and `facing_radians`, which nothing here reads, are left out.
-/

namespace Portfolio.Arena
open Std

/-! ### Combat -/

structure HealthComponent where
  max : Int := 100
  current : Int := 100
  deriving DecidableEq, Repr

namespace HealthComponent

def isAlive (h : HealthComponent) : Bool := decide (0 < h.current)

/-- The new component, and whether it has just died. -/
def applyDamage (h : HealthComponent) (amount : Int) : HealthComponent × Bool :=
  if amount ≤ 0 then (h, false)
  else if !h.isAlive then (h, false)
  else
    let current := Max.max 0 (h.current - amount)
    ({ h with current := current }, decide (current = 0))

def reset (h : HealthComponent) : HealthComponent := { h with current := h.max }

end HealthComponent

inductive CombatEventType where
  | hit
  | death
  deriving DecidableEq, Repr

structure CombatEvent where
  type : CombatEventType := .hit
  shooterId : String
  targetId : String
  projectileId : String
  damage : Int := 0
  tick : Nat := 0
  deriving DecidableEq, Repr

structure CombatLog where
  capacity : Nat := 32
  events : List CombatEvent := []
  deriving DecidableEq, Repr

def CombatLog.add (log : CombatLog) (event : CombatEvent) : CombatLog :=
  if log.capacity = 0 then log
  else
    let events := log.events ++ [event]
    { log with events := if log.capacity < events.length then events.drop 1 else events }

/-! ### Players and projectiles -/

structure MovementInput (α : Type) where
  sequence : Nat := 0
  up : Bool := false
  down : Bool := false
  left : Bool := false
  right : Bool := false
  mouseX : α
  mouseY : α
  fire : Bool := false
  deriving DecidableEq, Repr

structure PlayerState (α : Type) where
  playerId : String
  x : α
  y : α
  lastSequence : Nat := 0
  health : Int := 100
  isAlive : Bool := true
  shotsFired : Nat := 0
  hitsLanded : Nat := 0
  deaths : Nat := 0
  deriving DecidableEq, Repr

structure PlayerRuntimeState (α : Type) where
  state : PlayerState α
  health : HealthComponent := {}
  lastFireTime : Option α := none
  deathAnnounced : Bool := false
  shotsFired : Nat := 0
  hitsLanded : Nat := 0
  deaths : Nat := 0
  deriving DecidableEq, Repr

structure Projectile (α : Type) where
  id : String
  ownerId : String
  x : α
  y : α
  dirX : α
  dirY : α
  spawnTime : α
  active : Bool := true
  deriving DecidableEq, Repr

section
variable {α : Type} [Scalar α]

namespace Projectile

def kSpeed : α := Scalar.lit 30
def kLifetime : α := Scalar.lit (3 / 2)
def kRadius : α := Scalar.lit (1 / 5)
def kEpsilon : α := Scalar.lit (1 / 10 ^ 9)

/-- The constructor, which normalises the direction or throws. -/
def make (id ownerId : String) (x y dirX dirY spawnTime : α) : Except String (Projectile α) :=
  let magnitude := Scalar.sqrt (dirX * dirX + dirY * dirY)
  if magnitude < kEpsilon then .error "Projectile direction must be non-zero"
  else .ok {
    id := id, ownerId := ownerId, x := x, y := y
    dirX := dirX / magnitude, dirY := dirY / magnitude, spawnTime := spawnTime }

def advance (p : Projectile α) (dt : α) : Projectile α :=
  if !p.active then p
  else { p with x := p.x + p.dirX * kSpeed * dt, y := p.y + p.dirY * kSpeed * dt }

def isExpired (p : Projectile α) (now : α) : Bool :=
  if !p.active then true else decide (kLifetime ≤ now - p.spawnTime)

omit [Scalar α] in
def deactivate (p : Projectile α) : Projectile α := { p with active := false }

end Projectile

end

/-! ### The session -/

structure GameSession (α : Type) where
  speedPerSecond : α
  elapsedTime : α
  projectileCounter : Nat := 0
  combatLog : CombatLog := {}
  projectiles : List (Projectile α) := []
  pendingDeaths : List CombatEvent := []
  projectilesSpawnedTotal : Nat := 0
  projectilesHitsTotal : Nat := 0
  playersDeadTotal : Nat := 0
  collisionsCheckedTotal : Nat := 0
  players : TreeMap String (PlayerRuntimeState α) := ∅

section
variable {α : Type} [Scalar α]

def kPlayerSpeed : α := Scalar.lit 5
def kPlayerRadius : α := Scalar.lit (1 / 2)
def kFireCooldown : α := Scalar.lit (1 / 10)
def kSpawnOffset : α := Scalar.lit (3 / 10)
def kDamagePerHit : Int := 20

/-- Writes one player back, if it is registered. -/
def updatePlayer {α : Type} (players : TreeMap String (PlayerRuntimeState α)) (id : String)
    (f : PlayerRuntimeState α → PlayerRuntimeState α) : TreeMap String (PlayerRuntimeState α) :=
  match players[id]? with
  | none => players
  | some runtime => players.insert id (f runtime)

namespace GameSession

/-- `GameSession::GameSession` -/
def new : GameSession α where
  speedPerSecond := kPlayerSpeed
  elapsedTime := Scalar.lit 0

/-- The record that `players_[player_id]` creates. -/
def newRuntime : PlayerRuntimeState α where
  state := { playerId := "", x := Scalar.lit 0, y := Scalar.lit 0 }

/-- The first lines of `UpsertPlayer`: a record without an id is filled in. -/
def initRuntime (playerId : String) (runtime : PlayerRuntimeState α) : PlayerRuntimeState α :=
  if runtime.state.playerId = "" then
    { runtime with
      state := { runtime.state with
        playerId := playerId, x := Scalar.lit 0, y := Scalar.lit 0, lastSequence := 0
        shotsFired := 0, hitsLanded := 0, deaths := 0 }
      shotsFired := 0, hitsLanded := 0, deaths := 0 }
  else runtime

/-- The rest of `UpsertPlayer`: full health. -/
def revive (runtime : PlayerRuntimeState α) : PlayerRuntimeState α :=
  let health := runtime.health.reset
  { runtime with
    health := health
    state := { runtime.state with health := health.current, isAlive := health.isAlive }
    deathAnnounced := false
    lastFireTime := none }

def upsertPlayer (s : GameSession α) (playerId : String) : GameSession α :=
  let runtime := (s.players[playerId]?).getD newRuntime
  { s with players := s.players.insert playerId (revive (initRuntime playerId runtime)) }

def removePlayer (s : GameSession α) (playerId : String) : GameSession α :=
  { s with
    players := s.players.erase playerId
    projectiles := s.projectiles.filter fun p => p.ownerId ≠ playerId }

/-! #### Input -/

/-- The movement of `ApplyInput` for a living player. -/
def movePlayer (s : GameSession α) (state : PlayerState α) (input : MovementInput α) (dt : α) :
    PlayerState α :=
  let dy₀ : α := if input.up then Scalar.lit 0 - Scalar.lit 1 else Scalar.lit 0
  let dy := if input.down then dy₀ + Scalar.lit 1 else dy₀
  let dx₀ : α := if input.left then Scalar.lit 0 - Scalar.lit 1 else Scalar.lit 0
  let dx := if input.right then dx₀ + Scalar.lit 1 else dx₀
  let magnitude := Scalar.sqrt (dx * dx + dy * dy)
  let moving := Scalar.lit 0 < magnitude
  let dx := if moving then dx / magnitude else dx
  let dy := if moving then dy / magnitude else dy
  let distance := s.speedPerSecond * dt
  { state with x := state.x + dx * distance, y := state.y + dy * distance }

def coolingDown (s : GameSession α) (runtime : PlayerRuntimeState α) : Bool :=
  match runtime.lastFireTime with
  | none => false
  | some t => decide (s.elapsedTime - t < kFireCooldown)

/-- `runtime` is the record of `playerId`; it is written back. -/
def trySpawnProjectile (s : GameSession α) (playerId : String) (runtime : PlayerRuntimeState α)
    (input : MovementInput α) : GameSession α × Except String Bool :=
  let put (s : GameSession α) (runtime : PlayerRuntimeState α) :=
    { s with players := s.players.insert playerId runtime }
  let aim := Scalar.sqrt (input.mouseX * input.mouseX + input.mouseY * input.mouseY)
  if !input.fire || !runtime.state.isAlive then (put s runtime, .ok false)
  else if aim < Scalar.lit (1 / 10 ^ 6) then (put s runtime, .ok false)
  else if s.coolingDown runtime then (put s runtime, .ok false)
  else
    let runtime := { runtime with lastFireTime := some s.elapsedTime }
    let dirX := input.mouseX / aim
    let dirY := input.mouseY / aim
    let s := { s with projectileCounter := s.projectileCounter + 1 }
    match Projectile.make ("projectile-" ++ toString s.projectileCounter) runtime.state.playerId
      (runtime.state.x + dirX * kSpawnOffset) (runtime.state.y + dirY * kSpawnOffset) dirX dirY
      s.elapsedTime with
    | .error e => (put s runtime, .error e)
    | .ok projectile =>
      let shots := runtime.shotsFired + 1
      (put { s with
          projectiles := s.projectiles ++ [projectile]
          projectilesSpawnedTotal := s.projectilesSpawnedTotal + 1 }
        { runtime with shotsFired := shots, state := { runtime.state with shotsFired := shots } },
        .ok true)

def applyInput (s : GameSession α) (playerId : String) (input : MovementInput α) (dt : α) :
    GameSession α × Except String Bool :=
  match s.players[playerId]? with
  | none => (s, .ok false)
  | some runtime =>
    if input.sequence < runtime.state.lastSequence then (s, .ok false)
    else
      let state := { runtime.state with lastSequence := input.sequence }
      let state := if state.isAlive then s.movePlayer state input dt else state
      s.trySpawnProjectile playerId { runtime with state := state } input

/-! #### Ticks -/

/-- The hit test of a projectile against a player. -/
def collides (p : Projectile α) (state : PlayerState α) : Bool :=
  let dx := p.x - state.x
  let dy := p.y - state.y
  let radiusSum : α := Projectile.kRadius + kPlayerRadius
  if radiusSum < Scalar.abs dx ∨ radiusSum < Scalar.abs dy then false
  else decide (dx * dx + dy * dy ≤ radiusSum * radiusSum)

/-- The inner loop over `players_` in the given order: the number of pairs checked and the player
that is hit, if any. -/
def scan (players : TreeMap String (PlayerRuntimeState α)) (p : Projectile α) :
    List String → Nat × Option String
  | [] => (0, none)
  | id :: order =>
    match players[id]? with
    | none => scan players p order
    | some runtime =>
      if !runtime.state.isAlive || runtime.state.playerId = p.ownerId then scan players p order
      else if collides p runtime.state then (1, some id)
      else
        let r := scan players p order
        (r.1 + 1, r.2)

def hitEvent (p : Projectile α) (runtime : PlayerRuntimeState α) (tick : Nat) : CombatEvent where
  type := .hit
  shooterId := p.ownerId
  targetId := runtime.state.playerId
  projectileId := p.id
  damage := kDamagePerHit
  tick := tick

def deathEvent (p : Projectile α) (runtime : PlayerRuntimeState α) (tick : Nat) : CombatEvent where
  type := .death
  shooterId := p.ownerId
  targetId := runtime.state.playerId
  projectileId := p.id
  tick := tick

def damaged (runtime : PlayerRuntimeState α) : PlayerRuntimeState α :=
  let health := (runtime.health.applyDamage kDamagePerHit).1
  { runtime with
    health := health
    state := { runtime.state with health := health.current, isAlive := health.isAlive } }

def creditHit (runtime : PlayerRuntimeState α) : PlayerRuntimeState α :=
  let hits := runtime.hitsLanded + 1
  { runtime with hitsLanded := hits, state := { runtime.state with hitsLanded := hits } }

def announceDeath (runtime : PlayerRuntimeState α) : PlayerRuntimeState α :=
  let deaths := runtime.deaths + 1
  { runtime with
    deathAnnounced := true, deaths := deaths, state := { runtime.state with deaths := deaths } }

/-- The body of a hit of `p` on the player `id`; the list holds the events that were logged. -/
def applyHit (s : GameSession α) (p : Projectile α) (id : String) (runtime : PlayerRuntimeState α)
    (tick : Nat) : GameSession α × List CombatEvent :=
  let hit := hitEvent p runtime tick
  let s := { s with
    combatLog := s.combatLog.add hit
    projectilesHitsTotal := s.projectilesHitsTotal + 1
    players := updatePlayer (s.players.insert id (damaged runtime)) p.ownerId creditHit }
  if (runtime.health.applyDamage kDamagePerHit).2 && !runtime.deathAnnounced then
    let death := deathEvent p runtime tick
    ({ s with
      players := updatePlayer s.players id announceDeath
      pendingDeaths := s.pendingDeaths ++ [death]
      combatLog := s.combatLog.add death
      playersDeadTotal := s.playersDeadTotal + 1 }, [hit, death])
  else (s, [hit])

/-- One projectile of the outer loop. -/
def stepProjectile (s : GameSession α) (order : List String) (tick : Nat) (p : Projectile α) :
    GameSession α × Projectile α × List CombatEvent :=
  if !p.active then (s, p, [])
  else
    let r := scan s.players p order
    let s := { s with collisionsCheckedTotal := s.collisionsCheckedTotal + r.1 }
    match r.2.bind fun id => (s.players[id]?).map (id, ·) with
    | none => (s, p, [])
    | some (id, runtime) =>
      let h := s.applyHit p id runtime tick
      (h.1, p.deactivate, h.2)

def resolveHits (s : GameSession α) (order : List String) (tick : Nat) :
    List (Projectile α) → GameSession α × List (Projectile α) × List CombatEvent
  | [] => (s, [], [])
  | p :: ps =>
    let r := s.stepProjectile order tick p
    let rest := resolveHits r.1 order tick ps
    (rest.1, r.2.1 :: rest.2.1, r.2.2 ++ rest.2.2)

def moveProjectile (now dt : α) (p : Projectile α) : Projectile α :=
  let p := p.advance dt
  if p.isExpired now then p.deactivate else p

/-- `UpdateProjectilesLocked`, visiting `players_` in `order`; the events are the logged ones. -/
def tick (s : GameSession α) (order : List String) (tick : Nat) (dt : α) :
    GameSession α × List CombatEvent :=
  let s := { s with elapsedTime := s.elapsedTime + dt }
  let r := s.resolveHits order tick (s.projectiles.map (moveProjectile s.elapsedTime dt))
  ({ r.1 with projectiles := r.2.1.filter (·.active) }, r.2.2)

def consumeDeathEvents (s : GameSession α) : GameSession α × List CombatEvent :=
  ({ s with pendingDeaths := [] }, s.pendingDeaths)

end GameSession

end

end Portfolio.Arena
