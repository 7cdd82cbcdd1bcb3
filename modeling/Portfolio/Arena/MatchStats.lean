import Portfolio.Arena.GameSession
import Portfolio.Lib.DefaultMap

/-!
# `arena60::MatchStatsCollector`

Match statistics of one death, built from the players and the combat log of the session. Counters
do not wrap here; the session counts in `int`, so the casts to `uint32_t` keep their values.
`completed_at` is left out: nothing downstream reads it.
-/

namespace Portfolio.Arena
open Std

structure RunningTotals where
  playerId : String
  shotsFired : Nat := 0
  hitsLanded : Nat := 0
  kills : Nat := 0
  deaths : Nat := 0
  damageDealt : Nat := 0
  damageTaken : Nat := 0
  deriving DecidableEq, Repr

structure PlayerMatchStats where
  matchId : String
  playerId : String
  shotsFired : Nat
  hitsLanded : Nat
  kills : Nat
  deaths : Nat
  damageDealt : Nat
  damageTaken : Nat
  deriving DecidableEq, Repr

structure MatchResult where
  matchId : String
  winnerId : String
  loserId : String
  playerStats : List PlayerMatchStats
  deriving DecidableEq, Repr

/-- `GameSession::Snapshot` -/
def GameSession.snapshot {α : Type} (s : GameSession α) : List (PlayerState α) :=
  s.players.toList.map (·.2.state)

/-- `GameSession::CombatLogSnapshot` -/
def GameSession.combatLogSnapshot {α : Type} (s : GameSession α) : List CombatEvent := s.combatLog.events

namespace MatchStatsCollector

abbrev Totals := TreeMap String RunningTotals

/-- The entry that `ensure_entry` creates. -/
def noTotals (playerId : String) : RunningTotals := { playerId := playerId }

def startEntry {α : Type} (state : PlayerState α) : RunningTotals where
  playerId := state.playerId
  shotsFired := state.shotsFired
  hitsLanded := state.hitsLanded
  deaths := state.deaths

def startTotals {α : Type} (states : List (PlayerState α)) : Totals :=
  states.foldl (fun totals state => totals.insertIfNew state.playerId (startEntry state)) ∅

def addDealt (damage : Int) (entry : RunningTotals) : RunningTotals :=
  { entry with damageDealt := entry.damageDealt + (damage % 2 ^ 64).toNat }

def addTaken (damage : Int) (entry : RunningTotals) : RunningTotals :=
  { entry with damageTaken := entry.damageTaken + (damage % 2 ^ 64).toNat }

def addKill (entry : RunningTotals) : RunningTotals := { entry with kills := entry.kills + 1 }

def atLeastOneKill (entry : RunningTotals) : RunningTotals :=
  if entry.kills = 0 then { entry with kills := 1 } else entry

def atLeastOneDeath (entry : RunningTotals) : RunningTotals :=
  if entry.deaths = 0 then { entry with deaths := 1 } else entry

/-- One entry of the combat log; those after the death are skipped. -/
def countEvent (deathTick : Nat) (totals : Totals) (event : CombatEvent) : Totals :=
  if deathTick < event.tick then totals
  else match event.type with
    | .hit =>
      let totals := alterD noTotals totals event.shooterId (addDealt event.damage)
      alterD noTotals totals event.targetId (addTaken event.damage)
    | .death =>
      let totals := alterD noTotals totals event.shooterId addKill
      alterD noTotals totals event.targetId atLeastOneDeath

def totalsOf {α : Type} (deathEvent : CombatEvent) (session : GameSession α) : Totals :=
  let totals := startTotals session.snapshot
  let totals := session.combatLogSnapshot.foldl (countEvent deathEvent.tick) totals
  let totals := alterD noTotals totals deathEvent.shooterId atLeastOneKill
  alterD noTotals totals deathEvent.targetId atLeastOneDeath

def matchId (deathEvent : CombatEvent) : String :=
  "match-" ++ toString deathEvent.tick ++ "-" ++ deathEvent.shooterId ++ "-vs-" ++ deathEvent.targetId

def statsOf (matchId : String) (entry : RunningTotals) : PlayerMatchStats where
  matchId := matchId
  playerId := entry.playerId
  shotsFired := entry.shotsFired
  hitsLanded := entry.hitsLanded
  kills := entry.kills
  deaths := entry.deaths
  damageDealt := entry.damageDealt
  damageTaken := entry.damageTaken

/-- The entries of the map are listed by player id, as the final sort leaves them. -/
def collect {α : Type} (deathEvent : CombatEvent) (session : GameSession α) : MatchResult where
  matchId := matchId deathEvent
  winnerId := deathEvent.shooterId
  loserId := deathEvent.targetId
  playerStats := (totalsOf deathEvent session).toList.map fun kv => statsOf (matchId deathEvent) kv.2

end MatchStatsCollector

end Portfolio.Arena
