import Portfolio.Arena.MatchStats

/-!
# `arena60::PlayerProfileService`

Lifetime aggregates over the recorded matches. The rating update is floating point and is an
argument; the leaderboard is any store with an `upsert`, of which the in-memory one is given.
-/

namespace Portfolio.Arena
open Std

/-! ### Leaderboard stores -/

class LeaderboardStore (β : Type) where
  upsert : β → String → Int → β

/-- `ordered` holds the higher scores first. -/
structure InMemoryLeaderboardStore where
  scores : TreeMap String Int := ∅
  ordered : TreeMap Int (TreeSet String) (fun a b => compare b a) := ∅

namespace InMemoryLeaderboardStore

def removeFromOrdered (store : InMemoryLeaderboardStore) (playerId : String) (score : Int) :
    InMemoryLeaderboardStore :=
  match store.ordered[score]? with
  | none => store
  | some players =>
    let players := players.erase playerId
    if players.isEmpty then { store with ordered := store.ordered.erase score }
    else { store with ordered := store.ordered.insert score players }

def upsert (store : InMemoryLeaderboardStore) (playerId : String) (score : Int) :
    InMemoryLeaderboardStore :=
  let put (store : InMemoryLeaderboardStore) : InMemoryLeaderboardStore :=
    { scores := store.scores.insert playerId score
      ordered := store.ordered.insert score (((store.ordered[score]?).getD ∅).insert playerId) }
  match store.scores[playerId]? with
  | none => put store
  | some existing =>
    if existing = score then store else put (store.removeFromOrdered playerId existing)

instance : LeaderboardStore InMemoryLeaderboardStore := ⟨upsert⟩

end InMemoryLeaderboardStore

/-! ### The service -/

structure EloRatingUpdate where
  winnerNew : Int
  loserNew : Int
  deriving DecidableEq, Repr

structure AggregateStats where
  matches_ : Nat := 0
  wins : Nat := 0
  losses : Nat := 0
  kills : Nat := 0
  deaths : Nat := 0
  shotsFired : Nat := 0
  hitsLanded : Nat := 0
  damageDealt : Nat := 0
  damageTaken : Nat := 0
  rating : Int := 1200
  deriving DecidableEq, Repr

structure PlayerProfile where
  playerId : String
  rating : Int
  matches_ : Nat
  wins : Nat
  losses : Nat
  kills : Nat
  deaths : Nat
  shotsFired : Nat
  hitsLanded : Nat
  damageDealt : Nat
  damageTaken : Nat
  deriving DecidableEq, Repr

structure PlayerProfileService (β : Type) where
  leaderboard : Option β
  aggregates : TreeMap String AggregateStats := ∅
  matchesRecordedTotal : Nat := 0
  ratingUpdatesTotal : Nat := 0

namespace PlayerProfileService
variable {β : Type}

/-- The aggregate that `aggregates_[player_id]` creates. -/
def noStats (_ : String) : AggregateStats := {}

def addStats (stats : PlayerMatchStats) (aggregate : AggregateStats) : AggregateStats :=
  { aggregate with
    matches_ := aggregate.matches_ + 1
    shotsFired := aggregate.shotsFired + stats.shotsFired
    hitsLanded := aggregate.hitsLanded + stats.hitsLanded
    damageDealt := aggregate.damageDealt + stats.damageDealt
    damageTaken := aggregate.damageTaken + stats.damageTaken
    kills := aggregate.kills + stats.kills
    deaths := aggregate.deaths + stats.deaths }

def addMatch (aggregates : TreeMap String AggregateStats) (stats : List PlayerMatchStats) :
    TreeMap String AggregateStats :=
  stats.foldl (fun aggregates s => alterD noStats aggregates s.playerId (addStats s)) aggregates

/-- `update` is `EloRatingCalculator::Update`. -/
def recordMatch [LeaderboardStore β] (update : Int → Int → EloRatingUpdate)
    (service : PlayerProfileService β) (result : MatchResult) : PlayerProfileService β :=
  let aggregates := addMatch service.aggregates result.playerStats
  let aggregates := alterD noStats aggregates result.winnerId fun a => { a with wins := a.wins + 1 }
  let aggregates := alterD noStats aggregates result.loserId fun a => { a with losses := a.losses + 1 }
  let new := update (lookupD noStats aggregates result.winnerId).rating
    (lookupD noStats aggregates result.loserId).rating
  let aggregates := alterD noStats aggregates result.winnerId fun a => { a with rating := new.winnerNew }
  let aggregates := alterD noStats aggregates result.loserId fun a => { a with rating := new.loserNew }
  let put (board : β) : β :=
    LeaderboardStore.upsert
      (LeaderboardStore.upsert board result.winnerId (lookupD noStats aggregates result.winnerId).rating)
      result.loserId (lookupD noStats aggregates result.loserId).rating
  { leaderboard := service.leaderboard.map put
    aggregates := aggregates
    matchesRecordedTotal := service.matchesRecordedTotal + 1
    ratingUpdatesTotal := service.ratingUpdatesTotal + 2 }

def buildProfileUnsafe (playerId : String) (stats : AggregateStats) : PlayerProfile where
  playerId := playerId
  rating := stats.rating
  matches_ := stats.matches_
  wins := stats.wins
  losses := stats.losses
  kills := stats.kills
  deaths := stats.deaths
  shotsFired := stats.shotsFired
  hitsLanded := stats.hitsLanded
  damageDealt := stats.damageDealt
  damageTaken := stats.damageTaken

def getProfile (service : PlayerProfileService β) (playerId : String) : Option PlayerProfile :=
  (service.aggregates[playerId]?).map (buildProfileUnsafe playerId)

end PlayerProfileService

end Portfolio.Arena
