import Portfolio.Arena.MatchQueue
import Portfolio.Lib.Machine
import Portfolio.Lib.Scalar

/-!
# `arena60::Matchmaker`

Pairing of queued players. `double` is an arbitrary `Scalar`, and `SecondsConv` the conversions from
the clock and to `int`. The callback and the log lines are left out.
-/

namespace Portfolio.Arena

/-- A duration in nanoseconds as seconds, and the cast of a `double` to `int`. -/
structure SecondsConv (α : Type) where
  seconds : Int → α
  toInt : α → Int

section
variable {α : Type} [Scalar α] (conv : SecondsConv α)

/-! ### Requests -/

def kBaseTolerance : Int := 100
def kToleranceStep : Int := 25
def kStepSeconds : α := Scalar.lit 5

namespace MatchRequest

omit [Scalar α] in
def waitSeconds (request : MatchRequest) (now : Int) : α := conv.seconds (now - request.enqueuedAt)

def currentTolerance (request : MatchRequest) (now : Int) : Int :=
  let waited : α := Scalar.max (Scalar.lit 0) (request.waitSeconds conv now)
  kBaseTolerance + conv.toInt (waited / kStepSeconds) * kToleranceStep

def regionsCompatible (lhs rhs : MatchRequest) : Bool :=
  if lhs.preferredRegion = "any" ∨ rhs.preferredRegion = "any" then true
  else decide (lhs.preferredRegion = rhs.preferredRegion)

def resolveRegion (lhs rhs : MatchRequest) : String :=
  if lhs.preferredRegion = rhs.preferredRegion then lhs.preferredRegion
  else if lhs.preferredRegion = "any" then rhs.preferredRegion
  else if rhs.preferredRegion = "any" then lhs.preferredRegion
  else lhs.preferredRegion

end MatchRequest

/-! ### The matchmaker -/

structure Match where
  matchId : String
  players : List String
  averageElo : Int
  createdAt : Int
  region : String
  deriving DecidableEq, Repr

structure Matchmaker (α : Type) where
  queue : InMemoryMatchQueue := {}
  notifications : List Match := []
  orderCounter : Nat := 0
  matchCounter : Nat := 0
  matchesCreated : Nat := 0
  lastQueueSize : Nat := 0
  waitBucketCounts : List Nat := [0, 0, 0, 0, 0, 0]
  waitOverflowCount : Nat := 0
  waitSum : α
  waitCount : Nat := 0

def kWaitBuckets : List α := [Scalar.lit 0, Scalar.lit 5, Scalar.lit 10, Scalar.lit 20, Scalar.lit 40,
  Scalar.lit 80]

namespace Matchmaker

def new : Matchmaker α where
  waitSum := Scalar.lit 0

def enqueue (m : Matchmaker α) (request : MatchRequest) : Matchmaker α :=
  let order := m.orderCounter + 1
  let queue := m.queue.upsert request order
  { m with queue := queue, orderCounter := order, lastQueueSize := queue.size }

def cancel (m : Matchmaker α) (playerId : String) : Matchmaker α × Bool :=
  let r := m.queue.remove playerId
  ({ m with queue := r.1, lastQueueSize := r.1.size }, r.2)

/-- The loop over `kWaitBuckets`: the counts with the first fitting bucket raised, if there is one. -/
def raiseBucket (seconds : α) : List α → List Nat → Option (List Nat)
  | bound :: bounds, count :: counts =>
    if seconds ≤ bound then some ((count + 1) :: counts)
    else (raiseBucket seconds bounds counts).map (count :: ·)
  | _, _ => none

def observeWaitLocked (m : Matchmaker α) (seconds : α) : Matchmaker α :=
  let m := { m with waitSum := m.waitSum + seconds, waitCount := m.waitCount + 1 }
  match raiseBucket seconds kWaitBuckets m.waitBucketCounts with
  | some counts => { m with waitBucketCounts := counts }
  | none => { m with waitOverflowCount := m.waitOverflowCount + 1 }

/-- The inner loop: the partner of `request` among the players after it. -/
def findPartner (now : Int) (used : List String) (request : MatchRequest) :
    List QueuedPlayer → Option MatchRequest
  | [] => none
  | other :: rest =>
    if other.request.playerId ∈ used then findPartner now used request rest
    else if !request.regionsCompatible other.request then findPartner now used request rest
    else
      let diff := |request.elo - other.request.elo|
      if diff ≤ request.currentTolerance conv now ∧ diff ≤ other.request.currentTolerance conv now then
        some other.request
      else if other.request.elo - request.elo > request.currentTolerance conv now then none
      else findPartner now used request rest

/-- The body of the outer loop for a found pair. -/
def createMatch (m : Matchmaker α) (now : Int) (request partner : MatchRequest) : Matchmaker α × Match :=
  let queue := ((m.queue.remove request.playerId).1.remove partner.playerId).1
  let counter := m.matchCounter + 1
  let created : Match := {
    matchId := "match-" ++ toString counter
    players := [request.playerId, partner.playerId]
    averageElo := (request.elo + partner.elo).tdiv 2
    createdAt := now
    region := request.resolveRegion partner }
  let m := { m with queue := queue, matchesCreated := m.matchesCreated + 1, matchCounter := counter }
  let m := m.observeWaitLocked (request.waitSeconds conv now)
  (m.observeWaitLocked (partner.waitSeconds conv now), created)

/-- The outer loop over the players from some position on. -/
def pairLoop (now : Int) (m : Matchmaker α) (used : List String) :
    List QueuedPlayer → Matchmaker α × List Match
  | [] => (m, [])
  | candidate :: rest =>
    if candidate.request.playerId ∈ used then pairLoop now m used rest
    else match findPartner conv now used candidate.request rest with
      | none => pairLoop now m used rest
      | some partner =>
        let c := m.createMatch conv now candidate.request partner
        let r := pairLoop now c.1 (candidate.request.playerId :: partner.playerId :: used) rest
        (r.1, c.2 :: r.2)

def runMatching (sort : List QueuedPlayer → List QueuedPlayer) (m : Matchmaker α) (now : Int) :
    Matchmaker α × List Match :=
  let r := pairLoop conv now m [] (m.queue.fetchOrdered sort)
  ({ r.1 with lastQueueSize := r.1.queue.size, notifications := r.1.notifications ++ r.2 }, r.2)

end Matchmaker

/-- What happens to a matchmaker. -/
inductive MatchmakerOp where
  | enqueue (request : MatchRequest)
  | cancel (playerId : String)
  | runMatching (now : Int)
  deriving DecidableEq, Repr

variable (sort : List QueuedPlayer → List QueuedPlayer)

def MatchmakerOp.exec (m : Matchmaker α) : MatchmakerOp → Matchmaker α × List Match
  | .enqueue request => (m.enqueue request, [])
  | .cancel playerId => ((m.cancel playerId).1, [])
  | .runMatching now => m.runMatching conv sort now

/-- A matchmaker from its start; the outputs are the matches. -/
def matchmakerMachine : Machine (Matchmaker α) MatchmakerOp Match where
  init := .new
  step := MatchmakerOp.exec conv sort

end

end Portfolio.Arena
