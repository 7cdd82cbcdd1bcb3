import Mathlib.Tactic.Common

/-!
# `arena60::InMemoryMatchQueue`

Requests in buckets by rating, each bucket a list by insertion order, with an index from players to
list positions. A list iterator is the number of its node, and every insertion makes a new node.
`std::sort` is an argument: of entries that compare equal it may put either first.
-/

namespace Portfolio.Arena
open Std

/-- `enqueuedAt` is a point of the steady clock, in nanoseconds. -/
structure MatchRequest where
  playerId : String
  elo : Int
  enqueuedAt : Int
  preferredRegion : String := "global"
  deriving DecidableEq, Repr

structure QueuedPlayer where
  request : MatchRequest
  order : Nat
  deriving DecidableEq, Repr

structure BucketEntry where
  request : MatchRequest
  order : Nat
  node : Nat
  deriving DecidableEq, Repr

def BucketEntry.queued (e : BucketEntry) : QueuedPlayer := ⟨e.request, e.order⟩

/-- The comparison of `FetchOrdered`. -/
def QueuedPlayer.before (lhs rhs : QueuedPlayer) : Bool :=
  if lhs.request.elo = rhs.request.elo then decide (lhs.order < rhs.order)
  else decide (lhs.request.elo < rhs.request.elo)

/-- What `std::sort` promises. -/
def IsSort (sort : List QueuedPlayer → List QueuedPlayer) : Prop :=
  ∀ l, (sort l).Perm l ∧ (sort l).Pairwise fun a b => b.before a = false

structure InMemoryMatchQueue where
  buckets : TreeMap Int (List BucketEntry) := ∅
  index : TreeMap String (Int × Nat) := ∅
  nextNode : Nat := 0

namespace InMemoryMatchQueue

/-- Erases a node of `bucket`, and the bucket with its last node. -/
def eraseNode (buckets : TreeMap Int (List BucketEntry)) (elo : Int) (bucket : List BucketEntry)
    (node : Nat) : TreeMap Int (List BucketEntry) :=
  let bucket := bucket.filter (·.node ≠ node)
  if bucket.isEmpty then buckets.erase elo else buckets.insert elo bucket

/-- The insertion loop of `Upsert`: before the first entry with a larger order. -/
def insertEntry (entry : BucketEntry) : List BucketEntry → List BucketEntry
  | [] => [entry]
  | e :: bucket => if entry.order < e.order then entry :: e :: bucket else e :: insertEntry entry bucket

/-- The first half of `Upsert`: an earlier request of the player goes. -/
def dropExisting (q : InMemoryMatchQueue) (playerId : String) : InMemoryMatchQueue :=
  match q.index[playerId]? with
  | none => q
  | some (elo, node) =>
    { q with
      buckets := match q.buckets[elo]? with
        | none => q.buckets
        | some bucket => eraseNode q.buckets elo bucket node
      index := q.index.erase playerId }

/-- The second half of `Upsert`. -/
def insertRequest (q : InMemoryMatchQueue) (request : MatchRequest) (order : Nat) : InMemoryMatchQueue :=
  let bucket := (q.buckets[request.elo]?).getD []
  { buckets := q.buckets.insert request.elo (insertEntry ⟨request, order, q.nextNode⟩ bucket)
    index := q.index.insert request.playerId (request.elo, q.nextNode)
    nextNode := q.nextNode + 1 }

def upsert (q : InMemoryMatchQueue) (request : MatchRequest) (order : Nat) : InMemoryMatchQueue :=
  (q.dropExisting request.playerId).insertRequest request order

def remove (q : InMemoryMatchQueue) (playerId : String) : InMemoryMatchQueue × Bool :=
  match q.index[playerId]? with
  | none => (q, false)
  | some (elo, node) =>
    match q.buckets[elo]? with
    | none => ({ q with index := q.index.erase playerId }, false)
    | some bucket =>
      ({ q with buckets := eraseNode q.buckets elo bucket node, index := q.index.erase playerId }, true)

/-- All entries, bucket after bucket. -/
def entries (q : InMemoryMatchQueue) : List BucketEntry := q.buckets.toList.flatMap (·.2)

def fetchOrdered (sort : List QueuedPlayer → List QueuedPlayer) (q : InMemoryMatchQueue) :
    List QueuedPlayer :=
  sort (q.entries.map (·.queued))

def size (q : InMemoryMatchQueue) : Nat := q.index.size

end InMemoryMatchQueue

end Portfolio.Arena
