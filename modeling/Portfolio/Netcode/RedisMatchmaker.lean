import Mathlib.Data.List.Sort
import Portfolio.Lib.Machine

/-!
# `mini::Matchmaker` on Redis

Any number of `process_queue` calls, enqueues and client dequeues run against one Redis, one command
at a time. A call reads the queue with one `ZRANGE`, plans its pairs and then issues four commands a
pair without looking at the replies; `Call.todo` are the commands it has still to issue.
-/

namespace Portfolio.Netcode.RedisMatchmaker
open Std

structure MatchRequest where
  playerId : String
  mmr : Int32
  deriving DecidableEq, Repr

structure RoomAssignment where
  roomId : String
  addr : String
  playerId : String
  opponentId : String
  deriving DecidableEq, Repr

namespace RoomAssignment

def players (a : RoomAssignment) : List String := [a.playerId, a.opponentId]

/-- The value that `store_room_assignment` writes. -/
def value (a : RoomAssignment) : String := a.roomId ++ ":" ++ a.addr

end RoomAssignment

/-- The Redis commands of a call: `SETEX room_map:{player}`, and `ZREM match:queue`; with the
second `ZREM` of a pair the assignment is done. -/
inductive Command where
  | setex (player : String) (assignment : RoomAssignment)
  | zrem (player : String) (done : Option RoomAssignment)
  deriving DecidableEq, Repr

def Command.player : Command → String
  | .setex player _ => player
  | .zrem player _ => player

/-- A `process_queue` call after its `ZRANGE`. -/
structure Call where
  todo : List Command
  assignments : List RoomAssignment := []
  deriving DecidableEq, Repr

/-- Redis, and the calls that are under way, numbered in the order of their `ZRANGE`. -/
structure Redis where
  queue : TreeMap String Int32 := ∅
  roomMap : TreeMap String String := ∅
  calls : TreeMap Nat Call := ∅
  nextCall : Nat := 0

/-- One command of one party; `rng` are the draws of `generate_room_id`. -/
inductive Event where
  | enqueue (player : String) (mmr : Int32)
  | dequeue (player : String)
  | zrange (rng : Nat → Nat)
  | next (call : Nat)

/-- What the parties learn: enqueues, dequeues that returned true, assignments that were stored and
the lists that `process_queue` returned. -/
inductive Log where
  | enqueued (player : String)
  | dequeued (player : String)
  | stored (call : Nat) (player : String) (assignment : RoomAssignment)
  | returned (call : Nat) (assignments : List RoomAssignment)
  deriving DecidableEq, Repr

/-! ### `process_queue` -/

def mmrTolerance : Nat := 200

def generateRoomId (draw : Nat) : String := "room_" ++ toString (100000 + draw % 900000)

/-- `ZRANGE match:queue 0 -1 WITHSCORES`: by score, equal scores by member. -/
def zrange (queue : TreeMap String Int32) : List MatchRequest :=
  (queue.toList.map fun e => ⟨e.1, e.2⟩).insertionSort fun p q => p.mmr ≤ q.mmr

/-- The test of the tolerance, on `int`s: the difference wraps around, and `std::abs` leaves the least
`int` as it is. -/
def Compatible (p1 p2 : MatchRequest) : Prop := (p1.mmr - p2.mmr).abs.toInt ≤ mmrTolerance

instance (p1 p2 : MatchRequest) : Decidable (Compatible p1 p2) :=
  inferInstanceAs (Decidable ((p1.mmr - p2.mmr).abs.toInt ≤ mmrTolerance))

/-- Adjacent players that are compatible; the `n`-th pair gets the `n`-th room. -/
def pairUp (rng : Nat → Nat) : Nat → List MatchRequest → List RoomAssignment
  | n, p1 :: p2 :: rest =>
    if Compatible p1 p2 then
      { roomId := generateRoomId (rng n), addr := "127.0.0.1:7777", playerId := p1.playerId,
        opponentId := p2.playerId } :: pairUp rng (n + 1) rest
    else pairUp rng n rest
  | _, _ => []

/-- The pairs of a call that reads `queue`. -/
def planned (rng : Nat → Nat) (queue : TreeMap String Int32) : List RoomAssignment :=
  pairUp rng 0 (zrange queue)

def commands (a : RoomAssignment) : List Command :=
  [.setex a.playerId a, .setex a.opponentId a, .zrem a.playerId none, .zrem a.opponentId (some a)]

/-- A call goes on with `call`, or returns when nothing is left to do. -/
def Redis.putCall (s : Redis) (id : Nat) (call : Call) : Redis × List Log :=
  if call.todo = [] then ({ s with calls := s.calls.erase id }, [.returned id call.assignments])
  else ({ s with calls := s.calls.insert id call }, [])

/-- The next command of a call; the replies are ignored. -/
def Redis.issue (s : Redis) (id : Nat) (call : Call) : Redis × List Log :=
  match call.todo with
  | [] => (s, [])
  | .setex player a :: rest =>
    let r := { s with roomMap := s.roomMap.insert ("room_map:" ++ player) a.value }.putCall id
      { call with todo := rest }
    (r.1, .stored id player a :: r.2)
  | .zrem player done :: rest =>
    { s with queue := s.queue.erase player }.putCall id
      { todo := rest, assignments := call.assignments ++ done.toList }

def step (s : Redis) : Event → Redis × List Log
  | .enqueue player mmr => ({ s with queue := s.queue.insert player mmr }, [.enqueued player])
  | .dequeue player =>
    if player ∈ s.queue then ({ s with queue := s.queue.erase player }, [.dequeued player]) else (s, [])
  | .zrange rng =>
    { s with nextCall := s.nextCall + 1 }.putCall s.nextCall
      { todo := (planned rng s.queue).flatMap commands }
  | .next id =>
    match s.calls[id]? with
    | none => (s, [])
    | some call => s.issue id call

def matchMachine : Machine Redis Event Log where
  init := {}
  step := step

/-! ### What should hold -/

/-- The player was enqueued since it was last assigned or left the queue. -/
def Fresh (player : String) (log : List Log) : Prop :=
  ∀ front e back, log = front ++ e :: back →
    (e = .dequeued player ∨ ∃ call a, e = .stored call player a) → .enqueued player ∈ back

/-- The player that an entry assigns or takes out. -/
def Log.ends : Log → Option String
  | .dequeued player => some player
  | .stored _ player _ => some player
  | _ => none

theorem Log.ends_eq_some {e : Log} {player : String} :
    e.ends = some player ↔ e = .dequeued player ∨ ∃ call a, e = .stored call player a := by
  cases e <;> simp [Log.ends]

/-- Between two successful enqueues a player is assigned at most once, and never after a dequeue
that returned true; every assignment that a call returns was stored by it, and no player is in two
of them. -/
structure AssignedOnce (log : List Log) : Prop where
  once : ∀ player front call a mid call' a' back,
    log = front ++ .stored call player a :: mid ++ .stored call' player a' :: back →
      .enqueued player ∈ mid
  gone : ∀ player front mid call a back,
    log = front ++ .dequeued player :: mid ++ .stored call player a :: back → .enqueued player ∈ mid
  returned : ∀ front call as back, log = front ++ .returned call as :: back →
    (as.flatMap RoomAssignment.players).Nodup ∧
      ∀ a ∈ as, ∀ player ∈ a.players, .stored call player a ∈ front

/-- No call under way has still to issue a command for the player. -/
def Untouched (s : Redis) (player : String) : Prop :=
  ∀ e ∈ s.calls.toList, ∀ c ∈ e.2.todo, c.player ≠ player

/-- The player of a `SETEX`. -/
def storing : Command → Option String
  | .setex player _ => some player
  | .zrem _ _ => none

/-- No call under way has still to store an assignment of the player. -/
def Undecided (s : Redis) (player : String) : Prop :=
  ∀ e ∈ s.calls.toList, ∀ c ∈ e.2.todo, storing c ≠ some player

/-- A call that reads the queue pairs only players that no other call has commands left for, or that
were enqueued again after it stored them; a client takes a player out only when no call has still to
store its assignment. -/
def Exclusive (r : Redis × List Log) : Event → Prop
  | .zrange rng => ∀ a ∈ planned rng r.1.queue, ∀ player ∈ a.players,
      Untouched r.1 player ∨ Undecided r.1 player ∧ Fresh player r.2
  | .dequeue player => player ∈ r.1.queue → Undecided r.1 player
  | _ => True

instance (s : Redis) (player : String) : Decidable (Untouched s player) :=
  inferInstanceAs (Decidable (∀ e ∈ s.calls.toList, ∀ c ∈ e.2.todo, c.player ≠ player))

instance (s : Redis) (player : String) : Decidable (Undecided s player) :=
  inferInstanceAs (Decidable (∀ e ∈ s.calls.toList, ∀ c ∈ e.2.todo, storing c ≠ some player))

/-- `Fresh`, from the last entry on. -/
theorem fresh_iff_forall_lt (player : String) (log : List Log) :
    Fresh player log ↔ ∀ n, ∀ h : n < log.length,
      (log[n].ends = some player → .enqueued player ∈ log.drop (n + 1)) := by
  constructor
  · intro h n hn hends
    refine h (log.take n) log[n] (log.drop (n + 1)) ?_ (Log.ends_eq_some.1 hends)
    rw [List.getElem_cons_drop, List.take_append_drop]
  · rintro h front e back rfl he
    have hlt : front.length < (front ++ e :: back).length := by simp
    simpa using h front.length hlt (by simpa using Log.ends_eq_some.2 he)

instance (player : String) (log : List Log) : Decidable (Fresh player log) :=
  decidable_of_iff _ (fresh_iff_forall_lt player log).symm

instance (r : Redis × List Log) : (event : Event) → Decidable (Exclusive r event)
  | .zrange rng => inferInstanceAs (Decidable (∀ a ∈ planned rng r.1.queue, ∀ player ∈ a.players,
      Untouched r.1 player ∨ Undecided r.1 player ∧ Fresh player r.2))
  | .dequeue player => inferInstanceAs (Decidable (player ∈ r.1.queue → Undecided r.1 player))
  | .enqueue _ _ => .isTrue trivial
  | .next _ => .isTrue trivial

/-! ### Plans -/

theorem pairUp_players (rng : Nat → Nat) (n : Nat) (requests : List MatchRequest) :
    ((pairUp rng n requests).flatMap RoomAssignment.players).Sublist (requests.map (·.playerId)) := by
  fun_induction pairUp rng n requests with
  | case1 n p1 p2 rest _ ih =>
    rw [List.flatMap_cons]
    exact ih.append_left [p1.playerId, p2.playerId]
  | case2 n p1 p2 rest _ ih => exact (ih.cons _).cons _
  | case3 => exact List.nil_sublist _

theorem zrange_players (queue : TreeMap String Int32) :
    ((zrange queue).map (·.playerId)).Perm queue.keys := by
  have hperm := (List.perm_insertionSort (fun p q : MatchRequest => p.mmr ≤ q.mmr)
    (queue.toList.map fun e => ⟨e.1, e.2⟩)).map (·.playerId)
  rw [List.map_map] at hperm
  exact hperm.trans (.of_eq TreeMap.map_fst_toList_eq_keys)

/-- A plan names every player once, and only players of the queue. -/
theorem planned_players (rng : Nat → Nat) (queue : TreeMap String Int32) :
    ((planned rng queue).flatMap RoomAssignment.players).Nodup ∧
      ∀ a ∈ planned rng queue, ∀ player ∈ a.players, player ∈ queue := by
  have hsub := pairUp_players rng 0 (zrange queue)
  have hperm := zrange_players queue
  refine ⟨hsub.nodup (hperm.nodup_iff.2 queue.nodup_keys), fun a ha player hp => ?_⟩
  rw [← TreeMap.mem_keys]
  exact hperm.subset (hsub.subset (List.mem_flatMap.2 ⟨a, ha, hp⟩))

/-- The assignment that a command completes. -/
def finished : Command → Option RoomAssignment
  | .setex _ _ => none
  | .zrem _ done => done

theorem filterMap_storing (as : List RoomAssignment) :
    (as.flatMap commands).filterMap storing = as.flatMap RoomAssignment.players := by
  induction as with
  | nil => rfl
  | cons a as ih =>
    rw [List.flatMap_cons, List.flatMap_cons, List.filterMap_append, ih]
    rfl

theorem filterMap_finished (as : List RoomAssignment) : (as.flatMap commands).filterMap finished = as := by
  induction as with
  | nil => rfl
  | cons a as ih =>
    rw [List.flatMap_cons, List.filterMap_append, ih]
    rfl

/-- After the `SETEX` of a player comes its `ZREM`, and no second `SETEX`. -/
theorem commands_after_setex {as : List RoomAssignment} {front back : List Command} {player : String}
    {a : RoomAssignment} (h : as.flatMap commands = front ++ .setex player a :: back)
    (hnodup : (as.flatMap RoomAssignment.players).Nodup) :
    (∃ done, .zrem player done ∈ back) ∧ ∀ a', .setex player a' ∉ back := by
  constructor
  · clear hnodup
    induction as generalizing front with
    | nil => simp at h
    | cons b as ih =>
      rw [List.flatMap_cons] at h
      match front, h with
      | [], h =>
        simp only [commands, List.cons_append, List.nil_append, List.cons.injEq, Command.setex.injEq] at h
        obtain ⟨⟨rfl, -⟩, rfl⟩ := h
        exact ⟨none, by simp⟩
      | [_], h =>
        simp only [commands, List.cons_append, List.nil_append, List.cons.injEq, Command.setex.injEq] at h
        obtain ⟨-, ⟨rfl, -⟩, rfl⟩ := h
        exact ⟨some b, by simp⟩
      | [_, _], h => simp [commands] at h
      | [_, _, _], h => simp [commands] at h
      | _ :: _ :: _ :: _ :: front, h =>
        simp only [commands, List.cons_append, List.nil_append, List.cons.injEq] at h
        exact ih h.2.2.2.2
  · intro a' ha'
    have hstoring := filterMap_storing as
    have hcons : (Command.setex player a :: back).filterMap storing = player :: back.filterMap storing := rfl
    rw [h, List.filterMap_append, hcons] at hstoring
    rw [← hstoring] at hnodup
    have hback := (List.nodup_cons.1 (List.nodup_append.1 hnodup).2.1).1
    exact hback (List.mem_filterMap.2 ⟨_, ha', rfl⟩)

end Portfolio.Netcode.RedisMatchmaker
