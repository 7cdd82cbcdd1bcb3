import Mathlib.Algebra.Group.Int.Defs
import Mathlib.Algebra.Group.Nat.Defs
import Portfolio.Lib.StableSort
import Portfolio.Netcode.RedisMatchmaker

/-!
# What a `process_queue` call leaves in the queue

A call that runs alone takes the queue two players at a time, in the order of their ratings, and
takes out the two when they are compatible. Neighbours of which one is the second of its two and the
other the first of its two are never compared: they stay in the queue side by side unless the ratings
line up with the stride (`StrideFits`). Two players whose difference wraps around to a small one are
taken for close ones (`NoWrap`).
-/

namespace Portfolio.Netcode.RedisMatchmaker
open Std

/-- Close enough for a match. -/
def Close (p q : MatchRequest) : Prop := (p.mmr.toInt - q.mmr.toInt).natAbs ≤ mmrTolerance

instance (p q : MatchRequest) : Decidable (Close p q) :=
  inferInstanceAs (Decidable ((p.mmr.toInt - q.mmr.toInt).natAbs ≤ mmrTolerance))

/-- So far apart that the difference wraps around to one within the tolerance. -/
def Wraps (p q : MatchRequest) : Prop :=
  (p.mmr.toInt - q.mmr.toInt).natAbs = 2 ^ 31 ∨
    2 ^ 32 - mmrTolerance ≤ (p.mmr.toInt - q.mmr.toInt).natAbs

instance (p q : MatchRequest) : Decidable (Wraps p q) :=
  inferInstanceAs (Decidable (_ = _ ∨ _ ≤ _))

theorem toInt_abs (x : Int32) : x.abs.toInt = if x.toInt = -2 ^ 31 then -2 ^ 31 else (x.toInt.natAbs : Int) := by
  have hmin : x.toBitVec = BitVec.intMin 32 ↔ x.toInt = -2 ^ 31 := by
    rw [← BitVec.toInt_inj]
    exact Iff.rfl
  show x.toBitVec.abs.toInt = _
  rw [BitVec.toInt_abs_eq_natAbs, if_congr hmin rfl rfl]
  rfl

theorem compatible_iff (p q : MatchRequest) : Compatible p q ↔ Close p q ∨ Wraps p q := by
  have hp := p.mmr.le_toInt
  have hp' := p.mmr.toInt_lt
  have hq := q.mmr.le_toInt
  have hq' := q.mmr.toInt_lt
  rw [Compatible, toInt_abs, Int32.toInt_sub, Int.bmod_eq_emod]
  unfold Close Wraps mmrTolerance
  split <;> split <;> omega

example : Compatible ⟨"ann", -2147483648⟩ ⟨"bob", 2147483647⟩ := by decide

theorem not_wraps_of_close {p q : MatchRequest} (h : Close p q) : ¬ Wraps p q := by
  have hp := p.mmr.le_toInt
  unfold Close mmrTolerance at h
  unfold Wraps mmrTolerance
  omega

/-- The players that a call leaves, in the order of the queue. -/
def unpaired : List MatchRequest → List MatchRequest
  | p1 :: p2 :: rest => if Compatible p1 p2 then unpaired rest else p1 :: p2 :: unpaired rest
  | rest => rest

/-- The two players of the `k`-th step are not matched: they are not close, or there is only one. -/
def Open (requests : List MatchRequest) (k : Nat) : Prop :=
  2 * k < requests.length ∧
    ∀ p q, requests[2 * k]? = some p → requests[2 * k + 1]? = some q → ¬ Close p q

/-- Of two steps without a match, with matches only between them, the second player of the earlier
is not close to the first player of the later. -/
def StrideFits (requests : List MatchRequest) : Prop :=
  ∀ j k, j < k → Open requests j → Open requests k → (∀ m, j < m → m < k → ¬ Open requests m) →
    ∀ p q, requests[2 * j + 1]? = some p → requests[2 * k]? = some q → ¬ Close p q

/-- In no step do the ratings of the two players wrap around. -/
def NoWrap (requests : List MatchRequest) : Prop :=
  ∀ k p q, requests[2 * k]? = some p → requests[2 * k + 1]? = some q → ¬ Wraps p q

/-! ### Steps of two -/

section
variable {p1 p2 : MatchRequest} {rest : List MatchRequest}

theorem noWrap_cons : NoWrap (p1 :: p2 :: rest) ↔ ¬ Wraps p1 p2 ∧ NoWrap rest := by
  constructor
  · exact fun h => ⟨h 0 p1 p2 rfl rfl, fun k p q hp hq => h (k + 1) p q hp hq⟩
  · rintro ⟨h0, h⟩ k p q hp hq
    cases k with
    | zero =>
      obtain rfl : p1 = p := Option.some.inj hp
      obtain rfl : p2 = q := Option.some.inj hq
      exact h0
    | succ k => exact h k p q hp hq

theorem close_iff_compatible {p q : MatchRequest} (h : ¬ Wraps p q) : Compatible p q ↔ Close p q := by
  rw [compatible_iff, or_iff_left h]

theorem open_cons_succ (k : Nat) : Open (p1 :: p2 :: rest) (k + 1) ↔ Open rest k := by
  have hshift : 2 * (k + 1) = 2 * k + 1 + 1 := by omega
  unfold Open
  rw [hshift]
  simp only [List.getElem?_cons_succ, List.length_cons]
  refine and_congr_left fun _ => ?_
  omega

theorem open_cons_zero : Open (p1 :: p2 :: rest) 0 ↔ ¬ Close p1 p2 := by
  constructor
  · rintro ⟨-, h⟩
    exact h p1 p2 rfl rfl
  · intro h
    refine ⟨by simp, fun p q hp hq => ?_⟩
    obtain rfl : p1 = p := Option.some.inj hp
    obtain rfl : p2 = q := Option.some.inj hq
    exact h

/-- The first player left is the first of the first step without a match. -/
theorem head?_unpaired {requests : List MatchRequest} (h : NoWrap requests) (q : MatchRequest) :
    (unpaired requests).head? = some q ↔
      ∃ k, Open requests k ∧ (∀ m < k, ¬ Open requests m) ∧ requests[2 * k]? = some q := by
  fun_induction unpaired requests with
  | case1 p1 p2 rest hcompatible ih =>
    obtain ⟨hwrap, hrest⟩ := noWrap_cons.1 h
    have hclose := (close_iff_compatible hwrap).1 hcompatible
    rw [ih hrest]
    constructor
    · rintro ⟨k, hk, hfirst, hq⟩
      refine ⟨k + 1, (open_cons_succ k).2 hk, fun m hm => ?_, hq⟩
      cases m with
      | zero => exact fun h => open_cons_zero.1 h hclose
      | succ m => exact fun h => hfirst m (Nat.lt_of_succ_lt_succ hm) ((open_cons_succ m).1 h)
    · rintro ⟨k, hk, hfirst, hq⟩
      cases k with
      | zero => exact absurd hclose (open_cons_zero.1 hk)
      | succ k =>
        refine ⟨k, (open_cons_succ k).1 hk, fun m hm => ?_, hq⟩
        exact fun h => hfirst (m + 1) (Nat.succ_lt_succ hm) ((open_cons_succ m).2 h)
  | case2 p1 p2 rest hapart _ =>
    have hfar : ¬ Close p1 p2 := fun hclose => hapart ((compatible_iff p1 p2).2 (.inl hclose))
    have hopen : Open (p1 :: p2 :: rest) 0 := open_cons_zero.2 hfar
    constructor
    · intro h
      exact ⟨0, hopen, by simp, h⟩
    · rintro ⟨k, -, hfirst, hq⟩
      obtain rfl : k = 0 := by
        by_contra hk
        exact hfirst 0 (Nat.pos_of_ne_zero hk) hopen
      exact hq
  | case3 requests hshort =>
    rcases requests with _ | ⟨p, _ | ⟨p', rest⟩⟩
    · simp [Open]
    · constructor
      · intro h
        exact ⟨0, ⟨by simp, by simp⟩, by simp, h⟩
      · rintro ⟨k, ⟨hk, -⟩, -, hq⟩
        obtain rfl : k = 0 := by
          simp only [List.length_singleton] at hk
          omega
        exact hq
    · exact absurd rfl (hshort p p' rest)

theorem strideFits_cons_of_close (h : Close p1 p2) : StrideFits (p1 :: p2 :: rest) ↔ StrideFits rest := by
  have hzero : ¬ Open (p1 :: p2 :: rest) 0 := fun hopen => open_cons_zero.1 hopen h
  constructor
  · intro hfits j k hjk hj hk hbetween p q hp hq
    refine hfits (j + 1) (k + 1) (Nat.succ_lt_succ hjk) ((open_cons_succ j).2 hj) ((open_cons_succ k).2 hk)
      (fun m hjm hmk => ?_) p q hp hq
    obtain ⟨m, rfl⟩ := Nat.exists_eq_succ_of_ne_zero (Nat.ne_zero_of_lt hjm)
    exact fun hm => hbetween m (by omega) (by omega) ((open_cons_succ m).1 hm)
  · intro hfits j k hjk hj hk hbetween p q hp hq
    cases j with
    | zero => exact absurd hj hzero
    | succ j =>
      obtain ⟨k, rfl⟩ := Nat.exists_eq_succ_of_ne_zero (Nat.ne_zero_of_lt hjk)
      refine hfits j k (by omega) ((open_cons_succ j).1 hj) ((open_cons_succ k).1 hk)
        (fun m hjm hmk hm => ?_) p q hp hq
      exact hbetween (m + 1) (by omega) (by omega) ((open_cons_succ m).2 hm)

theorem strideFits_cons_of_far (h : ¬ Close p1 p2) (hwrap : NoWrap rest) :
    StrideFits (p1 :: p2 :: rest) ↔
      (∀ q, (unpaired rest).head? = some q → ¬ Close p2 q) ∧ StrideFits rest := by
  have hzero : Open (p1 :: p2 :: rest) 0 := open_cons_zero.2 h
  constructor
  · intro hfits
    refine ⟨fun q hq => ?_, fun j k hjk hj hk hbetween p q hp hq => ?_⟩
    · obtain ⟨k, hk, hfirst, hget⟩ := (head?_unpaired hwrap q).1 hq
      refine hfits 0 (k + 1) (Nat.succ_pos k) hzero ((open_cons_succ k).2 hk) (fun m h0 hm => ?_) p2 q rfl hget
      obtain ⟨m, rfl⟩ := Nat.exists_eq_succ_of_ne_zero (Nat.ne_zero_of_lt h0)
      exact fun hopen => hfirst m (by omega) ((open_cons_succ m).1 hopen)
    · refine hfits (j + 1) (k + 1) (Nat.succ_lt_succ hjk) ((open_cons_succ j).2 hj) ((open_cons_succ k).2 hk)
        (fun m hjm hmk => ?_) p q hp hq
      obtain ⟨m, rfl⟩ := Nat.exists_eq_succ_of_ne_zero (Nat.ne_zero_of_lt hjm)
      exact fun hm => hbetween m (by omega) (by omega) ((open_cons_succ m).1 hm)
  · rintro ⟨hhead, hfits⟩ j k hjk hj hk hbetween p q hp hq
    obtain ⟨k, rfl⟩ := Nat.exists_eq_succ_of_ne_zero (Nat.ne_zero_of_lt hjk)
    cases j with
    | zero =>
      obtain rfl : p2 = p := Option.some.inj hp
      refine hhead q ((head?_unpaired hwrap q).2 ⟨k, (open_cons_succ k).1 hk, fun m hm hopen => ?_, hq⟩)
      exact hbetween (m + 1) (Nat.succ_pos m) (by omega) ((open_cons_succ m).2 hopen)
    | succ j =>
      refine hfits j k (by omega) ((open_cons_succ j).1 hj) ((open_cons_succ k).1 hk)
        (fun m hjm hmk hm => ?_) p q hp hq
      exact hbetween (m + 1) (by omega) (by omega) ((open_cons_succ m).2 hm)

end

/-- Neighbours among the players left are far apart if and only if the ratings fit the stride. -/
theorem isChain_unpaired_iff {requests : List MatchRequest} (h : NoWrap requests) :
    (unpaired requests).IsChain (fun p q => ¬ Close p q) ↔ StrideFits requests := by
  fun_induction unpaired requests with
  | case1 p1 p2 rest hcompatible ih =>
    obtain ⟨hwrap, hrest⟩ := noWrap_cons.1 h
    rw [ih hrest, strideFits_cons_of_close ((close_iff_compatible hwrap).1 hcompatible)]
  | case2 p1 p2 rest hapart ih =>
    obtain ⟨-, hrest⟩ := noWrap_cons.1 h
    have hfar : ¬ Close p1 p2 := fun hclose => hapart ((compatible_iff p1 p2).2 (.inl hclose))
    rw [strideFits_cons_of_far hfar hrest, ← ih hrest, List.isChain_cons_cons]
    refine and_iff_right_of_imp (fun _ => hfar) |>.trans ?_
    cases unpaired rest with
    | nil => simp
    | cons q left => simp [List.isChain_cons_cons]
  | case3 requests hshort =>
    rcases requests with _ | ⟨p, _ | ⟨p', rest⟩⟩
    · exact iff_of_true .nil fun j k _ hj => absurd hj.1 (by simp)
    · refine iff_of_true (.singleton p) fun j k hjk hj hk => ?_
      have hk := hk.1
      simp only [List.length_singleton] at hk
      omega
    · exact absurd rfl (hshort p p' rest)

/-! ### The queue afterwards -/

theorem zrange_erase (queue : TreeMap String Int32) (player : String) :
    zrange (queue.erase player) = (zrange queue).filter fun p => p.playerId ≠ player := by
  unfold zrange
  rw [toList_erase, ← insertionSort_filter, List.filter_map]
  rfl

theorem zrange_eraseAll (players : List String) (queue : TreeMap String Int32) :
    zrange (players.foldl TreeMap.erase queue) =
      (zrange queue).filter fun p => p.playerId ∉ players := by
  induction players generalizing queue with
  | nil =>
    rw [List.foldl_nil, List.filter_eq_self.2]
    simp
  | cons player players ih =>
    rw [List.foldl_cons, ih, zrange_erase, List.filter_filter]
    refine List.filter_congr fun p _ => ?_
    simp [not_or, Bool.and_comm]

/-- Taking out the players of all pairs leaves the unpaired ones. -/
theorem filter_pairUp (rng : Nat → Nat) (n : Nat) {requests : List MatchRequest}
    (h : (requests.map (·.playerId)).Nodup) :
    requests.filter (fun p => p.playerId ∉ (pairUp rng n requests).flatMap RoomAssignment.players) =
      unpaired requests := by
  fun_induction pairUp rng n requests with
  | case1 n p1 p2 rest hclose ih =>
    simp only [List.map_cons, List.nodup_cons, List.mem_cons, not_or] at h
    obtain ⟨⟨-, h1⟩, h2, hrest⟩ := h
    rw [unpaired, if_pos hclose, ← ih hrest, List.filter_cons_of_neg, List.filter_cons_of_neg]
    · refine List.filter_congr fun p hp => ?_
      have hne : ∀ q : MatchRequest, q.playerId ∉ rest.map (·.playerId) → p.playerId ≠ q.playerId := by
        intro q hq heq
        exact hq (heq ▸ List.mem_map_of_mem hp)
      simp [RoomAssignment.players, hne p1 h1, hne p2 h2]
    · simp [RoomAssignment.players]
    · simp [RoomAssignment.players]
  | case2 n p1 p2 rest hfar ih =>
    simp only [List.map_cons, List.nodup_cons, List.mem_cons, not_or] at h
    obtain ⟨⟨-, h1⟩, h2, hrest⟩ := h
    have hsub := pairUp_players rng n rest
    rw [unpaired, if_neg hfar, ← ih hrest, List.filter_cons_of_pos, List.filter_cons_of_pos]
    · simpa using fun hmem => h2 (hsub.subset hmem)
    · simpa using fun hmem => h1 (hsub.subset hmem)
  | case3 requests n hshort =>
    rw [unpaired.eq_2 _ hshort, List.filter_eq_self]
    simp

/-! ### A call that runs alone -/

/-- The players that commands take out of the queue. -/
def removals (todo : List Command) : List String :=
  todo.filterMap fun
    | .setex _ _ => none
    | .zrem player _ => some player

theorem removals_commands (as : List RoomAssignment) :
    removals (as.flatMap commands) = as.flatMap RoomAssignment.players := by
  induction as with
  | nil => rfl
  | cons a as ih =>
    rw [removals, List.flatMap_cons, List.filterMap_append]
    exact congrArg (a.players ++ ·) ih

/-- One command of a call. -/
theorem next_spec {s : Redis} {id : Nat} {c : Command} {rest : List Command} {as : List RoomAssignment}
    (h : s.calls[id]? = some { todo := c :: rest, assignments := as }) :
    (step s (.next id)).1.queue = (removals [c]).foldl TreeMap.erase s.queue ∧
      (rest = [] → ∃ log, (step s (.next id)).2 = log ++ [.returned id (as ++ (finished c).toList)]) ∧
      (rest ≠ [] → (step s (.next id)).1.calls[id]? =
        some { todo := rest, assignments := as ++ (finished c).toList }) := by
  have hstep : step s (.next id) = s.issue id { todo := c :: rest, assignments := as } := by
    rw [step, h]
  rw [hstep]
  cases c with
  | setex player a =>
    have hnone : as ++ (finished (.setex player a)).toList = as := List.append_nil as
    rw [hnone]
    cases rest with
    | nil => exact ⟨rfl, fun _ => ⟨[.stored id player a], rfl⟩, fun h => absurd rfl h⟩
    | cons d rest =>
      refine ⟨rfl, fun h => absurd h (List.cons_ne_nil d rest), fun _ => ?_⟩
      exact TreeMap.getElem?_insert_self
  | zrem player done =>
    cases rest with
    | nil => exact ⟨rfl, fun _ => ⟨[], rfl⟩, fun h => absurd rfl h⟩
    | cons d rest =>
      refine ⟨rfl, fun h => absurd h (List.cons_ne_nil d rest), fun _ => ?_⟩
      exact TreeMap.getElem?_insert_self

/-- The commands of a call, one after the other. -/
theorem run_next {id : Nat} {todo : List Command} (hne : todo ≠ []) {s : Redis} {as : List RoomAssignment}
    (h : s.calls[id]? = some { todo := todo, assignments := as }) :
    let r := (matchMachine.startAt s).run (List.replicate todo.length (.next id))
    r.1.queue = (removals todo).foldl TreeMap.erase s.queue ∧
      r.2.getLast? = some (.returned id (as ++ todo.filterMap finished)) := by
  induction todo generalizing s as with
  | nil => exact absurd rfl hne
  | cons c rest ih =>
    obtain ⟨hqueue, hlast, hcall⟩ := next_spec h
    have hremovals : removals (c :: rest) = removals [c] ++ removals rest :=
      List.filterMap_append (l := [c])
    have hfinished : (c :: rest).filterMap finished = (finished c).toList ++ rest.filterMap finished := by
      cases hc : finished c with
      | none => rw [List.filterMap_cons_none hc]; rfl
      | some a => rw [List.filterMap_cons_some hc]; rfl
    dsimp only
    rw [List.length_cons, List.replicate_succ, Machine.run_cons, hremovals, List.foldl_append, ← hqueue,
      hfinished, ← List.append_assoc]
    by_cases hrest : rest = []
    · subst hrest
      obtain ⟨log, hlog⟩ := hlast rfl
      refine ⟨rfl, ?_⟩
      show ((step s (.next id)).2 ++ []).getLast? = _
      rw [List.append_nil, hlog, List.getLast?_concat, List.filterMap_nil, List.append_nil]
    · obtain ⟨hq, hl⟩ := ih hrest (hcall hrest)
      refine ⟨hq, ?_⟩
      show ((step s (.next id)).2 ++ _).getLast? = _
      rw [List.getLast?_append]
      exact (congrArg (fun last => Option.or last _) hl).trans rfl

/-- A call that has the server to itself: its `ZRANGE` and then its commands. -/
def aloneEvents (rng : Nat → Nat) (s : Redis) : List Event :=
  .zrange rng :: List.replicate (4 * (planned rng s.queue).length) (.next s.nextCall)

def alone (rng : Nat → Nat) (s : Redis) : Redis × List Log :=
  (matchMachine.startAt s).run (aloneEvents rng s)

theorem length_flatMap_commands (as : List RoomAssignment) : (as.flatMap commands).length = 4 * as.length := by
  induction as with
  | nil => rfl
  | cons a as ih =>
    rw [List.flatMap_cons, List.length_append, ih, List.length_cons]
    show 4 + _ = _
    omega

theorem alone_spec (rng : Nat → Nat) (s : Redis) :
    zrange (alone rng s).1.queue = unpaired (zrange s.queue) ∧
      (alone rng s).2.getLast? = some (.returned s.nextCall (planned rng s.queue)) := by
  have hnodup : ((zrange s.queue).map (·.playerId)).Nodup :=
    (zrange_players s.queue).nodup_iff.2 s.queue.nodup_keys
  have hleft : zrange (((planned rng s.queue).flatMap RoomAssignment.players).foldl TreeMap.erase s.queue) =
      unpaired (zrange s.queue) := by
    rw [zrange_eraseAll]
    exact filter_pairUp rng 0 hnodup
  by_cases hnone : planned rng s.queue = []
  · have hstep : step s (.zrange rng) =
        ({ s with nextCall := s.nextCall + 1, calls := s.calls.erase s.nextCall },
          [.returned s.nextCall []]) := by
      rw [step, hnone]
      rfl
    have halone : alone rng s = step s (.zrange rng) := by
      rw [alone, aloneEvents, hnone]
      exact Prod.ext rfl (List.nil_append _)
    rw [halone, hstep, hnone]
    rw [hnone] at hleft
    exact ⟨hleft, rfl⟩
  · have htodo : (planned rng s.queue).flatMap commands ≠ [] := by
      intro h
      have hlen := length_flatMap_commands (planned rng s.queue)
      rw [h, List.length_nil] at hlen
      exact hnone (List.length_eq_zero_iff.1 (by omega))
    have hstep : step s (.zrange rng) =
        ({ s with
            nextCall := s.nextCall + 1
            calls := s.calls.insert s.nextCall { todo := (planned rng s.queue).flatMap commands } }, []) := by
      rw [step, Redis.putCall, if_neg htodo]
    have hcall : (step s (.zrange rng)).1.calls[s.nextCall]? =
        some { todo := (planned rng s.queue).flatMap commands, assignments := [] } := by
      rw [hstep]
      exact TreeMap.getElem?_insert_self
    obtain ⟨hqueue, hlast⟩ := run_next htodo hcall
    rw [length_flatMap_commands, removals_commands] at hqueue
    rw [length_flatMap_commands, filterMap_finished, List.nil_append] at hlast
    have halone : alone rng s = (((matchMachine.startAt (step s (.zrange rng)).1).run
        (List.replicate (4 * (planned rng s.queue).length) (.next s.nextCall))).1,
        (step s (.zrange rng)).2 ++ ((matchMachine.startAt (step s (.zrange rng)).1).run
        (List.replicate (4 * (planned rng s.queue).length) (.next s.nextCall))).2) :=
      Machine.run_cons _ _ _
    rw [halone]
    constructor
    · dsimp only
      rw [hqueue, ← hleft, hstep]
    · dsimp only
      rw [hstep, List.nil_append, ← hstep]
      exact hlast

/-! ### What a call should leave -/

/-- Nobody left stands beside a player that is close, and the pairs are distinct players of the
queue that are close, nobody in two of them. -/
structure LeavesNoMatch (before after : TreeMap String Int32) (assignments : List RoomAssignment) : Prop where
  apart : (zrange after).IsChain fun p q => ¬ Close p q
  pairs : ∀ a ∈ assignments, ∃ mmr mmr', before[a.playerId]? = some mmr ∧
    before[a.opponentId]? = some mmr' ∧ (mmr.toInt - mmr'.toInt).natAbs ≤ mmrTolerance
  once : (assignments.flatMap RoomAssignment.players).Nodup

theorem mem_zrange {queue : TreeMap String Int32} {p : MatchRequest} (h : p ∈ zrange queue) :
    queue[p.playerId]? = some p.mmr := by
  obtain ⟨e, he, rfl⟩ := List.mem_map.1 ((List.mem_insertionSort _).1 h)
  exact TreeMap.mem_toList_iff_getElem?_eq_some.1 he

theorem pairUp_steps (rng : Nat → Nat) (n : Nat) (requests : List MatchRequest) :
    ∀ a ∈ pairUp rng n requests, ∃ k p q, requests[2 * k]? = some p ∧ requests[2 * k + 1]? = some q ∧
      Compatible p q ∧ a.playerId = p.playerId ∧ a.opponentId = q.playerId := by
  fun_induction pairUp rng n requests with
  | case1 n p1 p2 rest hcompatible ih =>
    intro a ha
    rcases List.mem_cons.1 ha with rfl | ha
    · exact ⟨0, p1, p2, rfl, rfl, hcompatible, rfl, rfl⟩
    · obtain ⟨k, p, q, h⟩ := ih a ha
      exact ⟨k + 1, p, q, h⟩
  | case2 n p1 p2 rest _ ih =>
    intro a ha
    obtain ⟨k, p, q, h⟩ := ih a ha
    exact ⟨k + 1, p, q, h⟩
  | case3 => simp

/-- Compatible players of one step are paired. -/
theorem mem_pairUp_of_compatible (rng : Nat → Nat) (n : Nat) (requests : List MatchRequest) :
    ∀ k p q, requests[2 * k]? = some p → requests[2 * k + 1]? = some q → Compatible p q →
      ∃ a ∈ pairUp rng n requests, a.playerId = p.playerId ∧ a.opponentId = q.playerId := by
  fun_induction pairUp rng n requests with
  | case1 n p1 p2 rest _ ih =>
    intro k p q hp hq hcompatible
    cases k with
    | zero =>
      obtain rfl : p1 = p := Option.some.inj hp
      obtain rfl : p2 = q := Option.some.inj hq
      exact ⟨_, List.mem_cons_self, rfl, rfl⟩
    | succ k =>
      obtain ⟨a, ha, h⟩ := ih k p q hp hq hcompatible
      exact ⟨a, List.mem_cons_of_mem _ ha, h⟩
  | case2 n p1 p2 rest hapart ih =>
    intro k p q hp hq hcompatible
    cases k with
    | zero =>
      obtain rfl : p1 = p := Option.some.inj hp
      obtain rfl : p2 = q := Option.some.inj hq
      exact absurd hcompatible hapart
    | succ k => exact ih k p q hp hq hcompatible
  | case3 requests n hshort =>
    intro k p q hp hq
    rcases requests with _ | ⟨p1, _ | ⟨p2, rest⟩⟩
    · simp at hp
    · simp at hq
    · exact absurd rfl (hshort p1 p2 rest)

/-- A pair that wraps around is no pair of close players. -/
theorem LeavesNoMatch.noWrap {rng : Nat → Nat} {queue after : TreeMap String Int32}
    (h : LeavesNoMatch queue after (planned rng queue)) : NoWrap (zrange queue) := by
  intro k p q hp hq hwrap
  have hcompatible : Compatible p q := (compatible_iff p q).2 (.inr hwrap)
  obtain ⟨a, ha, hplayer, hopponent⟩ := mem_pairUp_of_compatible rng 0 _ k p q hp hq hcompatible
  obtain ⟨mmr, mmr', hmmr, hmmr', hclose⟩ := h.pairs a ha
  rw [hplayer, mem_zrange (List.mem_of_getElem? hp)] at hmmr
  rw [hopponent, mem_zrange (List.mem_of_getElem? hq)] at hmmr'
  obtain rfl := Option.some.inj hmmr
  obtain rfl := Option.some.inj hmmr'
  exact not_wraps_of_close hclose hwrap

/-- A call that runs alone returns its pairs. It pairs nobody that is not close and leaves no match
behind if and only if no step wraps around and the ratings in the queue fit its stride. -/
theorem process_queue_leaves_iff (rng : Nat → Nat) (s : Redis) :
    ∃ assignments, (alone rng s).2.getLast? = some (.returned s.nextCall assignments) ∧
      (LeavesNoMatch s.queue (alone rng s).1.queue assignments ↔
        NoWrap (zrange s.queue) ∧ StrideFits (zrange s.queue)) := by
  obtain ⟨hleft, hlast⟩ := alone_spec rng s
  refine ⟨planned rng s.queue, hlast, ?_⟩
  constructor
  · intro h
    have hwrap := h.noWrap
    exact ⟨hwrap, (isChain_unpaired_iff hwrap).1 (hleft ▸ h.apart)⟩
  · rintro ⟨hwrap, hfits⟩
    refine ⟨hleft ▸ (isChain_unpaired_iff hwrap).2 hfits, fun a ha => ?_, (planned_players rng s.queue).1⟩
    obtain ⟨k, p, q, hp, hq, hcompatible, hplayer, hopponent⟩ := pairUp_steps rng 0 _ a ha
    refine ⟨p.mmr, q.mmr, hplayer ▸ mem_zrange (List.mem_of_getElem? hp),
      hopponent ▸ mem_zrange (List.mem_of_getElem? hq), ?_⟩
    exact (close_iff_compatible (hwrap k p q hp hq)).1 hcompatible

/-- Three players: the first two are too far apart, the last two are not compared. -/
def threeQueued : Redis :=
  { queue := ((∅ : TreeMap String Int32).insert "ann" 1000).insert "bob" 1300 |>.insert "cid" 1400 }

theorem neighbours_left_unmatched :
    (alone (fun _ => 0) threeQueued).2 = [.returned 0 []] ∧
      zrange (alone (fun _ => 0) threeQueued).1.queue = [⟨"ann", 1000⟩, ⟨"bob", 1300⟩, ⟨"cid", 1400⟩] ∧
      ¬ LeavesNoMatch threeQueued.queue (alone (fun _ => 0) threeQueued).1.queue [] := by
  have hqueue : zrange (alone (fun _ => 0) threeQueued).1.queue =
      [⟨"ann", 1000⟩, ⟨"bob", 1300⟩, ⟨"cid", 1400⟩] := by decide +kernel
  refine ⟨by decide +kernel, hqueue, fun h => ?_⟩
  have hapart := h.apart
  rw [hqueue] at hapart
  exact absurd hapart (by decide)

end Portfolio.Netcode.RedisMatchmaker
