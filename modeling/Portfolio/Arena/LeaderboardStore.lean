import Portfolio.Arena.PlayerProfileService
import Portfolio.Lib.Machine
import Portfolio.Lib.Ranking

/-!
# The in-memory leaderboard refines a score map

The rest of `arena60::InMemoryLeaderboardStore`. The abstract leaderboard is `scoreMap`, the map of
last scores; `Agree` says that a player stands in the group of its score and in no other.
-/

namespace Portfolio.Arena
open Std

/-- The methods of the source's `LeaderboardStore` next to `upsert`. -/
class LeaderboardReads (β : Type) extends LeaderboardStore β where
  erase : β → String → β
  topN : β → Nat → List (String × Int)
  get : β → String → Option Int
  size : β → Nat

namespace InMemoryLeaderboardStore

def erase (store : InMemoryLeaderboardStore) (playerId : String) : InMemoryLeaderboardStore :=
  match store.scores[playerId]? with
  | none => store
  | some existing =>
    let store := store.removeFromOrdered playerId existing
    { store with scores := store.scores.erase playerId }

/-- The inner loop of `TopN`: the result so far and `remaining`. -/
def takePlayers (score : Int) : List String → List (String × Int) × Nat → List (String × Int) × Nat
  | [], r => r
  | _ :: _, (result, 0) => (result, 0)
  | player :: players, (result, remaining + 1) =>
    takePlayers score players (result ++ [(player, score)], remaining)

/-- The outer loop of `TopN`, which a group that leaves nothing `remaining` ends. -/
def takeGroups : List (Int × TreeSet String) → List (String × Int) × Nat → List (String × Int)
  | [], r => r.1
  | (score, players) :: groups, r =>
    let r := takePlayers score players.toList r
    if r.2 = 0 then r.1 else takeGroups groups r

def topN (store : InMemoryLeaderboardStore) (limit : Nat) : List (String × Int) :=
  takeGroups store.ordered.toList ([], limit)

def get (store : InMemoryLeaderboardStore) (playerId : String) : Option Int := store.scores[playerId]?

def size (store : InMemoryLeaderboardStore) : Nat := store.scores.size

instance : LeaderboardReads InMemoryLeaderboardStore where
  erase := erase
  topN := topN
  get := get
  size := size

/-! ### The loops of `TopN` -/

theorem takePlayers_eq (score : Int) (players : List String) (result : List (String × Int)) (remaining : Nat) :
    takePlayers score players (result, remaining) =
      (result ++ (players.map (·, score)).take remaining, remaining - players.length) := by
  induction players generalizing result remaining with
  | nil => simp [takePlayers]
  | cons player players ih =>
    cases remaining with
    | zero => simp [takePlayers]
    | succ remaining =>
      rw [takePlayers, ih]
      simp

theorem takeGroups_eq (groups : List (Int × TreeSet String)) (result : List (String × Int)) (remaining : Nat) :
    takeGroups groups (result, remaining) =
      result ++ (groups.flatMap fun g => g.2.toList.map (·, g.1)).take remaining := by
  induction groups generalizing result remaining with
  | nil => simp [takeGroups]
  | cons g groups ih =>
    obtain ⟨score, players⟩ := g
    rw [takeGroups, takePlayers_eq, List.flatMap_cons, List.take_append, List.length_map]
    dsimp only
    split
    · next h => rw [h, List.take_zero, List.append_nil]
    · rw [ih, List.append_assoc]

theorem topN_eq (store : InMemoryLeaderboardStore) (limit : Nat) :
    store.topN limit = (GroupIndex.flatten store.ordered).take limit := by
  rw [topN, takeGroups_eq, List.nil_append, GroupIndex.flatten]

/-! ### Agreement of the two structures -/

/-- The players that `ordered` lists under a score. -/
def groupAt (store : InMemoryLeaderboardStore) (score : Int) : TreeSet String :=
  GroupIndex.groupAt store.ordered score

/-- `ordered` lists a player under its score and under no other. -/
def Agree (store : InMemoryLeaderboardStore) : Prop :=
  ∀ (p : String) (score : Int), p ∈ store.groupAt score ↔ store.scores[p]? = some score

theorem agree_new : Agree {} := by
  intro p score
  simp [groupAt, GroupIndex.groupAt]

@[simp] theorem scores_removeFromOrdered (store : InMemoryLeaderboardStore) (p : String) (score : Int) :
    (store.removeFromOrdered p score).scores = store.scores := by
  unfold removeFromOrdered
  split
  · rfl
  · dsimp only
    split
    · rfl
    · rfl

theorem mem_groupAt_removeFromOrdered (store : InMemoryLeaderboardStore) (p q : String) (score score' : Int) :
    q ∈ (store.removeFromOrdered p score).groupAt score' ↔
      q ∈ store.groupAt score' ∧ ¬ (score' = score ∧ p = q) := by
  unfold removeFromOrdered
  cases hg : store.ordered[score]? with
  | none =>
    refine (and_iff_left_of_imp ?_).symm
    rintro hq ⟨rfl, rfl⟩
    rw [groupAt, GroupIndex.groupAt, hg] at hq
    exact TreeSet.not_mem_emptyc hq
  | some players =>
    dsimp only
    split
    · next hempty =>
      have hnone := TreeSet.isEmpty_iff_forall_not_mem.1 hempty q
      rw [TreeSet.mem_erase, ne_eq, Std.compare_eq_iff_eq] at hnone
      simp only [groupAt, GroupIndex.groupAt, TreeMap.getElem?_erase, Std.compare_eq_iff_eq]
      by_cases h : score' = score
      · subst h
        simp only [hg, if_true, Option.getD_none, Option.getD_some, TreeSet.not_mem_emptyc, true_and]
        tauto
      · simp [h]
    · simp only [groupAt, GroupIndex.groupAt, TreeMap.getElem?_insert, Std.compare_eq_iff_eq]
      by_cases h : score' = score
      · subst h
        simp only [hg, if_true, Option.getD_some, TreeSet.mem_erase, ne_eq, Std.compare_eq_iff_eq, true_and]
        exact and_comm
      · simp [h]

/-- The two writes at the end of `Upsert`. -/
theorem mem_groupAt_put (store : InMemoryLeaderboardStore) (scores : TreeMap String Int) (p q : String)
    (score score' : Int) :
    q ∈ groupAt { scores := scores
                  ordered := store.ordered.insert score (((store.ordered[score]?).getD ∅).insert p) } score' ↔
      q ∈ store.groupAt score' ∨ (score' = score ∧ p = q) := by
  simp only [groupAt, GroupIndex.groupAt, TreeMap.getElem?_insert, Std.compare_eq_iff_eq]
  by_cases h : score' = score
  · subst h
    simp only [if_true, Option.getD_some, TreeSet.mem_insert, Std.compare_eq_iff_eq, true_and]
    exact or_comm
  · simp [h]

/-- After `RemoveFromOrdered` with its score a player is listed nowhere. -/
theorem Agree.mem_groupAt_remove {store : InMemoryLeaderboardStore} (h : Agree store) {p : String}
    {existing : Int} (hp : store.scores[p]? = some existing) (q : String) (score : Int) :
    q ∈ (store.removeFromOrdered p existing).groupAt score ↔ p ≠ q ∧ store.scores[q]? = some score := by
  rw [mem_groupAt_removeFromOrdered, h]
  constructor
  · rintro ⟨hq, hne⟩
    refine ⟨?_, hq⟩
    rintro rfl
    rw [hp] at hq
    exact hne ⟨(Option.some.inj hq).symm, rfl⟩
  · rintro ⟨hne, hq⟩
    exact ⟨hq, fun heq => hne heq.2⟩

theorem scores_upsert (store : InMemoryLeaderboardStore) (p q : String) (score : Int) :
    (store.upsert p score).scores[q]? = if p = q then some score else store.scores[q]? := by
  unfold upsert
  split
  · simp only [TreeMap.getElem?_insert, Std.compare_eq_iff_eq]
  · next existing hp =>
    split
    · next heq =>
      by_cases h : p = q
      · rw [if_pos h, ← h, hp, heq]
      · rw [if_neg h]
    · simp only [TreeMap.getElem?_insert, Std.compare_eq_iff_eq, scores_removeFromOrdered]

theorem Agree.upsert {store : InMemoryLeaderboardStore} (h : Agree store) (p : String) (score : Int) :
    Agree (store.upsert p score) := by
  intro q score'
  rw [scores_upsert]
  unfold InMemoryLeaderboardStore.upsert
  split
  · next hp =>
    rw [mem_groupAt_put, h]
    by_cases hq : p = q
    · subst hq
      simp [hp, eq_comm]
    · simp [hq]
  · next existing hp =>
    split
    · next heq =>
      rw [h]
      by_cases hq : p = q
      · rw [if_pos hq, ← hq, hp, heq]
      · rw [if_neg hq]
    · rw [mem_groupAt_put, h.mem_groupAt_remove hp]
      by_cases hq : p = q
      · subst hq
        simp [eq_comm]
      · simp [hq]

theorem scores_erase (store : InMemoryLeaderboardStore) (p q : String) :
    (store.erase p).scores[q]? = if p = q then none else store.scores[q]? := by
  unfold erase
  split
  · next hp =>
    by_cases h : p = q
    · rw [if_pos h, ← h, hp]
    · rw [if_neg h]
  · simp only [TreeMap.getElem?_erase, Std.compare_eq_iff_eq, scores_removeFromOrdered]

theorem Agree.erase {store : InMemoryLeaderboardStore} (h : Agree store) (p : String) :
    Agree (store.erase p) := by
  intro q score
  rw [scores_erase]
  unfold InMemoryLeaderboardStore.erase
  split
  · next hp =>
    rw [h]
    by_cases hq : p = q
    · rw [if_pos hq, ← hq, hp]
    · rw [if_neg hq]
  · next existing hp =>
    refine (h.mem_groupAt_remove hp q score).trans ?_
    by_cases hq : p = q
    · simp [hq]
    · simp [hq]

/-- What `TopN` reads is the ranking of the scores. -/
theorem Agree.flatten_eq {store : InMemoryLeaderboardStore} (h : Agree store) :
    GroupIndex.flatten store.ordered = rankSort Prod.fst Prod.snd store.scores.toList := by
  refine eq_rankSort _ _ (pairwise_toList store.scores) (GroupIndex.pairwise_flatten store.ordered) ?_
  rintro ⟨p, score⟩
  rw [GroupIndex.mem_flatten, TreeMap.mem_toList_iff_getElem?_eq_some]
  exact h p score

/-! ### Histories -/

inductive LeaderboardOp where
  | upsert (playerId : String) (score : Int)
  | erase (playerId : String)
  deriving DecidableEq, Repr

def LeaderboardOp.exec (store : InMemoryLeaderboardStore) : LeaderboardOp → InMemoryLeaderboardStore
  | .upsert playerId score => store.upsert playerId score
  | .erase playerId => store.erase playerId

def LeaderboardOp.write (scores : TreeMap String Int) : LeaderboardOp → TreeMap String Int
  | .upsert playerId score => scores.insert playerId score
  | .erase playerId => scores.erase playerId

/-- The store after the calls `ops`. -/
def after (ops : List LeaderboardOp) : InMemoryLeaderboardStore := ops.foldl LeaderboardOp.exec {}

/-- The plain map of last scores after the calls `ops`. -/
def scoreMap (ops : List LeaderboardOp) : TreeMap String Int := ops.foldl LeaderboardOp.write ∅

/-- The step of the refinement: the index agrees, and the scores are those of the plain map. -/
theorem Agree.exec {store : InMemoryLeaderboardStore} {scores : TreeMap String Int} (h : Agree store)
    (heq : ∀ p : String, store.scores[p]? = scores[p]?) (op : LeaderboardOp) :
    Agree (op.exec store) ∧ ∀ p : String, (op.exec store).scores[p]? = (op.write scores)[p]? := by
  cases op with
  | upsert p score =>
    refine ⟨h.upsert p score, fun q => ?_⟩
    simp only [LeaderboardOp.exec, LeaderboardOp.write, scores_upsert, TreeMap.getElem?_insert,
      Std.compare_eq_iff_eq, heq]
  | erase p =>
    refine ⟨h.erase p, fun q => ?_⟩
    simp only [LeaderboardOp.exec, LeaderboardOp.write, scores_erase, TreeMap.getElem?_erase,
      Std.compare_eq_iff_eq, heq]

theorem agree_after (ops : List LeaderboardOp) :
    Agree (after ops) ∧ ∀ p : String, (after ops).scores[p]? = (scoreMap ops)[p]? := by
  induction ops using List.reverseRecOn with
  | nil => exact ⟨agree_new, fun p => rfl⟩
  | append_singleton ops op ih =>
    rw [after, scoreMap, List.foldl_concat, List.foldl_concat]
    exact ih.1.exec ih.2 op

/-- The store is the plain map: `get` and `size` read it, `topN` is the front of its ranking. -/
theorem leaderboard_refines_score_map (ops : List LeaderboardOp) :
    (∀ p, (after ops).get p = (scoreMap ops)[p]?) ∧ (after ops).size = (scoreMap ops).size ∧
    ∀ n, (after ops).topN n =
      (rankSort Prod.fst Prod.snd (scoreMap ops).toList).take (min n (after ops).size) := by
  obtain ⟨hagree, hscores⟩ := agree_after ops
  have hequiv : (after ops).scores.Equiv (scoreMap ops) := TreeMap.Equiv.of_forall_constGet?_eq hscores
  refine ⟨hscores, hequiv.size_eq, fun n => ?_⟩
  have hlen : (rankSort Prod.fst Prod.snd (scoreMap ops).toList).length = (after ops).size := by
    rw [length_rankSort, TreeMap.length_toList]
    exact hequiv.size_eq.symm
  rw [topN_eq, hagree.flatten_eq, hequiv.toList_eq, ← hlen, List.take_eq_take_min]

/-- A changed score moves a player, an erased one is gone, equal scores stand by id. -/
example : (after [.upsert "b" 1200, .upsert "a" 1200, .upsert "c" 1150, .upsert "c" 1300,
    .upsert "d" 1100, .erase "d"]).topN 5 = [("c", 1300), ("a", 1200), ("b", 1200)] := by
  decide +kernel

end InMemoryLeaderboardStore

end Portfolio.Arena
