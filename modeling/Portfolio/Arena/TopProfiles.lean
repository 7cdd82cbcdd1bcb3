import Portfolio.Arena.LeaderboardStore

/-!
# `PlayerProfileService::TopProfiles`

With a store the profiles follow the leaderboard, which knows the winners and losers; without one
all aggregates are sorted. The two rankings differ by the bystanders: players that only ever stood
in the statistics of a match.
-/

namespace Portfolio.Arena
open Std

namespace PlayerProfileService

/-- `std::sort` by a strict order that is total on distinct ids has one result, that of `rankSort`. -/
def topProfiles {β : Type} [LeaderboardReads β] (service : PlayerProfileService β) (limit : Nat) :
    List PlayerProfile :=
  match service.leaderboard with
  | none =>
    let profiles := service.aggregates.toList.map fun kv => buildProfileUnsafe kv.1 kv.2
    (rankSort PlayerProfile.playerId PlayerProfile.rating profiles).take limit
  | some leaderboard =>
    let ordered := LeaderboardReads.topN leaderboard limit
    ordered.filterMap fun entry => (service.aggregates[entry.1]?).map (buildProfileUnsafe entry.1)

/-- A new service that recorded `results`. -/
def recorded (update : Int → Int → EloRatingUpdate) (leaderboard : Option InMemoryLeaderboardStore)
    (results : List MatchResult) : PlayerProfileService InMemoryLeaderboardStore :=
  results.foldl (recordMatch update) { leaderboard := leaderboard }

/-- Winner or loser of some match. -/
def Rated (results : List MatchResult) (p : String) : Prop :=
  ∃ r ∈ results, r.winnerId = p ∨ r.loserId = p

/-- In the statistics of some match. -/
def Listed (results : List MatchResult) (p : String) : Prop :=
  ∃ r ∈ results, ∃ s ∈ r.playerStats, s.playerId = p

instance (results : List MatchResult) (p : String) : Decidable (Rated results p) :=
  inferInstanceAs (Decidable (∃ r ∈ results, r.winnerId = p ∨ r.loserId = p))

instance (results : List MatchResult) (p : String) : Decidable (Listed results p) :=
  inferInstanceAs (Decidable (∃ r ∈ results, ∃ s ∈ r.playerStats, s.playerId = p))

def Bystander (results : List MatchResult) (p : String) : Prop := Listed results p ∧ ¬ Rated results p

/-- The players that rank before a player of id `b` with the rating every player starts with. -/
def playersAhead {β : Type} (service : PlayerProfileService β) (b : String) : Nat :=
  service.aggregates.toList.countP fun kv => kv.2.rating > 1200 || (kv.2.rating = 1200 && kv.1 < b)

/-! ### One match -/

theorem mem_alterD {β : Type} {d : String → β} {m : TreeMap String β} {k j : String} {f : β → β} :
    j ∈ alterD d m k f ↔ k = j ∨ j ∈ m := by
  unfold alterD
  rw [TreeMap.mem_insert, Std.compare_eq_iff_eq]

theorem mem_addMatch (aggregates : TreeMap String AggregateStats) (stats : List PlayerMatchStats) (p : String) :
    p ∈ addMatch aggregates stats ↔ p ∈ aggregates ∨ ∃ s ∈ stats, s.playerId = p := by
  induction stats generalizing aggregates with
  | nil => simp [addMatch]
  | cons s stats ih =>
    have := ih (alterD noStats aggregates s.playerId (addStats s))
    rw [mem_alterD] at this
    simp only [List.mem_cons, exists_eq_or_imp]
    refine this.trans ?_
    tauto

theorem rating_addMatch (aggregates : TreeMap String AggregateStats) (stats : List PlayerMatchStats)
    (p : String) :
    (lookupD noStats (addMatch aggregates stats) p).rating = (lookupD noStats aggregates p).rating := by
  induction stats generalizing aggregates with
  | nil => rfl
  | cons s stats ih =>
    refine (ih (alterD noStats aggregates s.playerId (addStats s))).trans ?_
    rw [lookupD_alterD]
    split
    · rfl
    · rfl

section
variable {β : Type} [LeaderboardStore β] (update : Int → Int → EloRatingUpdate)

theorem mem_recordMatch (service : PlayerProfileService β) (result : MatchResult) (p : String) :
    p ∈ (service.recordMatch update result).aggregates ↔ p ∈ service.aggregates ∨
      (result.winnerId = p ∨ result.loserId = p) ∨ ∃ s ∈ result.playerStats, s.playerId = p := by
  unfold recordMatch
  dsimp only
  simp only [mem_alterD, mem_addMatch]
  tauto

theorem rating_recordMatch (service : PlayerProfileService β) (result : MatchResult) {p : String}
    (hw : result.winnerId ≠ p) (hl : result.loserId ≠ p) :
    (lookupD noStats (service.recordMatch update result).aggregates p).rating =
      (lookupD noStats service.aggregates p).rating := by
  unfold recordMatch
  dsimp only
  simp only [lookupD_alterD, if_neg hw, if_neg hl, rating_addMatch]

/-- The store only listens. -/
theorem aggregates_recordMatch {γ : Type} [LeaderboardStore γ] (service : PlayerProfileService β)
    (other : PlayerProfileService γ) (h : service.aggregates = other.aggregates) (result : MatchResult) :
    (service.recordMatch update result).aggregates = (other.recordMatch update result).aggregates := by
  unfold recordMatch
  dsimp only
  rw [h]

end

/-! ### The leaderboard follows the ratings -/

theorem rated_concat {results : List MatchResult} {result : MatchResult} {p : String} :
    Rated (results ++ [result]) p ↔ Rated results p ∨ result.winnerId = p ∨ result.loserId = p := by
  simp only [Rated, List.mem_append, List.mem_singleton, or_and_right, exists_or, exists_eq_left]

theorem listed_concat {results : List MatchResult} {result : MatchResult} {p : String} :
    Listed (results ++ [result]) p ↔ Listed results p ∨ ∃ s ∈ result.playerStats, s.playerId = p := by
  simp only [Listed, List.mem_append, List.mem_singleton, or_and_right, exists_or, exists_eq_left]

/-- The leaderboard holds the ratings of the rated players, who are not all players. -/
structure Follows (results : List MatchResult) (aggregates : TreeMap String AggregateStats)
    (board : InMemoryLeaderboardStore) : Prop where
  agree : board.Agree
  scores : ∀ p : String, board.scores[p]? =
    if Rated results p then some (lookupD noStats aggregates p).rating else none
  known : ∀ p, p ∈ aggregates ↔ Rated results p ∨ Listed results p
  start : ∀ p, ¬ Rated results p → (lookupD noStats aggregates p).rating = 1200

theorem follows_new : Follows [] ∅ {} := by
  refine ⟨InMemoryLeaderboardStore.agree_new, fun p => ?_, fun p => ?_, fun p _ => ?_⟩
  · simp [Rated]
  · simp [Rated, Listed]
  · simp [lookupD, noStats]

theorem Follows.recordMatch {results : List MatchResult}
    {service : PlayerProfileService InMemoryLeaderboardStore} {board : InMemoryLeaderboardStore}
    (h : Follows results service.aggregates board) (hboard : service.leaderboard = some board)
    (update : Int → Int → EloRatingUpdate) (result : MatchResult) :
    ∃ board', (service.recordMatch update result).leaderboard = some board' ∧
      Follows (results ++ [result]) (service.recordMatch update result).aggregates board' := by
  have hleaderboard : (service.recordMatch update result).leaderboard = some ((board.upsert result.winnerId
      (lookupD noStats (service.recordMatch update result).aggregates result.winnerId).rating).upsert
      result.loserId (lookupD noStats (service.recordMatch update result).aggregates result.loserId).rating) := by
    rw [PlayerProfileService.recordMatch, hboard]
    rfl
  refine ⟨_, hleaderboard, (h.agree.upsert _ _).upsert _ _, fun p => ?_, fun p => ?_, fun p hp => ?_⟩
  · simp only [InMemoryLeaderboardStore.scores_upsert, rated_concat, h.scores]
    by_cases hl : result.loserId = p
    · simp [hl]
    · by_cases hw : result.winnerId = p
      · simp [hw, hl]
      · simp [hw, hl, rating_recordMatch update service result hw hl]
  · rw [mem_recordMatch, h.known, rated_concat, listed_concat]
    tauto
  · rw [rated_concat, not_or, not_or] at hp
    rw [rating_recordMatch update service result hp.2.1 hp.2.2]
    exact h.start p hp.1

theorem follows_recorded (update : Int → Int → EloRatingUpdate) (results : List MatchResult) :
    ∃ board, (recorded update (some {}) results).leaderboard = some board ∧
      Follows results (recorded update (some {}) results).aggregates board := by
  induction results using List.reverseRecOn with
  | nil => exact ⟨{}, rfl, follows_new⟩
  | append_singleton results result ih =>
    obtain ⟨board, hboard, h⟩ := ih
    rw [recorded, List.foldl_concat]
    exact h.recordMatch hboard update result

theorem aggregates_recorded (update : Int → Int → EloRatingUpdate) (results : List MatchResult) :
    (recorded update (some {}) results).aggregates = (recorded update none results).aggregates := by
  induction results using List.reverseRecOn with
  | nil => rfl
  | append_singleton results result ih =>
    rw [recorded, recorded, List.foldl_concat, List.foldl_concat]
    exact aggregates_recordMatch update _ _ ih result

theorem leaderboard_recorded_none (update : Int → Int → EloRatingUpdate) (results : List MatchResult) :
    (recorded update none results).leaderboard = none := by
  induction results using List.reverseRecOn with
  | nil => rfl
  | append_singleton results result ih =>
    rw [recorded, List.foldl_concat, PlayerProfileService.recordMatch]
    dsimp only
    rw [← recorded, ih]
    rfl

/-! ### The two rankings -/

/-- The aggregates in the order of the plain ranking. -/
def ranking (aggregates : TreeMap String AggregateStats) : List (String × AggregateStats) :=
  rankSort (·.1) (·.2.rating) aggregates.toList

theorem topProfiles_plain {service : PlayerProfileService InMemoryLeaderboardStore}
    (h : service.leaderboard = none) (limit : Nat) :
    service.topProfiles limit =
      ((ranking service.aggregates).take limit).map fun kv => buildProfileUnsafe kv.1 kv.2 := by
  have hsort := rankSort_map PlayerProfile.playerId PlayerProfile.rating
    (fun kv : String × AggregateStats => buildProfileUnsafe kv.1 kv.2) (pairwise_toList service.aggregates)
  rw [topProfiles, h]
  dsimp only
  rw [hsort, ← List.map_take]
  rfl

/-- The leaderboard lists the rated players in the order of the plain ranking. -/
theorem Follows.flatten_eq {results : List MatchResult} {aggregates : TreeMap String AggregateStats}
    {board : InMemoryLeaderboardStore} (h : Follows results aggregates board) :
    GroupIndex.flatten board.ordered =
      ((ranking aggregates).filter fun kv => Rated results kv.1).map fun kv => (kv.1, kv.2.rating) := by
  have hkeys := pairwise_toList aggregates
  have hsort := rankSort_map Prod.fst Prod.snd (fun kv : String × AggregateStats => (kv.1, kv.2.rating))
    (hkeys.filter fun kv => Rated results kv.1)
  rw [ranking, ← rankSort_filter _ _ _ hkeys, ← hsort]
  refine eq_rankSort _ _ (List.pairwise_map.2 (hkeys.filter _)) (GroupIndex.pairwise_flatten _) ?_
  rintro ⟨p, score⟩
  rw [GroupIndex.mem_flatten]
  refine (h.agree p score).trans ?_
  rw [h.scores]
  simp only [List.mem_map, List.mem_filter, Prod.mk.injEq, decide_eq_true_eq]
  constructor
  · intro hp
    split at hp
    · next hr =>
      obtain ⟨a, ha⟩ := TreeMap.mem_iff_isSome_getElem?.trans Option.isSome_iff_exists |>.1
        ((h.known p).2 (.inl hr))
      rw [lookupD, ha] at hp
      exact ⟨(p, a), ⟨TreeMap.mem_toList_iff_getElem?_eq_some.2 ha, hr⟩, rfl, Option.some.inj hp⟩
    · cases hp
  · rintro ⟨⟨p, a⟩, ⟨ha, hr⟩, rfl, rfl⟩
    rw [if_pos hr, lookupD, TreeMap.mem_toList_iff_getElem?_eq_some.1 ha]
    rfl

theorem Follows.topProfiles_eq {results : List MatchResult}
    {service : PlayerProfileService InMemoryLeaderboardStore} {board : InMemoryLeaderboardStore}
    (h : Follows results service.aggregates board) (hboard : service.leaderboard = some board) (limit : Nat) :
    service.topProfiles limit = (((ranking service.aggregates).filter fun kv => Rated results kv.1).take
      limit).map fun kv => buildProfileUnsafe kv.1 kv.2 := by
  rw [topProfiles, hboard]
  show (board.topN limit).filterMap _ = _
  rw [InMemoryLeaderboardStore.topN_eq, h.flatten_eq, ← List.map_take, List.filterMap_map]
  rw [← List.filterMap_eq_map]
  refine List.filterMap_congr ?_
  rintro ⟨p, a⟩ hmem
  have ha : (p, a) ∈ service.aggregates.toList :=
    (mem_rankSort _ _).1 (List.mem_of_mem_filter (List.mem_of_mem_take hmem))
  rw [Function.comp_apply, TreeMap.mem_toList_iff_getElem?_eq_some.1 ha]
  rfl

/-- A bystander is among the first `n` of the plain ranking if fewer than `n` players are ahead. -/
theorem Follows.mem_take_iff {results : List MatchResult}
    {service : PlayerProfileService InMemoryLeaderboardStore} {board : InMemoryLeaderboardStore}
    (h : Follows results service.aggregates board) {p : String} {a : AggregateStats}
    (ha : (p, a) ∈ service.aggregates.toList) (hp : ¬ Rated results p) (n : Nat) :
    (p, a) ∈ (ranking service.aggregates).take n ↔ service.playersAhead p < n := by
  have hrating : a.rating = 1200 := by
    have := h.start p hp
    rw [lookupD, TreeMap.mem_toList_iff_getElem?_eq_some.1 ha] at this
    exact this
  have hahead : service.playersAhead p =
      ahead (·.1) (·.2.rating) service.aggregates.toList (p, a) := by
    refine List.countP_congr fun kv _ => ?_
    rw [rankedBefore_iff]
    simp [hrating]
  rw [ranking, mem_take_rankSort _ _ (pairwise_toList service.aggregates) ha, hahead]

theorem buildProfileUnsafe_injective :
    Function.Injective fun kv : String × AggregateStats => buildProfileUnsafe kv.1 kv.2 := by
  rintro ⟨p, a⟩ ⟨q, b⟩ h
  obtain ⟨⟩ := a
  obtain ⟨⟩ := b
  simp_all [buildProfileUnsafe]

/-- For one limit the rankings agree exactly when every bystander is behind `n` players. -/
theorem topProfiles_eq_iff (update : Int → Int → EloRatingUpdate) (results : List MatchResult) (n : Nat) :
    (recorded update (some {}) results).topProfiles n = (recorded update none results).topProfiles n ↔
      ∀ b, Bystander results b → n ≤ (recorded update none results).playersAhead b := by
  obtain ⟨board, hboard, h⟩ := follows_recorded update results
  rw [h.topProfiles_eq hboard, topProfiles_plain (leaderboard_recorded_none update results),
    (List.map_injective_iff.2 buildProfileUnsafe_injective).eq_iff]
  rw [aggregates_recorded] at h ⊢
  rw [take_filter_eq_take_iff]
  constructor
  · rintro hall b ⟨hlisted, hb⟩
    obtain ⟨a, ha⟩ := TreeMap.mem_iff_isSome_getElem?.trans Option.isSome_iff_exists |>.1
      ((h.known b).2 (.inr hlisted))
    by_contra hlt
    have hmem := (h.mem_take_iff (TreeMap.mem_toList_iff_getElem?_eq_some.2 ha) hb n).2 (Nat.lt_of_not_le hlt)
    exact hb (of_decide_eq_true (hall _ hmem))
  · rintro hall ⟨p, a⟩ hmem
    rw [decide_eq_true_eq]
    by_contra hp
    have ha : (p, a) ∈ (recorded update none results).aggregates.toList :=
      (mem_rankSort _ _).1 (List.mem_of_mem_take hmem)
    have hlisted : Listed results p := by
      refine ((h.known p).1 ?_).resolve_left hp
      rw [TreeMap.mem_iff_isSome_getElem?, TreeMap.mem_toList_iff_getElem?_eq_some.1 ha]
      rfl
    have := hall p ⟨hlisted, hp⟩
    have := (h.mem_take_iff ha hp n).1 hmem
    omega

/-- The rankings agree up to a limit exactly when every bystander is behind that many players, and
for every limit exactly when there is no bystander. -/
theorem topProfiles_agree_iff (update : Int → Int → EloRatingUpdate) (results : List MatchResult) :
    (∀ n, (recorded update (some {}) results).topProfiles n = (recorded update none results).topProfiles n ↔
      ∀ b, Bystander results b → n ≤ (recorded update none results).playersAhead b) ∧
    ((∀ n, (recorded update (some {}) results).topProfiles n =
        (recorded update none results).topProfiles n) ↔ ∀ b, ¬ Bystander results b) := by
  refine ⟨topProfiles_eq_iff update results, ?_, ?_⟩
  · intro hall b hb
    have hle := (topProfiles_eq_iff update results ((recorded update none results).playersAhead b + 1)).1
      (hall _) b hb
    exact Nat.not_succ_le_self _ hle
  · intro hnone n
    exact (topProfiles_eq_iff update results n).2 fun b hb => absurd hb (hnone b)

/-- A death in a session of three: `c` is neither winner nor loser. -/
def threeInSession : MatchResult where
  matchId := "match-7-a-vs-b"
  winnerId := "a"
  loserId := "b"
  playerStats := ["a", "b", "c"].map fun p => ⟨"match-7-a-vs-b", p, 5, 5, 0, 0, 0, 0⟩

/-- With the ratings of an even match (1213 and 1188) `c` is second of the plain ranking and is not
on the leaderboard. -/
theorem topProfiles_differ :
    (recorded (fun w l => ⟨w + 13, l - 12⟩) (some {}) [threeInSession]).topProfiles 10 ≠
      (recorded (fun w l => ⟨w + 13, l - 12⟩) none [threeInSession]).topProfiles 10 ∧
    ((recorded (fun w l => ⟨w + 13, l - 12⟩) (some {}) [threeInSession]).topProfiles 10).map (·.playerId) =
      ["a", "b"] ∧
    ((recorded (fun w l => ⟨w + 13, l - 12⟩) none [threeInSession]).topProfiles 10).map (·.playerId) =
      ["a", "c", "b"] := by
  decide +kernel

end PlayerProfileService

end Portfolio.Arena
