import Mathlib.Analysis.SpecialFunctions.Pow.Real
import Portfolio.Arena.PlayerProfileService
import Portfolio.Lib.RealScalar

/-!
# Elo ratings

`EloRatingCalculator::Update` in exact arithmetic. Winner and loser exchange the same share of
`kFactor`, but each new rating is rounded on its own, so a match may create or destroy one point. Over a
history of matches the points therefore drift by at most one a match.
-/

namespace Portfolio.Arena
open Std

namespace EloRatingCalculator

/-- The score that a player can expect against an opponent. -/
noncomputable def expected (rating opponent : Int) : ℝ :=
  1 / (1 + Scalar.lit 10 ^ (((opponent - rating : Int) : ℝ) / Scalar.lit 400))

def kFactor : ℝ := 25

noncomputable def update (winnerRating loserRating : Int) : EloRatingUpdate :=
  let expectedWinner := expected winnerRating loserRating
  let expectedLoser := expected loserRating winnerRating
  { winnerNew := lround (winnerRating + kFactor * (1 - expectedWinner))
    loserNew := lround (loserRating + kFactor * (0 - expectedLoser)) }

theorem expected_eq (a b : Int) : expected a b = 1 / (1 + 10 ^ (((b - a : Int) : ℝ) / 400)) := by
  unfold expected
  simp only [Scalar.lit_real]
  norm_num

theorem expected_mem (a b : Int) : 0 ≤ expected a b ∧ expected a b ≤ 1 := by
  have hpow : (0 : ℝ) < 10 ^ (((b - a : Int) : ℝ) / 400) := Real.rpow_pos_of_pos (by norm_num) _
  rw [expected_eq]
  constructor
  · exact div_nonneg zero_le_one (by linarith)
  · exact (div_le_one (by linarith)).2 (by linarith)

theorem expected_add_expected (a b : Int) : expected a b + expected b a = 1 := by
  have hpow : (0 : ℝ) < 10 ^ (((b - a : Int) : ℝ) / 400) := Real.rpow_pos_of_pos (by norm_num) _
  have hinv : (10 : ℝ) ^ (((a - b : Int) : ℝ) / 400) = (10 ^ (((b - a : Int) : ℝ) / 400))⁻¹ := by
    rw [← Real.rpow_neg (by norm_num)]
    congr 1
    push_cast
    ring
  rw [expected_eq, expected_eq, hinv]
  field_simp
  ring

/-- What a rating update may do. -/
structure Fair (winner loser : Int) (new : EloRatingUpdate) : Prop where
  gains : winner ≤ new.winnerNew ∧ new.winnerNew - winner ≤ 25
  loses : new.loserNew ≤ loser ∧ loser - new.loserNew ≤ 25
  balance : |new.winnerNew + new.loserNew - winner - loser| ≤ 1

theorem update_fair (winner loser : Int) : Fair winner loser (update winner loser) := by
  obtain ⟨hpos, hle⟩ := expected_mem loser winner
  have hsum := expected_add_expected winner loser
  have hwinner : (winner : ℝ) + kFactor * (1 - expected winner loser) =
      winner + 25 * expected loser winner := by
    unfold kFactor
    linarith
  have hloser : (loser : ℝ) + kFactor * (0 - expected loser winner) =
      loser - 25 * expected loser winner := by
    unfold kFactor
    ring
  unfold update
  dsimp only
  rw [hwinner, hloser]
  refine ⟨?_, ?_, ?_⟩
  · have hmem := lround_mem (a := winner) (b := winner + 25) (x := winner + 25 * expected loser winner)
      (by linarith) (by push_cast; linarith)
    dsimp only
    omega
  · have hmem := lround_mem (a := loser - 25) (b := loser) (x := loser - 25 * expected loser winner)
      (by push_cast; linarith) (by linarith)
    dsimp only
    omega
  · have hround := abs_lround_add_sub_le (x := winner + 25 * expected loser winner)
      (y := loser - 25 * expected loser winner) (n := winner + loser) (by push_cast; ring)
    rwa [← sub_sub] at hround

end EloRatingCalculator

/-! ### Histories -/

namespace PlayerProfileService
variable {β : Type} [LeaderboardStore β]
open EloRatingCalculator

omit [LeaderboardStore β] in
theorem sumEntries_addMatch {g : AggregateStats → Int} (hzero : g {} = 0)
    (hstats : ∀ (stats : PlayerMatchStats) (a : AggregateStats), g (addStats stats a) = g a)
    (aggregates : TreeMap String AggregateStats) (stats : List PlayerMatchStats) :
    sumEntries g (addMatch aggregates stats) = sumEntries g aggregates := by
  induction stats generalizing aggregates with
  | nil => rfl
  | cons s stats ih =>
    exact (ih _).trans (sumEntries_alterD_of_eq (fun _ => hzero) aggregates s.playerId (hstats s))

/-- What a match does to a sum over the players in which its statistics do not count: `w` and `l` are
the aggregates of winner and loser before. -/
theorem sumEntries_recordMatch {g : AggregateStats → Int} (hzero : g {} = 0)
    (hstats : ∀ (stats : PlayerMatchStats) (a : AggregateStats), g (addStats stats a) = g a)
    (update : Int → Int → EloRatingUpdate) (service : PlayerProfileService β) {result : MatchResult}
    (hne : result.winnerId ≠ result.loserId) :
    ∃ w l : AggregateStats, sumEntries g (service.recordMatch update result).aggregates + (g w + g l) =
      sumEntries g service.aggregates +
        (g { w with wins := w.wins + 1, rating := (update w.rating l.rating).winnerNew } +
          g { l with losses := l.losses + 1, rating := (update w.rating l.rating).loserNew }) := by
  have hadd := sumEntries_addMatch hzero hstats service.aggregates result.playerStats
  generalize hagg : addMatch service.aggregates result.playerStats = aggregates at hadd
  let w := lookupD noStats aggregates result.winnerId
  let l := lookupD noStats aggregates result.loserId
  let won (a : AggregateStats) : AggregateStats := { a with wins := a.wins + 1 }
  let lost (a : AggregateStats) : AggregateStats := { a with losses := a.losses + 1 }
  let new := update w.rating l.rating
  let rate (rating : Int) (a : AggregateStats) : AggregateStats := { a with rating := rating }
  let m1 := alterD noStats aggregates result.winnerId won
  let m2 := alterD noStats m1 result.loserId lost
  let m3 := alterD noStats m2 result.winnerId (rate new.winnerNew)
  have hl1 : lookupD noStats m1 result.loserId = l := by rw [lookupD_alterD, if_neg hne]
  have hw2 : lookupD noStats m2 result.winnerId = won w := by
    rw [lookupD_alterD, if_neg hne.symm, lookupD_alterD, if_pos rfl]
  have hl2 : lookupD noStats m2 result.loserId = lost l := by rw [lookupD_alterD, if_pos rfl, hl1]
  have hl3 : lookupD noStats m3 result.loserId = lost l := by rw [lookupD_alterD, if_neg hne, hl2]
  have hrecord : (service.recordMatch update result).aggregates =
      alterD noStats m3 result.loserId (rate new.loserNew) := by
    unfold recordMatch
    dsimp only
    rw [hagg, hw2, hl2]
  have hd : ∀ k, g (noStats k) = 0 := fun _ => hzero
  have h1 := sumEntries_alterD hd aggregates result.winnerId won
  have h2 := sumEntries_alterD hd m1 result.loserId lost
  have h3 := sumEntries_alterD hd m2 result.winnerId (rate new.winnerNew)
  have h4 := sumEntries_alterD hd m3 result.loserId (rate new.loserNew)
  rw [hl1] at h2
  rw [hw2] at h3
  rw [hl3] at h4
  refine ⟨w, l, ?_⟩
  rw [hrecord, ← hadd]
  show _ = _ + (g (rate new.winnerNew (won w)) + g (rate new.loserNew (lost l)))
  linarith

/-- Wins and losses count the matches; each match moves the ratings by as much as its update does. -/
structure Bookkept (n : Nat) (aggregates : TreeMap String AggregateStats) : Prop where
  wins : sumEntries (fun a => (a.wins : Int)) aggregates = n
  losses : sumEntries (fun a => (a.losses : Int)) aggregates = n
  ratings : |sumEntries (fun a : AggregateStats => a.rating - 1200) aggregates| ≤ (n : Int)

theorem Bookkept.recordMatch {n : Nat} {service : PlayerProfileService β} (h : Bookkept n service.aggregates)
    {update : Int → Int → EloRatingUpdate} (hfair : ∀ winner loser, Fair winner loser (update winner loser))
    {result : MatchResult} (hne : result.winnerId ≠ result.loserId) :
    Bookkept (n + 1) (service.recordMatch update result).aggregates := by
  refine ⟨?_, ?_, ?_⟩
  · obtain ⟨w, l, hsum⟩ := sumEntries_recordMatch (g := fun a => (a.wins : Int)) rfl (fun _ _ => rfl)
      update service hne
    rw [h.wins] at hsum
    push_cast at hsum ⊢
    linarith
  · obtain ⟨w, l, hsum⟩ := sumEntries_recordMatch (g := fun a => (a.losses : Int)) rfl (fun _ _ => rfl)
      update service hne
    rw [h.losses] at hsum
    push_cast at hsum ⊢
    linarith
  · obtain ⟨w, l, hsum⟩ := sumEntries_recordMatch (g := fun a => a.rating - 1200) rfl (fun _ _ => rfl)
      update service hne
    have hbalance := (hfair w.rating l.rating).balance
    have hold := h.ratings
    dsimp only at hsum
    rw [abs_le] at *
    push_cast
    omega

theorem sumEntries_rating (aggregates : TreeMap String AggregateStats) :
    sumEntries (fun a : AggregateStats => a.rating - 1200) aggregates =
      sumEntries AggregateStats.rating aggregates - aggregates.size * 1200 := by
  rw [← TreeMap.length_toList]
  unfold sumEntries
  induction aggregates.toList with
  | nil => rfl
  | cons kv l ih =>
    rw [List.map_cons, List.map_cons, List.sum_cons, List.sum_cons, List.length_cons, ih]
    push_cast
    ring

theorem sumEntries_natCast (f : AggregateStats → Nat) (aggregates : TreeMap String AggregateStats) :
    ((sumEntries f aggregates : Nat) : Int) = sumEntries (fun a => (f a : Int)) aggregates := by
  unfold sumEntries
  rw [Nat.cast_list_sum, List.map_map]
  rfl

/-- A rating update gives to the winner and takes from the loser at most 25 points, and is balanced up
to one point. After any matches between distinct players the ratings add up, to one point a match, to
what the known players started with, and there are as many wins, and losses, as matches. -/
theorem elo_bookkeeping :
    (∀ winner loser, Fair winner loser (EloRatingCalculator.update winner loser)) ∧
      ∀ (leaderboard : Option β) (results : List MatchResult), (∀ r ∈ results, r.winnerId ≠ r.loserId) →
        let aggregates := (results.foldl (recordMatch EloRatingCalculator.update)
          { leaderboard := leaderboard }).aggregates
        |sumEntries AggregateStats.rating aggregates - aggregates.size * 1200| ≤ results.length ∧
          sumEntries AggregateStats.wins aggregates = results.length ∧
          sumEntries AggregateStats.losses aggregates = results.length := by
  refine ⟨update_fair, fun leaderboard results hne => ?_⟩
  have hkept : Bookkept results.length (results.foldl (recordMatch EloRatingCalculator.update)
      { leaderboard := leaderboard }).aggregates := by
    induction results using List.reverseRecOn with
    | nil => exact ⟨sumEntries_empty, sumEntries_empty, (abs_eq_zero.2 sumEntries_empty).le⟩
    | append_singleton results result ih =>
      have hold := ih fun r hr => hne r (List.mem_append_left _ hr)
      rw [List.foldl_append, List.length_append]
      exact hold.recordMatch update_fair (hne result (List.mem_append_right _ List.mem_cons_self))
  have hratings := hkept.ratings
  rw [sumEntries_rating] at hratings
  refine ⟨hratings, ?_, ?_⟩
  · have hwins := hkept.wins
    rw [← sumEntries_natCast] at hwins
    exact_mod_cast hwins
  · have hlosses := hkept.losses
    rw [← sumEntries_natCast] at hlosses
    exact_mod_cast hlosses

theorem elo_bookkeeping_rematch :
    let results : List MatchResult := [⟨"m1", "ann", "ben", []⟩, ⟨"m2", "ben", "ann", []⟩]
    let aggregates := (results.foldl (recordMatch EloRatingCalculator.update)
      { leaderboard := some ({} : InMemoryLeaderboardStore) }).aggregates
    |sumEntries AggregateStats.rating aggregates - aggregates.size * 1200| ≤ (2 : Nat) ∧
      sumEntries AggregateStats.wins aggregates = 2 ∧ sumEntries AggregateStats.losses aggregates = 2 := by
  intro results
  have hne : ∀ r ∈ results, r.winnerId ≠ r.loserId := by
    intro r hr
    rcases List.mem_cons.1 hr with rfl | hr
    · decide
    · rw [List.mem_singleton.1 hr]
      decide
  exact (elo_bookkeeping (β := InMemoryLeaderboardStore)).2 (some {}) results hne

end PlayerProfileService

end Portfolio.Arena
