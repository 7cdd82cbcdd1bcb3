import Portfolio.Arena.MatchTotals
import Portfolio.Arena.SessionRuns
import Portfolio.Arena.WebSocketServer

/-!
# Lifetime statistics of the arena server

A match is recorded for every reported death, from everything the session still knows. The profiles
never count too little; they count each death once exactly in the runs whose broadcasts are `Clean`.
-/

namespace Portfolio.Arena
open Std MatchStatsCollector

section
variable {α : Type}

/-! ### Names -/

theorem Named.insert {s s' : GameSession α} (h : Named s) {id : String} {r : PlayerRuntimeState α}
    (hr : r.state.playerId = id)
    (hget : ∀ j, s'.players[j]? = if id = j then some r else s.players[j]?) : Named s' := by
  intro j rj hj
  rw [hget] at hj
  split at hj
  · next hij =>
    cases hj
    exact hr.trans hij
  · exact h j rj hj

theorem updatePlayer_named {players : TreeMap String (PlayerRuntimeState α)} {id : String}
    {f : PlayerRuntimeState α → PlayerRuntimeState α} (hf : ∀ r, (f r).state.playerId = r.state.playerId)
    (h : ∀ (j : String) (r : PlayerRuntimeState α), players[j]? = some r → r.state.playerId = j)
    (j : String) (r : PlayerRuntimeState α) (hj : (updatePlayer players id f)[j]? = some r) :
    r.state.playerId = j := by
  rw [getElem?_updatePlayer] at hj
  split at hj
  · obtain ⟨r', hr', rfl⟩ := Option.map_eq_some_iff.1 hj
    rw [hf]
    exact h j r' hr'
  · exact h j r hj

theorem Named.applyHit {s : GameSession α} (h : Named s) (p : Projectile α) {id : String}
    {r : PlayerRuntimeState α} (hr : s.players[id]? = some r) (tick : Nat) :
    Named (s.applyHit p id r tick).1 := by
  have hdamaged : Named { s with players := s.players.insert id (GameSession.damaged r) } := by
    refine h.insert (r := GameSession.damaged r) (h id r hr) fun j => ?_
    simp only [TreeMap.getElem?_insert, Std.compare_eq_iff_eq]
  unfold GameSession.applyHit
  dsimp only
  split
  · exact updatePlayer_named (fun _ => rfl) (updatePlayer_named (fun _ => rfl) hdamaged)
  · exact updatePlayer_named (fun _ => rfl) hdamaged

end

section
variable {α : Type} [Scalar α]

theorem Named.resolveHits {s : GameSession α} (h : Named s) (order : List String) (tick : Nat)
    (ps : List (Projectile α)) : Named (s.resolveHits order tick ps).1 := by
  refine resolveHits_rule (fun s' n hs => hs) ?_ h order tick ps
  intro s' p id r tick hr hs
  exact hs.applyHit p hr tick

theorem Named.upsert {s : GameSession α} (h : Named s) (id : String) : Named (s.upsertPlayer id) := by
  refine h.insert ?_ (getElem?_upsertPlayer s id)
  show (GameSession.initRuntime id _).state.playerId = id
  unfold GameSession.initRuntime
  split
  · rfl
  · next hne =>
    cases hr : s.players[id]? with
    | none =>
      rw [hr] at hne
      exact absurd rfl hne
    | some r => exact h id r hr

theorem Named.step {β : Type} [LeaderboardStore β] (update : Int → Int → EloRatingUpdate)
    {server : WebSocketServer α β} (h : Named server.session) (op : ServerOp α) :
    Named (op.exec update server).1.session := by
  cases op with
  | upsertPlayer id => exact h.upsert id
  | removePlayer id =>
    intro j r hj
    have hj' : (server.session.players.erase id)[j]? = some r := hj
    rw [TreeMap.getElem?_erase] at hj'
    split at hj'
    · cases hj'
    · exact h j r hj'
  | applyInput id input dt =>
    show Named (server.session.applyInput id input dt).1
    rcases applyInput_cases server.session id input dt with heq | ⟨r, hr, hstep⟩
    · rw [heq]
      exact h
    · obtain ⟨r', hlife, hget⟩ := hstep.players
      exact h.insert (hlife.state.1.trans (h id r hr)) hget
  | broadcastState order tick dt =>
    exact Named.resolveHits (s := { server.session with elapsedTime := server.session.elapsedTime + dt })
      h order tick _

/-! ### Runs -/

/-- The profiles count every reported death once. -/
def CountsOnce {β : Type} (service : PlayerProfileService β) (reported : List CombatEvent) : Prop :=
  ∀ p, reportedKills service p = reported.countP (·.shooterId = p) ∧
    reportedDeaths service p = reported.countP (·.targetId = p)

/-- The profiles count every reported death at least once. -/
def CountsAll {β : Type} (service : PlayerProfileService β) (reported : List CombatEvent) : Prop :=
  ∀ p, reported.countP (·.shooterId = p) ≤ reportedKills service p ∧
    reported.countP (·.targetId = p) ≤ reportedDeaths service p

/-- Of the deaths that a broadcast reports, each is the only one its session knows. -/
def Clean {β : Type} (server : WebSocketServer α β) : ServerOp α → Prop
  | .broadcastState order tick dt =>
    ∀ e ∈ (server.report order tick dt).2, OnlyDeath e (server.report order tick dt).1
  | _ => True

section
variable {β : Type} [LeaderboardStore β] (update : Int → Int → EloRatingUpdate)

omit [Scalar α] in
/-- One recorded match: what was counted too often stays so. -/
theorem countsOnce_recordMatch {s : GameSession α} (hn : Named s) {service : PlayerProfileService β}
    {reported : List CombatEvent} (h : CountsAll service reported) (e : CombatEvent) :
    CountsAll (service.recordMatch update (collect e s)) (reported ++ [e]) ∧
      (CountsOnce (service.recordMatch update (collect e s)) (reported ++ [e]) ↔
        CountsOnce service reported ∧ OnlyDeath e s) := by
  have hconcat : ∀ f : CombatEvent → String, ∀ p, (reported ++ [e]).countP (f · = p) =
      reported.countP (f · = p) + if f e = p then 1 else 0 := by
    intro f p
    rw [List.countP_append, List.countP_singleton]
    simp only [decide_eq_true_eq]
  rw [← match_exact_iff hn]
  unfold CountsOnce CountsAll
  refine ⟨?_, ?_, ?_⟩
  · intro p
    rw [hconcat (·.shooterId), hconcat (·.targetId), (reported_recordMatch update service e s p).1,
      (reported_recordMatch update service e s p).2]
    have := h p
    have := le_matchKills hn e p
    have := le_matchDeaths hn e p
    omega
  · intro hex
    constructor
    all_goals
      intro p
      have hp := hex p
      rw [hconcat (·.shooterId), hconcat (·.targetId), (reported_recordMatch update service e s p).1,
        (reported_recordMatch update service e s p).2] at hp
      have := h p
      have := le_matchKills hn e p
      have := le_matchDeaths hn e p
      omega
  · rintro ⟨hold, hnew⟩ p
    rw [hconcat (·.shooterId), hconcat (·.targetId), (reported_recordMatch update service e s p).1,
      (reported_recordMatch update service e s p).2, (hold p).1, (hold p).2, (hnew p).1, (hnew p).2]
    exact ⟨rfl, rfl⟩

omit [Scalar α] in
theorem countsOnce_recordMatches {s : GameSession α} (hn : Named s) {service : PlayerProfileService β}
    {reported : List CombatEvent} (h : CountsAll service reported) (events : List CombatEvent) :
    CountsAll ((events.map (collect · s)).foldl (PlayerProfileService.recordMatch update) service)
        (reported ++ events) ∧
      (CountsOnce ((events.map (collect · s)).foldl (PlayerProfileService.recordMatch update) service)
        (reported ++ events) ↔ CountsOnce service reported ∧ ∀ e ∈ events, OnlyDeath e s) := by
  induction events generalizing service reported with
  | nil => simpa using h
  | cons e events ih =>
    obtain ⟨h1, hiff1⟩ := countsOnce_recordMatch update hn h e
    obtain ⟨h2, hiff2⟩ := ih h1
    rw [List.append_cons]
    refine ⟨h2, hiff2.trans ?_⟩
    rw [hiff1, List.forall_mem_cons, and_assoc]

theorem countsOnce_step {server : WebSocketServer α β} {reported : List CombatEvent}
    (hn : Named server.session) (h : CountsAll server.profiles reported) (op : ServerOp α) :
    CountsAll (op.exec update server).1.profiles (reported ++ (op.exec update server).2) ∧
      (CountsOnce (op.exec update server).1.profiles (reported ++ (op.exec update server).2) ↔
        CountsOnce server.profiles reported ∧ Clean server op) := by
  cases op with
  | broadcastState order tick dt =>
    have hn' : Named (server.report order tick dt).1 := hn.step update (.broadcastState order tick dt)
    exact countsOnce_recordMatches update hn' h _
  | _ =>
    show CountsAll server.profiles (reported ++ []) ∧
      (CountsOnce server.profiles (reported ++ []) ↔ CountsOnce server.profiles reported ∧ True)
    rw [List.append_nil, and_true]
    exact ⟨h, Iff.rfl⟩

/-- After a run the profiles count each reported death once exactly when every broadcast of the run
reported deaths that were the only ones known. -/
theorem lifetime_stats_once_iff (leaderboard : Option β) (ops : List (ServerOp α)) :
    CountsOnce ((serverMachine α update leaderboard).run ops).1.profiles
        ((serverMachine α update leaderboard).run ops).2 ↔
      (serverMachine α update leaderboard).Along Clean ops := by
  have hrun : ∀ ops : List (ServerOp α),
      Named ((serverMachine α update leaderboard).run ops).1.session ∧
      CountsAll ((serverMachine α update leaderboard).run ops).1.profiles
        ((serverMachine α update leaderboard).run ops).2 ∧
      (CountsOnce ((serverMachine α update leaderboard).run ops).1.profiles
        ((serverMachine α update leaderboard).run ops).2 ↔
          (serverMachine α update leaderboard).Along Clean ops) := by
    intro ops
    induction ops using List.reverseRecOn with
    | nil =>
      refine ⟨?_, fun p => ⟨Nat.zero_le _, Nat.zero_le _⟩, ?_⟩
      · intro id r hr
        have hnone : (∅ : TreeMap String (PlayerRuntimeState α))[id]? = some r := hr
        rw [TreeMap.getElem?_emptyc] at hnone
        cases hnone
      · exact iff_of_true (fun p => ⟨rfl, rfl⟩) (Machine.along_nil _ _)
    | append_singleton ops op ih =>
      obtain ⟨hn, hall, hiff⟩ := ih
      obtain ⟨hall', hiff'⟩ := countsOnce_step update hn hall op
      rw [Machine.run_concat, Machine.along_concat, ← hiff]
      exact ⟨hn.step update op, hall', hiff'⟩
  exact (hrun ops).2.2

end

end

/-- Player `a` shoots `b` dead and then `c`, all three standing where they appeared. -/
def twoDeathsRun : List (ServerOp ℚ) :=
  let order := ["b", "c", "a"]
  let round (n : Nat) : List (ServerOp ℚ) :=
    [.applyInput "a" { sequence := n, mouseX := 1, mouseY := 0, fire := true } 0,
      .broadcastState order (2 * n) (1 / 100), .broadcastState order (2 * n + 1) (1 / 10)]
  [.upsertPlayer "a", .upsertPlayer "b", .upsertPlayer "c"] ++ (List.range 10).flatMap round

/-- `EloRatingCalculator::Update` at the ratings of that run: 1200 and 1200, then 1213 and 1200. -/
def eloUpdate (winner loser : Int) : EloRatingUpdate where
  winnerNew := winner + if winner = loser then 13 else 12
  loserNew := loser - 12

/-- The match of the second death counts the first one again. -/
theorem second_death_counts_the_first_again :
    (reportedKills ((serverMachine ℚ eloUpdate (some {} : Option InMemoryLeaderboardStore)).run
        twoDeathsRun).1.profiles "a" = 3 ∧
      reportedDeaths ((serverMachine ℚ eloUpdate (some {} : Option InMemoryLeaderboardStore)).run
        twoDeathsRun).1.profiles "b" = 2) ∧
    ¬ CountsOnce ((serverMachine ℚ eloUpdate (some {} : Option InMemoryLeaderboardStore)).run
        twoDeathsRun).1.profiles
      ((serverMachine ℚ eloUpdate (some {} : Option InMemoryLeaderboardStore)).run twoDeathsRun).2 := by
  have hkills : reportedKills ((serverMachine ℚ eloUpdate (some {} : Option InMemoryLeaderboardStore)).run
      twoDeathsRun).1.profiles "a" = 3 := by decide +kernel
  refine ⟨⟨hkills, by decide +kernel⟩, fun h => ?_⟩
  have hcount := (h "a").1
  rw [hkills] at hcount
  revert hcount
  decide +kernel

end Portfolio.Arena
