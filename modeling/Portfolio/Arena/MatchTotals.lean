import Portfolio.Arena.PlayerProfileService

/-!
# What a recorded match adds

The kills and deaths that `Collect` finds for a player and `RecordMatch` adds to its profile, and
when these are the reported death and nothing else.
-/

namespace Portfolio.Arena
open Std

section
variable {α : Type}

/-- Every player is registered under its own id. -/
def Named (s : GameSession α) : Prop :=
  ∀ (id : String) (r : PlayerRuntimeState α), s.players[id]? = some r → r.state.playerId = id

theorem Named.find?_snapshot {s : GameSession α} (h : Named s) (j : String) :
    s.snapshot.find? (·.playerId = j) = (s.players[j]?).map (·.state) := by
  have hmem : ∀ state ∈ s.snapshot, state.playerId = j → (s.players[j]?).map (·.state) = some state := by
    intro state hstate hj
    obtain ⟨⟨id, r⟩, hr, rfl⟩ := List.mem_map.1 hstate
    rw [TreeMap.mem_toList_iff_getElem?_eq_some] at hr
    rw [← hj, h id r hr, hr]
    rfl
  cases hfind : s.snapshot.find? (·.playerId = j) with
  | none =>
    cases hr : s.players[j]? with
    | none => rfl
    | some r =>
      have hstate : r.state ∈ s.snapshot :=
        List.mem_map.2 ⟨(j, r), TreeMap.mem_toList_iff_getElem?_eq_some.2 hr, rfl⟩
      have := List.find?_eq_none.1 hfind r.state hstate
      exact absurd (h j r hr) (by simpa using this)
  | some state =>
    have hj : state.playerId = j := by simpa using List.find?_some hfind
    exact (hmem state (List.mem_of_find?_eq_some hfind) hj).symm

/-! ### The totals of a match -/

namespace MatchStatsCollector

/-- A log entry that `Collect` counts as a kill. -/
def Counted (deathTick : Nat) (event : CombatEvent) : Prop := event.type = .death ∧ event.tick ≤ deathTick

instance (deathTick : Nat) (event : CombatEvent) : Decidable (Counted deathTick event) :=
  inferInstanceAs (Decidable (_ ∧ _))

theorem getElem?_foldl_insertIfNew (states : List (PlayerState α)) (totals : Totals) (j : String) :
    (states.foldl (fun t state => t.insertIfNew state.playerId (startEntry state)) totals)[j]? =
      (totals[j]?).or ((states.find? (·.playerId = j)).map startEntry) := by
  induction states generalizing totals with
  | nil => simp
  | cons state states ih =>
    rw [List.foldl_cons, ih, TreeMap.getElem?_insertIfNew, List.find?_cons]
    by_cases hj : state.playerId = j
    · subst hj
      cases h : totals[state.playerId]? with
      | none =>
        have : state.playerId ∉ totals := by
          rw [TreeMap.mem_iff_isSome_getElem?, h]
          decide
        simp [this]
      | some t =>
        have : state.playerId ∈ totals := by
          rw [TreeMap.mem_iff_isSome_getElem?, h]
          rfl
        simp [this]
    · simp [hj]

/-- The deaths that the session counts for a player. -/
def sessionDeaths (s : GameSession α) (id : String) : Nat :=
  ((s.players[id]?).map (·.state.deaths)).getD 0

theorem lookupD_startTotals {s : GameSession α} (h : Named s) (j : String) :
    (lookupD noTotals (startTotals s.snapshot) j).kills = 0 ∧
      (lookupD noTotals (startTotals s.snapshot) j).deaths = sessionDeaths s j := by
  unfold lookupD startTotals sessionDeaths
  rw [getElem?_foldl_insertIfNew, h.find?_snapshot]
  cases s.players[j]? with
  | none => exact ⟨rfl, rfl⟩
  | some r =>
    simp only [TreeMap.getElem?_emptyc, Option.map_some, Option.none_or, Option.getD_some]
    exact ⟨rfl, rfl⟩

theorem atLeastOneKill_kills (entry : RunningTotals) : (atLeastOneKill entry).kills = max 1 entry.kills := by
  unfold atLeastOneKill
  split
  · next h => rw [h]; rfl
  · omega

theorem atLeastOneDeath_deaths (entry : RunningTotals) :
    (atLeastOneDeath entry).deaths = max 1 entry.deaths := by
  unfold atLeastOneDeath
  split
  · next h => rw [h]; rfl
  · omega

theorem atLeastOneKill_deaths (entry : RunningTotals) : (atLeastOneKill entry).deaths = entry.deaths := by
  unfold atLeastOneKill
  split <;> rfl

theorem atLeastOneDeath_kills (entry : RunningTotals) : (atLeastOneDeath entry).kills = entry.kills := by
  unfold atLeastOneDeath
  split <;> rfl

theorem lookupD_countEvent (deathTick : Nat) (totals : Totals) (event : CombatEvent) (j : String) :
    (lookupD noTotals (countEvent deathTick totals event) j).kills =
        (lookupD noTotals totals j).kills +
          (if Counted deathTick event ∧ event.shooterId = j then 1 else 0) ∧
      (lookupD noTotals (countEvent deathTick totals event) j).deaths =
        if Counted deathTick event ∧ event.targetId = j then max 1 (lookupD noTotals totals j).deaths
        else (lookupD noTotals totals j).deaths := by
  by_cases hc : Counted deathTick event
  · obtain ⟨htype, htick⟩ := id hc
    have heq : countEvent deathTick totals event = alterD noTotals
        (alterD noTotals totals event.shooterId addKill) event.targetId atLeastOneDeath := by
      unfold countEvent
      rw [if_neg (Nat.not_lt.2 htick), htype]
    simp only [heq, lookupD_alterD, hc, true_and]
    constructor
    · split <;> split <;> simp only [atLeastOneDeath_kills, addKill, Nat.add_zero]
    · split <;> split <;> simp only [atLeastOneDeath_deaths, addKill]
  · rw [if_neg (fun h => hc h.1), if_neg (fun h => hc h.1)]
    unfold countEvent
    split
    · exact ⟨rfl, rfl⟩
    · next hlate =>
      split
      · simp only [lookupD_alterD]
        constructor
        · split <;> split <;> rfl
        · split <;> split <;> rfl
      · next htype => exact absurd ⟨htype, Nat.le_of_not_lt hlate⟩ hc

theorem ite_max_or {a b : Prop} [Decidable a] [Decidable b] (n : Nat) :
    (if b then max 1 (if a then max 1 n else n) else if a then max 1 n else n) =
      if a ∨ b then max 1 n else n := by
  by_cases ha : a <;> by_cases hb : b <;> simp only [ha, hb, ↓reduceIte, or_true, or_false]
  omega

theorem lookupD_foldl_countEvent (deathTick : Nat) (log : List CombatEvent) (totals : Totals) (j : String) :
    (lookupD noTotals (log.foldl (countEvent deathTick) totals) j).kills =
        (lookupD noTotals totals j).kills + log.countP (fun d => Counted deathTick d ∧ d.shooterId = j) ∧
      (lookupD noTotals (log.foldl (countEvent deathTick) totals) j).deaths =
        if ∃ d ∈ log, Counted deathTick d ∧ d.targetId = j then max 1 (lookupD noTotals totals j).deaths
        else (lookupD noTotals totals j).deaths := by
  induction log generalizing totals with
  | nil => simp
  | cons d log ih =>
    obtain ⟨hk, hd⟩ := ih (countEvent deathTick totals d)
    obtain ⟨hk1, hd1⟩ := lookupD_countEvent deathTick totals d j
    rw [List.foldl_cons, hk, hd, hk1, hd1, List.countP_cons]
    refine ⟨?_, ?_⟩
    · simp only [decide_eq_true_eq]
      omega
    · simp only [List.mem_cons, exists_eq_or_imp]
      exact ite_max_or _

/-- The kills that `Collect` finds for player `p`. -/
def matchKills (e : CombatEvent) (s : GameSession α) (p : String) : Nat :=
  (lookupD noTotals (totalsOf e s) p).kills

/-- The deaths that `Collect` finds for player `p`. -/
def matchDeaths (e : CombatEvent) (s : GameSession α) (p : String) : Nat :=
  (lookupD noTotals (totalsOf e s) p).deaths

theorem matchKills_eq {s : GameSession α} (h : Named s) (e : CombatEvent) (p : String) :
    matchKills e s p =
      if e.shooterId = p then max 1 (s.combatLog.events.countP fun d => Counted e.tick d ∧ d.shooterId = p)
      else s.combatLog.events.countP fun d => Counted e.tick d ∧ d.shooterId = p := by
  have hlog := (lookupD_foldl_countEvent e.tick s.combatLogSnapshot (startTotals s.snapshot) p).1
  rw [(lookupD_startTotals h p).1, Nat.zero_add] at hlog
  unfold matchKills totalsOf
  simp only [lookupD_alterD]
  split <;> split <;> simp only [atLeastOneDeath_kills, atLeastOneKill_kills, hlog] <;> rfl

theorem matchDeaths_eq {s : GameSession α} (h : Named s) (e : CombatEvent) (p : String) :
    matchDeaths e s p =
      if (∃ d ∈ s.combatLog.events, Counted e.tick d ∧ d.targetId = p) ∨ e.targetId = p then
        max 1 (sessionDeaths s p)
      else sessionDeaths s p := by
  have hlog := (lookupD_foldl_countEvent e.tick s.combatLogSnapshot (startTotals s.snapshot) p).2
  rw [(lookupD_startTotals h p).2] at hlog
  have hkill : (lookupD noTotals (alterD noTotals (s.combatLogSnapshot.foldl (countEvent e.tick)
      (startTotals s.snapshot)) e.shooterId atLeastOneKill) p).deaths =
      if ∃ d ∈ s.combatLog.events, Counted e.tick d ∧ d.targetId = p then max 1 (sessionDeaths s p)
      else sessionDeaths s p := by
    rw [lookupD_alterD, apply_ite RunningTotals.deaths, atLeastOneKill_deaths, ite_self]
    exact hlog
  unfold matchDeaths totalsOf
  dsimp only
  rw [lookupD_alterD, apply_ite RunningTotals.deaths, atLeastOneDeath_deaths, hkill]
  exact ite_max_or _

/-- The session knows of no death but `e`: the log holds at most one that is not later, with the same
shooter and target, and nobody has died except the target, once. -/
structure OnlyDeath (e : CombatEvent) (s : GameSession α) : Prop where
  log : (s.combatLog.events.filter (Counted e.tick ·)).length ≤ 1
  same : ∀ d ∈ s.combatLog.events, Counted e.tick d → d.shooterId = e.shooterId ∧ d.targetId = e.targetId
  players : ∀ (id : String) (r : PlayerRuntimeState α), s.players[id]? = some r →
    r.state.deaths ≤ if e.targetId = id then 1 else 0

theorem le_matchKills {s : GameSession α} (h : Named s) (e : CombatEvent) (p : String) :
    (if e.shooterId = p then 1 else 0) ≤ matchKills e s p := by
  rw [matchKills_eq h]
  split
  · exact Nat.le_max_left _ _
  · exact Nat.zero_le _

theorem le_matchDeaths {s : GameSession α} (h : Named s) (e : CombatEvent) (p : String) :
    (if e.targetId = p then 1 else 0) ≤ matchDeaths e s p := by
  rw [matchDeaths_eq h]
  by_cases hp : e.targetId = p
  · rw [if_pos hp, if_pos (.inr hp)]
    exact Nat.le_max_left _ _
  · rw [if_neg hp]
    exact Nat.zero_le _

theorem OnlyDeath.matchKills_eq {e : CombatEvent} {s : GameSession α} (h : OnlyDeath e s) (hn : Named s)
    (p : String) : matchKills e s p = if e.shooterId = p then 1 else 0 := by
  rw [MatchStatsCollector.matchKills_eq hn]
  have hle : (s.combatLog.events.countP fun d => Counted e.tick d ∧ d.shooterId = p) ≤ 1 := by
    refine (List.countP_mono_left fun d hd hc => ?_).trans (List.countP_eq_length_filter ▸ h.log)
    simp only [decide_eq_true_eq] at hc ⊢
    exact hc.1
  split
  · omega
  · next hne =>
    rw [List.countP_eq_zero]
    intro d hd hc
    simp only [decide_eq_true_eq] at hc
    exact hne ((h.same d hd hc.1).1.symm.trans hc.2)

theorem OnlyDeath.matchDeaths_eq {e : CombatEvent} {s : GameSession α} (h : OnlyDeath e s) (hn : Named s)
    (p : String) : matchDeaths e s p = if e.targetId = p then 1 else 0 := by
  have hcount : sessionDeaths s p ≤ if e.targetId = p then 1 else 0 := by
    unfold sessionDeaths
    cases hr : s.players[p]? with
    | none => exact Nat.zero_le _
    | some r => exact h.players p r hr
  rw [MatchStatsCollector.matchDeaths_eq hn]
  by_cases hp : e.targetId = p
  · rw [if_pos (.inr hp), if_pos hp]
    rw [if_pos hp] at hcount
    omega
  · rw [if_neg hp] at hcount ⊢
    rw [if_neg]
    · exact Nat.le_zero.1 hcount
    · rintro (⟨d, hd, hc, hdp⟩ | hp')
      · exact hp ((h.same d hd hc).2.symm.trans hdp)
      · exact hp hp'

/-- A counted log entry gives its shooter a kill and its target a death. -/
theorem le_of_counted {s : GameSession α} (h : Named s) {e d : CombatEvent}
    (hd : d ∈ s.combatLog.events) (hc : Counted e.tick d) :
    1 ≤ matchKills e s d.shooterId ∧ 1 ≤ matchDeaths e s d.targetId := by
  have hkill : 0 < s.combatLog.events.countP fun x => Counted e.tick x ∧ x.shooterId = d.shooterId :=
    List.countP_pos_iff.2 ⟨d, hd, by simp [hc]⟩
  rw [matchKills_eq h, matchDeaths_eq h]
  constructor
  · split <;> omega
  · rw [if_pos (.inl ⟨d, hd, hc, rfl⟩)]
    exact Nat.le_max_left _ _

/-- `Collect` finds the reported death and nothing else exactly when the session knows no other. -/
theorem match_exact_iff {s : GameSession α} (h : Named s) (e : CombatEvent) :
    (∀ p, matchKills e s p = (if e.shooterId = p then 1 else 0) ∧
      matchDeaths e s p = if e.targetId = p then 1 else 0) ↔ OnlyDeath e s := by
  constructor
  · intro hex
    have hsame : ∀ d ∈ s.combatLog.events, Counted e.tick d →
        d.shooterId = e.shooterId ∧ d.targetId = e.targetId := by
      intro d hd hc
      obtain ⟨hk, hdeath⟩ := le_of_counted h hd hc
      rw [(hex d.shooterId).1] at hk
      rw [(hex d.targetId).2] at hdeath
      constructor
      · by_contra hne
        rw [if_neg (Ne.symm hne)] at hk
        omega
      · by_contra hne
        rw [if_neg (Ne.symm hne)] at hdeath
        omega
    refine ⟨?_, hsame, ?_⟩
    · have hk := (hex e.shooterId).1
      rw [matchKills_eq h, if_pos rfl, if_pos rfl] at hk
      rw [← List.countP_eq_length_filter]
      calc s.combatLog.events.countP (Counted e.tick ·)
          ≤ s.combatLog.events.countP fun d => Counted e.tick d ∧ d.shooterId = e.shooterId := by
            refine List.countP_mono_left fun d hd hc => ?_
            simp only [decide_eq_true_eq] at hc ⊢
            exact ⟨hc, (hsame d hd hc).1⟩
        _ ≤ 1 := by omega
    · intro id r hr
      have hcount : sessionDeaths s id = r.state.deaths := by
        unfold sessionDeaths
        rw [hr]
        rfl
      rw [← (hex id).2, matchDeaths_eq h, hcount]
      split
      · exact Nat.le_max_right _ _
      · exact Nat.le_refl _
  · intro honly p
    exact ⟨honly.matchKills_eq h p, honly.matchDeaths_eq h p⟩

/-! ### The stats entries -/

/-- Every entry is stored under its own player id. -/
def Keyed (totals : Totals) : Prop :=
  ∀ (id : String) (entry : RunningTotals), totals[id]? = some entry → entry.playerId = id

theorem Keyed.alterD {totals : Totals} (h : Keyed totals) (id : String)
    {f : RunningTotals → RunningTotals} (hf : ∀ entry, (f entry).playerId = entry.playerId) :
    Keyed (alterD noTotals totals id f) := by
  intro j entry hj
  rw [getElem?_alterD] at hj
  split at hj
  · cases hj
    rw [hf, lookupD]
    cases hj : totals[j]? with
    | none => rfl
    | some entry => exact h j entry hj
  · exact h j entry hj

theorem keyed_startTotals (states : List (PlayerState α)) : Keyed (startTotals states) := by
  intro j entry hj
  rw [startTotals, getElem?_foldl_insertIfNew, TreeMap.getElem?_emptyc, Option.none_or] at hj
  obtain ⟨state, hstate, rfl⟩ := Option.map_eq_some_iff.1 hj
  have := List.find?_some hstate
  exact of_decide_eq_true this

theorem Keyed.countEvent {totals : Totals} (h : Keyed totals) (deathTick : Nat) (event : CombatEvent) :
    Keyed (countEvent deathTick totals event) := by
  unfold MatchStatsCollector.countEvent
  split
  · exact h
  · split
    · dsimp only
      refine Keyed.alterD (Keyed.alterD h _ ?_) _ ?_
      · exact fun _ => rfl
      · exact fun _ => rfl
    · dsimp only
      refine Keyed.alterD (Keyed.alterD h _ ?_) _ ?_
      · exact fun _ => rfl
      · intro entry
        unfold atLeastOneDeath
        split <;> rfl

theorem keyed_totalsOf (e : CombatEvent) (s : GameSession α) : Keyed (totalsOf e s) := by
  have hlog : ∀ (log : List CombatEvent) (totals : Totals), Keyed totals →
      Keyed (log.foldl (MatchStatsCollector.countEvent e.tick) totals) := by
    intro log
    induction log with
    | nil => exact fun _ h => h
    | cons d log ih => exact fun _ h => ih _ (h.countEvent e.tick d)
  unfold totalsOf
  refine ((hlog _ _ (keyed_startTotals _)).alterD _ fun entry => ?_).alterD _ fun entry => ?_
  · unfold atLeastOneKill
    split <;> rfl
  · unfold atLeastOneDeath
    split <;> rfl

theorem filter_playerStats (e : CombatEvent) (s : GameSession α) (p : String) :
    (collect e s).playerStats.filter (·.playerId = p) =
      ((totalsOf e s)[p]?).toList.map (statsOf (matchId e)) := by
  have hkey : ∀ kv ∈ (totalsOf e s).toList,
      ((fun x : PlayerMatchStats => decide (x.playerId = p)) ∘ fun kv => statsOf (matchId e) kv.2) kv =
        decide (kv.1 = p) := by
    intro kv hkv
    rw [← keyed_totalsOf e s kv.1 kv.2 (TreeMap.mem_toList_iff_getElem?_eq_some.1 hkv)]
    rfl
  unfold collect
  rw [List.filter_map, List.filter_congr hkey, filter_toList, List.map_map]
  rfl

end MatchStatsCollector

/-! ### Recording a match -/

open MatchStatsCollector PlayerProfileService

/-- The kills that `GetProfile` reports. -/
def reportedKills {β : Type} (service : PlayerProfileService β) (p : String) : Nat :=
  ((service.getProfile p).map (·.kills)).getD 0

/-- The deaths that `GetProfile` reports. -/
def reportedDeaths {β : Type} (service : PlayerProfileService β) (p : String) : Nat :=
  ((service.getProfile p).map (·.deaths)).getD 0

theorem reported_eq {β : Type} (service : PlayerProfileService β) (p : String) :
    reportedKills service p = (lookupD noStats service.aggregates p).kills ∧
      reportedDeaths service p = (lookupD noStats service.aggregates p).deaths := by
  unfold reportedKills reportedDeaths getProfile lookupD
  cases service.aggregates[p]? with
  | none => exact ⟨rfl, rfl⟩
  | some a => exact ⟨rfl, rfl⟩

theorem lookupD_addMatch (aggregates : TreeMap String AggregateStats) (e : CombatEvent)
    (s : GameSession α) (p : String) :
    (lookupD noStats (addMatch aggregates (collect e s).playerStats) p).kills =
        (lookupD noStats aggregates p).kills + matchKills e s p ∧
      (lookupD noStats (addMatch aggregates (collect e s).playerStats) p).deaths =
        (lookupD noStats aggregates p).deaths + matchDeaths e s p := by
  unfold addMatch matchKills matchDeaths
  rw [lookupD_foldl, filter_playerStats]
  unfold lookupD
  cases (totalsOf e s)[p]? with
  | none => exact ⟨rfl, rfl⟩
  | some entry => exact ⟨rfl, rfl⟩

theorem reported_recordMatch {β : Type} [LeaderboardStore β] (update : Int → Int → EloRatingUpdate)
    (service : PlayerProfileService β) (e : CombatEvent) (s : GameSession α) (p : String) :
    reportedKills (service.recordMatch update (collect e s)) p =
        reportedKills service p + matchKills e s p ∧
      reportedDeaths (service.recordMatch update (collect e s)) p =
        reportedDeaths service p + matchDeaths e s p := by
  obtain ⟨hk, hd⟩ := lookupD_addMatch service.aggregates e s p
  rw [(reported_eq _ p).1, (reported_eq _ p).2, (reported_eq _ p).1, (reported_eq _ p).2, ← hk, ← hd]
  unfold recordMatch
  simp only [lookupD_alterD]
  constructor
  · split <;> split <;> rfl
  · split <;> split <;> rfl

end

end Portfolio.Arena
