import Portfolio.TurnCombat.GameState

/-!
# Runs of a battle

`Inv` says what holds of a state after any operations on the players 0 and 1, with the attackers of
the accepted attacks as ghost data; `Tally` counts the damage of a battle whose players stay. The
attacks alternate, so after `n` of them player 0 was hit `n / 2` times and player 1 `(n + 1) / 2` times.
-/

namespace Portfolio.TurnCombat

/-! ### Lobby and fighters -/

/-- Only the places 0 and 1 are used, each by its own player or by a placeholder. -/
structure Lobby (players : List Player) : Prop where
  size : players.length ≤ 2
  ids : ∀ (i : Nat) (p : Player), players[i]? = some p → p.id = i ∨ p.id = -1

/-- A player who takes part in a running battle. -/
structure Fighter (i : Int) (p : Player) : Prop where
  id : p.id = i
  connected : p.connected = true
  alive : 0 < p.health
  health : p.health ≤ 100

/-- The two players of a running battle. -/
structure Fighting (players : List Player) (p q : Player) : Prop where
  players : players = [p, q]
  first : Fighter 0 p
  second : Fighter 1 q

theorem Lobby.nil : Lobby [] := ⟨by decide, fun i p h => by simp at h⟩

theorem Lobby.add {players : List Player} (h : Lobby players) {id : Nat} (hid : id = 0 ∨ id = 1)
    (name : String) :
    Lobby ((players ++ List.replicate (id + 1 - players.length) ({} : Player)).modify id
      fun p => { p with id := id, name := name, connected := true, health := 100 }) := by
  have hsize := h.size
  refine ⟨?_, fun i p hp => ?_⟩
  · rw [List.length_modify, List.length_append, List.length_replicate]
    omega
  · rw [List.getElem?_modify] at hp
    obtain ⟨q, hq, rfl⟩ := Option.map_eq_some_iff.1 hp
    by_cases hi : id = i
    · rw [if_pos hi, ← hi]
      exact .inl rfl
    · rw [if_neg hi]
      rw [List.getElem?_append] at hq
      split at hq
      · exact h.ids i q hq
      · obtain rfl := List.eq_of_mem_replicate (List.mem_of_getElem? hq)
        exact .inr rfl

theorem Lobby.of_ids {players players' : List Player} (h : Lobby players)
    (hp : players'.map (·.id) = players.map (·.id)) : Lobby players' := by
  have hlen : players'.length = players.length := by simpa using congrArg List.length hp
  refine ⟨hlen ▸ h.size, fun i p hi => ?_⟩
  have hi' := congrArg (·[i]?) hp
  simp only [List.getElem?_map, hi, Option.map_some] at hi'
  obtain ⟨q, hq, hid⟩ := Option.map_eq_some_iff.1 hi'.symm
  exact hid ▸ h.ids i q hq

/-- Everybody is there: the lobby holds the players 0 and 1. -/
theorem Lobby.full {players : List Player} (h : Lobby players) (hlen : ¬ players.length < 2)
    (hall : (players.all fun p => decide (0 ≤ p.id) && p.connected) = true) :
    ∃ p q, Fighting (players.map (Player.resetHealth 100)) p q := by
  have hsize := h.size
  obtain ⟨p, q, rfl⟩ : ∃ p q, players = [p, q] := by
    match players, hlen, hsize with
    | [p, q], _, _ => exact ⟨p, q, rfl⟩
    | [], hlen, _ => simp at hlen
    | [_], hlen, _ => simp at hlen
    | _ :: _ :: _ :: _, _, hsize => simp at hsize
  simp only [List.all_cons, List.all_nil, Bool.and_eq_true, decide_eq_true_eq, Bool.and_true] at hall
  have hp := h.ids 0 p rfl
  have hq := h.ids 1 q rfl
  have hpos : (0 : Int) < 100 := by decide
  refine ⟨p.resetHealth 100, q.resetHealth 100, rfl, ⟨?_, hall.1.2, hpos, Int.le_refl _⟩,
    ⟨?_, hall.2.2, hpos, Int.le_refl _⟩⟩
  · show p.id = 0
    omega
  · show q.id = 1
    omega

/-! ### The invariant -/

/-- The attackers of `n` attacks in turn. -/
def turns (n : Nat) : List Int := (List.range n).map fun k => ((k % 2 : Nat) : Int)

theorem turns_succ (n : Nat) : turns (n + 1) = turns n ++ [((n % 2 : Nat) : Int)] := by
  unfold turns
  rw [List.range_succ, List.map_append]
  rfl

structure Inv (accepted : List Int) (s : GameState) : Prop where
  lobby : Lobby s.players
  exclusive : s.running = true → s.gameOver = false
  fighting : s.running = true → ∃ p q, Fighting s.players p q
  turn : s.running = true → s.currentTurnIndex = accepted.length % 2
  waiting : s.running = false → s.gameOver = false → accepted = []
  decided : s.gameOver = true → s.winnerId.isSome = true
  alternates : accepted = turns accepted.length

namespace Inv
variable {accepted : List Int} {s : GameState}

theorem init : Inv [] ({} : GameState) where
  lobby := .nil
  exclusive h := by cases h
  fighting h := by cases h
  turn h := by cases h
  waiting _ _ := rfl
  decided h := by cases h
  alternates := rfl

/-- A state that is not running keeps the invariant when only the lobby changes. -/
theorem idle (h : Inv accepted s) (hrun : s.running = false) {players : List Player}
    (hlobby : Lobby players) (action : String) :
    Inv accepted { s with players := players, lastAction := action } where
  lobby := hlobby
  exclusive := h.exclusive
  fighting hr := by rw [hrun] at hr; cases hr
  turn := h.turn
  waiting := h.waiting
  decided := h.decided
  alternates := h.alternates

/-- The end of a battle. -/
theorem finish (s : GameState) (halt : accepted = turns accepted.length) {players : List Player}
    (hlobby : Lobby players) {winner : Option Int} (hw : winner.isSome = true) (action : String) :
    Inv accepted { s with
      players := players, gameOver := true, running := false, winnerId := winner, lastAction := action } where
  lobby := hlobby
  exclusive hr := by cases hr
  fighting hr := by cases hr
  turn hr := by cases hr
  waiting _ ho := by cases ho
  decided _ := hw
  alternates := halt

/-! ### Operations -/

theorem addOrUpdatePlayer (h : Inv accepted s) {id : Nat} (hid : id = 0 ∨ id = 1) (name : String) :
    Inv accepted (s.addOrUpdatePlayer id name) := by
  cases hrun : s.running with
  | false => exact h.idle hrun (h.lobby.add hid name) _
  | true =>
    -- The players of a running battle are there, so one of them is reset.
    refine ⟨h.lobby.add hid name, h.exclusive, fun _ => ?_, h.turn, h.waiting, h.decided, h.alternates⟩
    obtain ⟨p, q, hf⟩ := h.fighting hrun
    rcases hid with rfl | rfl
    · refine ⟨{ p with id := 0, name := name, connected := true, health := 100 }, q, ?_,
        ⟨rfl, rfl, show (0 : Int) < 100 by decide, Int.le_refl _⟩, hf.second⟩
      simp [GameState.addOrUpdatePlayer, hf.players]
    · refine ⟨p, { q with id := 1, name := name, connected := true, health := 100 }, ?_, hf.first,
        ⟨rfl, rfl, show (0 : Int) < 100 by decide, Int.le_refl _⟩⟩
      simp [GameState.addOrUpdatePlayer, hf.players]

theorem markPlayerDisconnected (h : Inv accepted s) (id : Int) :
    Inv accepted (s.markPlayerDisconnected id) := by
  unfold GameState.markPlayerDisconnected
  split
  · exact h
  rename_i index hindex
  split
  · exact h
  rename_i player hplayer
  have hlobby : Lobby (s.players.modify index (Player.setConnected false)) := by
    refine h.lobby.of_ids (List.ext_getElem? fun i => ?_)
    simp only [List.getElem?_map, List.getElem?_modify, Option.map_eq_map, Option.map_map]
    refine Option.map_congr fun p _ => ?_
    show (if index = i then Player.setConnected false p else p).id = p.id
    split <;> rfl
  dsimp only
  split
  · rename_i hrun
    simp only [Bool.and_eq_true, Bool.not_eq_true'] at hrun
    refine .finish s h.alternates hlobby ?_ _
    obtain ⟨p, q, hf⟩ := h.fighting hrun.1
    rw [hf.players] at hplayer ⊢
    match index with
    | 0 =>
      obtain rfl : p = player := by simpa using hplayer
      simp [Player.setConnected, hf.first.id, hf.second.id, hf.second.connected]
    | 1 =>
      obtain rfl : q = player := by simpa using hplayer
      simp [Player.setConnected, hf.first.id, hf.second.id, hf.first.connected]
    | n + 2 => simp at hplayer
  · rename_i hrun
    simp only [Bool.and_eq_true, Bool.not_eq_true', not_and, Bool.not_eq_false] at hrun
    refine h.idle ?_ hlobby _
    cases hr : s.running with
    | false => rfl
    | true => exact absurd (h.exclusive hr) (by rw [hrun hr]; decide)

theorem startIfReady (h : Inv accepted s) : Inv accepted s.startIfReady := by
  unfold GameState.startIfReady
  split
  · exact h
  rename_i hidle
  simp only [Bool.or_eq_true, not_or, Bool.not_eq_true] at hidle
  split
  · exact h
  rename_i hlen
  split
  · rename_i hall
    have hnone := h.waiting hidle.1 hidle.2
    refine ⟨h.lobby.of_ids ?_, fun _ => rfl, fun _ => h.lobby.full hlen hall, fun _ => ?_,
      fun hr => (by cases hr), fun ho => (by cases ho), h.alternates⟩
    · simp [Player.resetHealth]
    · rw [hnone]
      rfl
  · exact h

theorem advanceTick (h : Inv accepted s) : s.advanceTick = s := by
  unfold GameState.advanceTick
  cases hrun : s.running with
  | false => rfl
  | true =>
    obtain ⟨p, q, hf⟩ := h.fighting hrun
    have hall : (s.players.all fun p => p.connected && p.isAlive) = true := by
      simp [hf.players, Player.isAlive, hf.first.connected, hf.second.connected, hf.first.alive,
        hf.second.alive]
    rw [h.exclusive hrun, hall]
    rfl

end Inv

/-! ### Attacks -/

theorem damage_bounds (draw : Nat) : 5 ≤ damage draw ∧ damage draw ≤ 15 := by
  unfold damage
  omega

/-- Who attacks whom: the attacker is the one whose turn it is. -/
theorem Inv.duel {accepted : List Int} {s : GameState} (h : Inv accepted s) {id : Int}
    {d : (Nat × Player) × (Nat × Player)} (hd : s.duel id = some d) :
    s.running = true ∧ ∃ p q, Fighting s.players p q ∧
      ((accepted.length % 2 = 0 ∧ id = 0 ∧ d = ((0, p), (1, q))) ∨
        (accepted.length % 2 = 1 ∧ id = 1 ∧ d = ((1, q), (0, p)))) := by
  cases hrun : s.running with
  | false => simp [GameState.duel, hrun] at hd
  | true =>
    obtain ⟨p, q, hf⟩ := h.fighting hrun
    have hturn := h.turn hrun
    refine ⟨rfl, p, q, hf, ?_⟩
    simp only [GameState.duel, hrun, h.exclusive hrun, hf.players, GameState.indexForPlayer,
      List.findIdx?_cons, hf.first.id, hf.second.id, hturn] at hd
    by_cases h0 : id = 0
    · subst h0
      simp [hf.second.connected] at hd
      exact .inl ⟨hd.1.symm, rfl, hd.2.symm⟩
    · by_cases h1 : id = 1
      · subst h1
        simp [hf.first.connected] at hd
        exact .inr ⟨hd.1.symm, rfl, hd.2.symm⟩
      · simp [Ne.symm h0, Ne.symm h1] at hd

/-- A blow that the defender survives. -/
theorem Fighter.hit {i : Int} {p : Player} (h : Fighter i p) (draw : Nat)
    (halive : (p.applyDamage (damage draw)).isAlive = true) : Fighter i (p.applyDamage (damage draw)) := by
  have hd := damage_bounds draw
  have hh := h.health
  refine ⟨h.id, h.connected, by simpa [Player.isAlive] using halive, ?_⟩
  show max 0 (p.health - damage draw) ≤ 100
  omega

/-- The players after an accepted attack, the `n`-th one from 0 on; `hit` is the one who was hit. -/
structure Blow (n draw : Nat) (p q p' q' hit : Player) : Prop where
  even : n % 2 = 0 → p' = p ∧ q' = q.applyDamage (damage draw) ∧ hit = q'
  odd : n % 2 = 1 → q' = q ∧ p' = p.applyDamage (damage draw) ∧ hit = p'

/-- What an accepted attack does. -/
theorem Inv.attack_cases {accepted : List Int} {s : GameState} (h : Inv accepted s) {id : Int} (draw : Nat)
    {d : (Nat × Player) × (Nat × Player)} (hd : s.duel id = some d) :
    id = ((accepted.length % 2 : Nat) : Int) ∧ s.running = true ∧
    ∃ p q p' q' hit action, Fighting s.players p q ∧ Blow accepted.length draw p q p' q' hit ∧
      ((hit.isAlive = true ∧ s.applyAttack id draw =
          { s with
            players := [p', q'], currentTurnIndex := (accepted.length + 1) % 2, lastAction := action }) ∨
        (hit.isAlive = false ∧ s.applyAttack id draw =
          { s with
            players := [p', q'], gameOver := true, running := false, winnerId := some id
            lastAction := action })) := by
  obtain ⟨hrun, p, q, hf, ⟨hn, rfl, rfl⟩ | ⟨hn, rfl, rfl⟩⟩ := h.duel hd
  · have hturn : (accepted.length + 1) % 2 = 1 := by omega
    refine ⟨by rw [hn]; rfl, hrun, p, q, p, q.applyDamage (damage draw), q.applyDamage (damage draw), ?_⟩
    cases halive : (q.applyDamage (damage draw)).isAlive with
    | true =>
      refine ⟨(s.applyAttack 0 draw).lastAction, hf, ⟨fun _ => ⟨rfl, rfl, rfl⟩, fun h1 => by omega⟩, .inl ⟨rfl, ?_⟩⟩
      simp only [GameState.applyAttack, hd, halive, hf.players, hturn]
      rfl
    | false =>
      refine ⟨(s.applyAttack 0 draw).lastAction, hf, ⟨fun _ => ⟨rfl, rfl, rfl⟩, fun h1 => by omega⟩, .inr ⟨rfl, ?_⟩⟩
      simp only [GameState.applyAttack, hd, halive, hf.players, hf.first.id]
      rfl
  · have hturn : (accepted.length + 1) % 2 = 0 := by omega
    refine ⟨by rw [hn]; rfl, hrun, p, q, p.applyDamage (damage draw), q, p.applyDamage (damage draw), ?_⟩
    cases halive : (p.applyDamage (damage draw)).isAlive with
    | true =>
      refine ⟨(s.applyAttack 1 draw).lastAction, hf, ⟨fun h0 => by omega, fun _ => ⟨rfl, rfl, rfl⟩⟩, .inl ⟨rfl, ?_⟩⟩
      simp only [GameState.applyAttack, hd, halive, hf.players, hturn]
      rfl
    | false =>
      refine ⟨(s.applyAttack 1 draw).lastAction, hf, ⟨fun h0 => by omega, fun _ => ⟨rfl, rfl, rfl⟩⟩, .inr ⟨rfl, ?_⟩⟩
      simp only [GameState.applyAttack, hd, halive, hf.players, hf.second.id]
      rfl

theorem Blow.lobby {n draw : Nat} {p q p' q' hit : Player} (hb : Blow n draw p q p' q' hit)
    {players : List Player} (hf : Fighting players p q) (h : Lobby players) : Lobby [p', q'] := by
  refine h.of_ids ?_
  rw [hf.players]
  rcases Nat.mod_two_eq_zero_or_one n with hn | hn
  · obtain ⟨rfl, rfl, -⟩ := hb.even hn
    rfl
  · obtain ⟨rfl, rfl, -⟩ := hb.odd hn
    rfl

theorem Blow.fighting {n draw : Nat} {p q p' q' hit : Player} (hb : Blow n draw p q p' q' hit)
    {players : List Player} (hf : Fighting players p q) (halive : hit.isAlive = true) :
    Fighting [p', q'] p' q' := by
  rcases Nat.mod_two_eq_zero_or_one n with hn | hn
  · obtain ⟨rfl, rfl, rfl⟩ := hb.even hn
    exact ⟨rfl, hf.first, hf.second.hit draw halive⟩
  · obtain ⟨rfl, rfl, rfl⟩ := hb.odd hn
    exact ⟨rfl, hf.first.hit draw halive, hf.second⟩

theorem Inv.applyAttack {accepted : List Int} {s : GameState} (h : Inv accepted s) (id : Int) (draw : Nat) :
    Inv (accepted ++ (Op.applyAttack id draw).accepted s) (s.applyAttack id draw) := by
  cases hd : s.duel id with
  | none =>
    simp only [Op.accepted, GameState.applyAttack, hd, Option.isSome_none, Bool.false_eq_true, if_false,
      List.append_nil]
    exact h
  | some d =>
    have hacc : (Op.applyAttack id draw).accepted s = [id] := by simp [Op.accepted, hd]
    obtain ⟨hid, hrun, p, q, p', q', hit, action, hf, hb, hcases⟩ := h.attack_cases draw hd
    have halt : accepted ++ [id] = turns (accepted ++ [id]).length := by
      rw [List.length_append, List.length_singleton, turns_succ, ← h.alternates, hid]
    rw [hacc]
    rcases hcases with ⟨halive, heq⟩ | ⟨-, heq⟩
    · rw [heq]
      refine ⟨hb.lobby hf h.lobby, h.exclusive, fun _ => ⟨p', q', hb.fighting hf halive⟩, fun _ => ?_,
        fun hr => ?_, h.decided, halt⟩
      · rw [List.length_append]
        rfl
      · exact absurd hrun (by rw [hr]; decide)
    · rw [heq]
      exact .finish s halt (hb.lobby hf h.lobby) rfl action

/-! ### Runs -/

/-- Only the players 0 and 1 join. -/
def Op.twoPlayers : Op → Prop
  | .addOrUpdatePlayer id _ => id = 0 ∨ id = 1
  | _ => True

instance : DecidablePred Op.twoPlayers
  | .addOrUpdatePlayer id _ => inferInstanceAs (Decidable (id = 0 ∨ id = 1))
  | .markPlayerDisconnected _ | .startIfReady | .applyAttack _ _ | .advanceTick => .isTrue trivial

theorem Inv.step {accepted : List Int} {s : GameState} (h : Inv accepted s) (op : Op) (hop : op.twoPlayers) :
    Inv (accepted ++ op.accepted s) (op.exec s) := by
  cases op with
  | addOrUpdatePlayer id name =>
    simp only [Op.accepted, List.append_nil]
    exact h.addOrUpdatePlayer hop name
  | markPlayerDisconnected id =>
    simp only [Op.accepted, List.append_nil]
    exact h.markPlayerDisconnected id
  | startIfReady =>
    simp only [Op.accepted, List.append_nil]
    exact h.startIfReady
  | applyAttack id draw => exact h.applyAttack id draw
  | advanceTick =>
    simp only [Op.accepted, List.append_nil, Op.exec, h.advanceTick]
    exact h

theorem inv_run {ops : List Op} (hops : ∀ op ∈ ops, op.twoPlayers) :
    Inv (battleMachine.run ops).2 (battleMachine.run ops).1 := by
  refine battleMachine.run_inv_along (G := fun _ op => op.twoPlayers) (P := fun _ out s => Inv out s)
    Inv.init (fun _ out s op h hop => h.step op hop) ops ?_
  rintro pre op post rfl
  exact hops op (by simp)

/-- A battle that is over stays over, with its winner. -/
theorem exec_of_gameOver {s : GameState} (h : s.gameOver = true) (op : Op) :
    (op.exec s).gameOver = true ∧ (op.exec s).winnerId = s.winnerId := by
  cases op with
  | addOrUpdatePlayer id name => exact ⟨h, rfl⟩
  | markPlayerDisconnected id =>
    simp only [Op.exec, GameState.markPlayerDisconnected, h, Bool.not_true, Bool.and_false,
      Bool.false_eq_true, if_false]
    split
    · exact ⟨h, rfl⟩
    · split
      · exact ⟨h, rfl⟩
      · exact ⟨rfl, rfl⟩
  | startIfReady => simp [Op.exec, GameState.startIfReady, h]
  | applyAttack id draw => simp [Op.exec, GameState.applyAttack, GameState.duel, h]
  | advanceTick => simp [Op.exec, GameState.advanceTick, h]

/-! ### Battles whose players stay -/

/-- Nobody joins again or leaves. -/
def Op.keepsPlayers : Op → Prop
  | .addOrUpdatePlayer _ _ => False
  | .markPlayerDisconnected _ => False
  | _ => True

instance : DecidablePred Op.keepsPlayers
  | .addOrUpdatePlayer _ _ | .markPlayerDisconnected _ => .isFalse id
  | .startIfReady | .applyAttack _ _ | .advanceTick => .isTrue trivial

/-- The healths after `n` attacks. -/
structure Tally (n : Nat) (p q : Player) : Prop where
  first_low : 100 - 15 * (n / 2 : Int) ≤ p.health
  first_high : p.health ≤ 100 - 5 * (n / 2 : Int)
  second_low : 100 - 15 * ((n + 1) / 2 : Int) ≤ q.health
  second_high : q.health ≤ 100 - 5 * ((n + 1) / 2 : Int)

/-- A running battle is tallied, and one that is over took 13 to 39 attacks. -/
structure Paced (n : Nat) (s : GameState) : Prop where
  tally : s.running = true → ∀ p q, Fighting s.players p q → Tally n p q
  ended : s.gameOver = true → 13 ≤ n ∧ n ≤ 39

theorem isAlive_applyDamage (p : Player) (amount : Int) :
    (p.applyDamage amount).isAlive = decide (amount < p.health) := by
  unfold Player.isAlive Player.applyDamage
  simp only [decide_eq_decide]
  omega

/-- A blow that does not end the battle is tallied; one that does is the 13th at the earliest. -/
theorem Tally.blow {n draw : Nat} {p q p' q' hit : Player} (ht : Tally n p q) {players : List Player}
    (hf : Fighting players p q) (hb : Blow n draw p q p' q' hit) :
    (hit.isAlive = true → Tally (n + 1) p' q') ∧ (hit.isAlive = false → 13 ≤ n + 1) ∧ n + 1 ≤ 39 := by
  obtain ⟨hlow, hhigh⟩ := damage_bounds draw
  have hp := hf.first.alive
  have hq := hf.second.alive
  obtain ⟨h1, h2, h3, h4⟩ := ht
  rcases Nat.mod_two_eq_zero_or_one n with hn | hn
  · obtain ⟨rfl, rfl, rfl⟩ := hb.even hn
    have hhit : (q.applyDamage (damage draw)).health = max 0 (q.health - damage draw) := rfl
    simp only [isAlive_applyDamage, decide_eq_true_eq, decide_eq_false_iff_not]
    exact ⟨fun ha => ⟨by omega, by omega, by rw [hhit]; omega, by rw [hhit]; omega⟩,
      fun ha => by omega, by omega⟩
  · obtain ⟨rfl, rfl, rfl⟩ := hb.odd hn
    have hhit : (p.applyDamage (damage draw)).health = max 0 (p.health - damage draw) := rfl
    simp only [isAlive_applyDamage, decide_eq_true_eq, decide_eq_false_iff_not]
    exact ⟨fun ha => ⟨by rw [hhit]; omega, by rw [hhit]; omega, by omega, by omega⟩,
      fun ha => by omega, by omega⟩

/-- Both players are alive, so there is an attack to come. -/
theorem Tally.lt {n : Nat} {p q : Player} (ht : Tally n p q) {players : List Player}
    (hf : Fighting players p q) : n < 39 := by
  have hq := hf.second.alive
  have hhigh := ht.second_high
  omega

theorem Fighting.unique {players : List Player} {p q p' q' : Player} (h : Fighting players p q)
    (h' : Fighting players p' q') : p' = p ∧ q' = q := by
  have := h'.players.symm.trans h.players
  simpa using this

/-- Before the start and after the end, players may come and go. -/
theorem Paced.idle {n : Nat} {s t : GameState} (hp : Paced n s) (hrun : s.running = false)
    (ht : t.running = s.running) (ho : t.gameOver = s.gameOver) : Paced n t := by
  refine ⟨fun hr => ?_, fun hover => hp.ended (ho ▸ hover)⟩
  rw [ht, hrun] at hr
  cases hr

theorem Paced.start {accepted : List Int} {s : GameState} (h : Inv accepted s) (hp : Paced accepted.length s) :
    Paced accepted.length s.startIfReady := by
  unfold GameState.startIfReady
  split
  · exact hp
  rename_i hwait
  simp only [Bool.or_eq_true, not_or, Bool.not_eq_true] at hwait
  split
  · exact hp
  split
  · refine ⟨fun _ p q hf => ?_, fun ho => (by cases ho)⟩
    -- the first attack is still to come, and everybody is healed
    have hfull : ∀ x ∈ s.players.map (Player.resetHealth 100), x.health = 100 := by
      intro x hx
      obtain ⟨y, -, rfl⟩ := List.mem_map.1 hx
      rfl
    have hpl := hf.players
    dsimp only at hpl
    rw [hpl] at hfull
    have hp100 := hfull p (by simp)
    have hq100 := hfull q (by simp)
    rw [h.waiting hwait.1 hwait.2]
    exact ⟨by simp [hp100], by simp [hp100], by simp [hq100], by simp [hq100]⟩
  · exact hp

theorem Paced.attack {accepted : List Int} {s : GameState} (h : Inv accepted s) (hp : Paced accepted.length s)
    (id : Int) (draw : Nat) :
    Paced (accepted ++ (Op.applyAttack id draw).accepted s).length (s.applyAttack id draw) := by
  cases hd : s.duel id with
  | none =>
    simp only [Op.accepted, GameState.applyAttack, hd, Option.isSome_none, Bool.false_eq_true, if_false,
      List.append_nil]
    exact hp
  | some d =>
    have hacc : (accepted ++ (Op.applyAttack id draw).accepted s).length = accepted.length + 1 := by
      simp [Op.accepted, hd]
    obtain ⟨-, hrun, p, q, p', q', hit, action, hf, hb, hcases⟩ := h.attack_cases draw hd
    obtain ⟨htally, hmin, hmax⟩ := (hp.tally hrun p q hf).blow hf hb
    rw [hacc]
    rcases hcases with ⟨halive, heq⟩ | ⟨hdead, heq⟩
    · rw [heq]
      refine ⟨fun _ p₁ q₁ hf₁ => ?_, fun ho => ?_⟩
      · obtain ⟨rfl, rfl⟩ := (hb.fighting hf halive).unique hf₁
        exact htally halive
      · have hgoing : s.gameOver = false := h.exclusive hrun
        simp [hgoing] at ho
    · rw [heq]
      exact ⟨fun hr => (by cases hr), fun _ => ⟨hmin hdead, hmax⟩⟩

theorem Paced.step {accepted : List Int} {s : GameState} (h : Inv accepted s) (hp : Paced accepted.length s)
    (op : Op) (hkeep : s.running = true → op.keepsPlayers) :
    Paced (accepted ++ op.accepted s).length (op.exec s) := by
  cases op with
  | addOrUpdatePlayer id name =>
    simp only [Op.accepted, List.append_nil]
    exact hp.idle (Bool.eq_false_iff.2 hkeep) rfl rfl
  | markPlayerDisconnected id =>
    simp only [Op.accepted, List.append_nil]
    have hrun : s.running = false := Bool.eq_false_iff.2 hkeep
    refine hp.idle hrun ?_ ?_
    all_goals
      simp only [Op.exec, GameState.markPlayerDisconnected, hrun, Bool.false_and, Bool.false_eq_true, if_false]
      split
      · first | exact hrun | rfl
      · split
        · first | exact hrun | rfl
        · rfl
  | startIfReady =>
    simp only [Op.accepted, List.append_nil]
    exact hp.start h
  | applyAttack id draw => exact hp.attack h id draw
  | advanceTick =>
    simp only [Op.accepted, List.append_nil, Op.exec, h.advanceTick]
    exact hp

theorem paced_run {ops : List Op} (hops : ∀ op ∈ ops, op.twoPlayers)
    (hkeep : battleMachine.Along (fun s op => s.running = true → op.keepsPlayers) ops) :
    Paced (battleMachine.run ops).2.length (battleMachine.run ops).1 := by
  have h := battleMachine.run_inv_along
    (G := fun s op => op.twoPlayers ∧ (s.running = true → op.keepsPlayers))
    (P := fun _ out s => Inv out s ∧ Paced out.length s) ⟨Inv.init, fun h => (by cases h), fun h => (by cases h)⟩
    (fun _ out s op h hop => ⟨h.1.step op hop.1, h.2.step h.1 op hop.2⟩) ops ?_
  · exact h.2
  · rintro pre op post rfl
    exact ⟨hops op (by simp), hkeep pre op post rfl⟩

/-- The state machine of a battle, over every sequence of operations on the players 0 and 1. -/
theorem battle_runs (ops : List Op) (hops : ∀ op ∈ ops, op.twoPlayers) :
    let r := battleMachine.run ops
    ¬ (r.1.running = true ∧ r.1.gameOver = true) ∧
    (r.1.running = true → r.1.players.map (·.id) = [0, 1] ∧
      ∀ p ∈ r.1.players, p.connected = true ∧ 0 ≤ p.health ∧ p.health ≤ 100) ∧
    (r.1.gameOver = true → r.1.winnerId.isSome = true ∧ ∀ later : List Op,
      (battleMachine.run (ops ++ later)).1.gameOver = true ∧
        (battleMachine.run (ops ++ later)).1.winnerId = r.1.winnerId) ∧
    r.2 = turns r.2.length ∧
    (battleMachine.Along (fun s op => s.running = true → op.keepsPlayers) ops →
      r.2.length ≤ 39 ∧ (r.2.length = 39 → r.1.gameOver = true) ∧
        (r.1.gameOver = true → 13 ≤ r.2.length)) := by
  intro r
  have h : Inv r.2 r.1 := inv_run hops
  refine ⟨fun hboth => ?_, fun hrun => ?_, fun hover => ⟨h.decided hover, fun later => ?_⟩, h.alternates,
    fun hkeep => ?_⟩
  · exact absurd hboth.2 (by rw [h.exclusive hboth.1]; decide)
  · obtain ⟨p, q, hf⟩ := h.fighting hrun
    rw [hf.players]
    refine ⟨?_, fun x hx => ?_⟩
    · simp [hf.first.id, hf.second.id]
    · simp only [List.mem_cons, List.not_mem_nil, or_false] at hx
      rcases hx with rfl | rfl
      · exact ⟨hf.first.connected, Int.le_of_lt hf.first.alive, hf.first.health⟩
      · exact ⟨hf.second.connected, Int.le_of_lt hf.second.alive, hf.second.health⟩
  · refine battleMachine.run_append_rel
      (R := fun s t => s.gameOver = true → t.gameOver = true ∧ t.winnerId = s.winnerId) (fun s h => ⟨h, rfl⟩)
      (fun s t op hst ho => ?_) ops later hover
    obtain ⟨hto, htw⟩ := hst ho
    obtain ⟨hto', htw'⟩ := exec_of_gameOver hto op
    exact ⟨hto', htw'.trans htw⟩
  · have hp : Paced r.2.length r.1 := paced_run hops hkeep
    have hcases : r.1.gameOver = true ∨ r.2.length < 39 := by
      cases ho : r.1.gameOver with
      | true => exact .inl rfl
      | false =>
        right
        cases hrun : r.1.running with
        | true =>
          obtain ⟨p, q, hf⟩ := h.fighting hrun
          exact (hp.tally hrun p q hf).lt hf
        | false =>
          rw [h.waiting hrun ho]
          decide
    refine ⟨?_, fun h39 => hcases.resolve_right (by omega), fun ho => (hp.ended ho).1⟩
    rcases hcases with ho | hlt
    · exact (hp.ended ho).2
    · exact Nat.le_of_lt hlt

/-- The shortest battle: every blow takes 15 points. -/
def shortest : List Op :=
  [.addOrUpdatePlayer 0 "Player 1", .addOrUpdatePlayer 1 "Player 2", .startIfReady] ++
    (turns 13).map fun id => .applyAttack id 10

theorem battle_runs_shortest :
    (battleMachine.run shortest).1.gameOver = true ∧ (battleMachine.run shortest).1.winnerId = some 0 ∧
      13 ≤ (battleMachine.run shortest).2.length ∧ (battleMachine.run shortest).2.length ≤ 39 := by
  have hkeep : battleMachine.Along (fun s op => s.running = true → op.keepsPlayers) shortest := by
    rw [Machine.along_iff_forall_lt]
    decide +kernel
  have h := battle_runs shortest (by decide)
  exact ⟨by decide +kernel, by decide +kernel, (h.2.2.2.2 hkeep).2.2 (by decide +kernel), (h.2.2.2.2 hkeep).1⟩

end Portfolio.TurnCombat
