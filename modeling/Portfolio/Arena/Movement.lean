import Portfolio.Arena.SessionCalls
import Portfolio.Arena.LifetimeStats
import Portfolio.Lib.RealScalar

/-!
# Speed of players

`ApplyInput` moves a player by five metres per second times `TargetDelta` for every frame, whatever
time has passed since the last one. The speed is capped as long as a client sends at most one moving
frame per tick, up to one for the whole stretch, and the player is not removed in between.
-/

namespace Portfolio.Arena
open Std GameSession

/-! ### One frame -/

/-- The distance between the places of two states, in metres. -/
noncomputable def PlayerState.distance (a b : PlayerState ℝ) : ℝ := length2 (b.x - a.x) (b.y - a.y)

theorem PlayerState.distance_triangle (a b c : PlayerState ℝ) :
    a.distance c ≤ a.distance b + b.distance c := by
  have hsum := length2_add_le (b.x - a.x) (b.y - a.y) (c.x - b.x) (c.y - b.y)
  rwa [sub_add_sub_cancel', sub_add_sub_cancel'] at hsum

theorem PlayerState.distance_of_eq {a b : PlayerState ℝ} (hx : b.x = a.x) (hy : b.y = a.y) :
    a.distance b = 0 := by
  rw [distance, hx, hy, sub_self, sub_self, length2_zero]

/-- The keys of a frame pull in some direction. -/
def MovementInput.steers {α : Type} (input : MovementInput α) : Bool :=
  input.up != input.down || input.left != input.right

/-- The direction along one axis. -/
noncomputable def pull (minus plus : Bool) : ℝ := (if plus then 1 else 0) - (if minus then 1 else 0)

theorem movePlayer_eq (s : GameSession ℝ) (state : PlayerState ℝ) (input : MovementInput ℝ) (dt : ℝ)
    {dx dy m : ℝ} (hdx : dx = pull input.left input.right) (hdy : dy = pull input.up input.down)
    (hm : m = √(dx * dx + dy * dy)) :
    (s.movePlayer state input dt).x =
        state.x + (if 0 < m then dx / m else dx) * (s.speedPerSecond * dt) ∧
      (s.movePlayer state input dt).y =
        state.y + (if 0 < m then dy / m else dy) * (s.speedPerSecond * dt) := by
  subst hdx hdy hm
  unfold movePlayer pull
  cases input.left <;> cases input.right <;> cases input.up <;> cases input.down <;> simp

theorem distance_movePlayer_le (s : GameSession ℝ) (state : PlayerState ℝ) (input : MovementInput ℝ)
    (dt : ℝ) :
    state.distance (s.movePlayer state input dt) ≤ |s.speedPerSecond * dt| := by
  obtain ⟨hx, hy⟩ := movePlayer_eq s state input dt rfl rfl rfl
  rw [PlayerState.distance, hx, hy, add_sub_cancel_left, add_sub_cancel_left]
  exact length2_normalised_le _ _ _ rfl

theorem distance_movePlayer_of_not_steers (s : GameSession ℝ) (state : PlayerState ℝ)
    {input : MovementInput ℝ} (h : input.steers = false) (dt : ℝ) : state.distance (s.movePlayer state input dt) = 0 := by
  obtain ⟨hv, hh⟩ : input.up = input.down ∧ input.left = input.right := by
    simpa [MovementInput.steers] using h
  obtain ⟨hx, hy⟩ := movePlayer_eq s state input dt rfl rfl rfl
  have hstill : ∀ b, pull b b = 0 := fun b => sub_self _
  rw [hv, hh, hstill, hstill, zero_div, ite_self, zero_mul, add_zero] at hx hy
  exact PlayerState.distance_of_eq hx hy

/-! ### Calls -/

namespace ServerOp

/-- The call moves `id`: a frame of a living player that is not stale and whose keys pull. -/
def moves {α : Type} (id : String) (s : GameSession α) : ServerOp α → Bool
  | .applyInput j input _ =>
    match s.players[j]? with
    | none => false
    | some r =>
      j = id && r.state.isAlive && decide (r.state.lastSequence ≤ input.sequence) && input.steers
  | _ => false

section
variable {β : Type} [LeaderboardStore β] (update : Int → Int → EloRatingUpdate)

theorem exec_speed {α : Type} [Scalar α] (base : WebSocketServer α β) (op : ServerOp α) :
    (op.exec update base).1.session.speedPerSecond = base.session.speedPerSecond := by
  cases op with
  | upsertPlayer id => rfl
  | removePlayer id => rfl
  | applyInput id input dt => exact (applyInput_ground base.session id input dt).1
  | broadcastState order tick dt => exact (broadcastState_ground update base order tick dt).speed

/-- An input moves its player by what one frame allows, if it moves it at all. -/
theorem applyInput_distance {s : GameSession ℝ} (hspeed : s.speedPerSecond = 5) {dt : ℝ} (hdt : 0 ≤ dt) (j : String)
    (input : MovementInput ℝ) {id : String} {r : PlayerRuntimeState ℝ} (hr : s.players[id]? = some r) :
    ∃ r', (s.applyInput j input dt).1.players[id]? = some r' ∧
      r.state.distance r'.state ≤ 5 * dt * (moves id s (.applyInput j input dt)).toNat := by
  have hnonneg : 0 ≤ 5 * dt * ((moves id s (.applyInput j input dt)).toNat : ℝ) := by positivity
  cases hj : s.players[j]? with
  | none =>
    rw [applyInput_of_none hj]
    refine ⟨r, hr, ?_⟩
    rwa [PlayerState.distance_of_eq rfl rfl]
  | some rj =>
    obtain ⟨r', hget, hbody⟩ := applyInput_of_some hj input dt
    rw [hget]
    by_cases hid : j = id
    · subst hid
      obtain rfl : rj = r := Option.some.inj (hj.symm.trans hr)
      rw [if_pos rfl]
      refine ⟨r', rfl, ?_⟩
      rcases hbody.place with ⟨hx, hy⟩ | ⟨hseq, halive, hx, hy⟩
      · rwa [PlayerState.distance_of_eq hx hy]
      · have hdist : rj.state.distance r'.state = rj.state.distance (s.movePlayer rj.state input dt) := by
          rw [PlayerState.distance, PlayerState.distance, hx, hy]
        rw [hdist]
        by_cases hsteers : input.steers = true
        · have hmoves : moves j s (.applyInput j input dt) = true := by
            simp [moves, hj, halive, hseq, hsteers]
          have hle := distance_movePlayer_le s rj.state input dt
          rw [hspeed, abs_of_nonneg (by positivity)] at hle
          rwa [hmoves, Bool.toNat_true, Nat.cast_one, mul_one]
        · rwa [distance_movePlayer_of_not_steers _ _ (Bool.eq_false_iff.2 hsteers)]
    · rw [if_neg hid]
      refine ⟨r, hr, ?_⟩
      rwa [PlayerState.distance_of_eq rfl rfl]

/-- One call moves a player by what one frame allows, if it moves it at all. -/
theorem exec_distance {base : WebSocketServer ℝ β} (hn : Named base.session)
    (hspeed : base.session.speedPerSecond = 5) {targetDelta : ℝ} (hdelta : 0 ≤ targetDelta)
    {op : ServerOp ℝ} {event : ConnectionEvent ℝ} (hop : ConnectionServer.CallOf targetDelta event op)
    {id : String} (hstay : op ≠ .removePlayer id) {r : PlayerRuntimeState ℝ}
    (hr : base.session.players[id]? = some r) :
    ∃ r', (op.exec update base).1.session.players[id]? = some r' ∧
      r.state.distance r'.state ≤ 5 * targetDelta * (op.moves id base.session).toNat := by
  have hstill : ∀ r' : PlayerRuntimeState ℝ, r'.state.x = r.state.x → r'.state.y = r.state.y →
      r.state.distance r'.state ≤ 5 * targetDelta * (op.moves id base.session).toNat := by
    intro r' hx hy
    rw [PlayerState.distance_of_eq hx hy]
    positivity
  cases hop with
  | upsertPlayer hne =>
    rename_i j
    show ∃ r', (base.session.upsertPlayer j).players[id]? = some r' ∧ _
    rw [getElem?_upsertPlayer]
    by_cases hj : j = id
    · -- a record that is there keeps its place
      subst hj
      rw [if_pos rfl, hr, Option.getD_some, initRuntime_of_named (by rwa [hn j r hr])]
      exact ⟨revive r, rfl, hstill _ rfl rfl⟩
    · rw [if_neg hj]
      exact ⟨r, hr, hstill r rfl rfl⟩
  | removePlayer j =>
    have hj : j ≠ id := fun h => hstay (by rw [h])
    have hget : (base.session.players.erase j)[id]? = some r := by
      rw [TreeMap.getElem?_erase, if_neg (by rwa [Std.compare_eq_iff_eq]), hr]
    exact ⟨r, hget, hstill r rfl rfl⟩
  | applyInput j input => exact applyInput_distance hspeed hdelta j input hr
  | broadcastState hticked =>
    rename_i order tick dt
    have hbody : (((base.broadcastState update order tick dt).1.session.players[id]?).map
        PlayerRuntimeState.body) = some r.body := by
      have hground := (broadcastState_ground update base order tick dt).body id
      rwa [body?, body?, hr] at hground
    obtain ⟨r', hr', heq⟩ := Option.map_eq_some_iff.1 hbody
    obtain ⟨hx, hy⟩ := Prod.mk.inj heq
    exact ⟨r', hr', hstill r' hx (Prod.mk.inj hy).1⟩

/-- The number of calls that move `id`, when `ops` are executed from `base` on. -/
def movesIn {α : Type} [Scalar α] (id : String) : WebSocketServer α β → List (ServerOp α) → Nat
  | _, [] => 0
  | base, op :: ops => (op.moves id base.session).toNat + movesIn id (op.exec update base).1 ops

theorem execCalls_distance {base : WebSocketServer ℝ β} (hn : Named base.session)
    (hspeed : base.session.speedPerSecond = 5) {targetDelta : ℝ} (hdelta : 0 ≤ targetDelta)
    {ops : List (ServerOp ℝ)} (hops : ∀ op ∈ ops, ∃ event, ConnectionServer.CallOf targetDelta event op)
    {id : String} (hstay : ServerOp.removePlayer id ∉ ops) {r : PlayerRuntimeState ℝ}
    (hr : base.session.players[id]? = some r) :
    ∃ r', (ConnectionServer.execCalls update base ops).session.players[id]? = some r' ∧
      r.state.distance r'.state ≤ 5 * targetDelta * movesIn update id base ops := by
  induction ops generalizing base r with
  | nil =>
    refine ⟨r, hr, ?_⟩
    rw [PlayerState.distance_of_eq rfl rfl]
    simp [movesIn]
  | cons op ops ih =>
    obtain ⟨hne, hstay⟩ := not_or.1 (fun h => hstay (List.mem_cons.2 h))
    obtain ⟨event, hcall⟩ := hops op List.mem_cons_self
    obtain ⟨r₁, hr₁, hdist₁⟩ := exec_distance update hn hspeed hdelta hcall (fun h => hne h.symm) hr
    obtain ⟨r₂, hr₂, hdist₂⟩ := ih (hn.step update op) ((exec_speed update base op).trans hspeed)
      (fun op' h => hops op' (List.mem_cons_of_mem op h)) hstay hr₁
    refine ⟨r₂, hr₂, ?_⟩
    calc r.state.distance r₂.state
        ≤ r.state.distance r₁.state + r₁.state.distance r₂.state := PlayerState.distance_triangle ..
      _ ≤ 5 * targetDelta * (op.moves id base.session).toNat +
          5 * targetDelta * movesIn update id (op.exec update base).1 ops := add_le_add hdist₁ hdist₂
      _ = 5 * targetDelta * movesIn update id base (op :: ops) := by
        rw [← mul_add, movesIn, Nat.cast_add]

end
end ServerOp

/-! ### Runs -/

def ConnectionEvent.isTick {α : Type} : ConnectionEvent α → Bool
  | .tick _ _ _ => true
  | _ => false

namespace ConnectionServer
open ServerOp
variable {α β : Type}

section
variable [Scalar α] [LeaderboardStore β] (conv : SecondsConv α)
  (sort : List QueuedPlayer → List QueuedPlayer) (update : Int → Int → EloRatingUpdate)
  (readInput : List Char → Option (MovementInput α)) (targetDelta : α)

/-- What the session keeps in every run: names and the speed. -/
theorem session_run (leaderboard : Option β) (events : List (ConnectionEvent α)) :
    Named ((connectionMachine conv sort update readInput targetDelta leaderboard).run events).1.base.session ∧
      ((connectionMachine conv sort update readInput targetDelta
        leaderboard).run events).1.base.session.speedPerSecond = kPlayerSpeed := by
  rw [base_run]
  refine (serverMachine α update leaderboard).run_inv
    (P := fun _ _ base => Named base.session ∧ base.session.speedPerSecond = kPlayerSpeed)
    ⟨?_, rfl⟩ ?_ _
  · intro id r hr
    cases hr
  · rintro _ _ base op ⟨hn, hspeed⟩
    exact ⟨hn.step update op, (exec_speed update base op).trans hspeed⟩

end

/-- Between two states with `n` ticks in between a player moves by five metres per second for `n + 1`
ticks at most, if no more than `n + 1` frames moved it and it was not removed. -/
theorem speed_capped [LeaderboardStore β] (conv : SecondsConv ℝ)
    (sort : List QueuedPlayer → List QueuedPlayer) (update : Int → Int → EloRatingUpdate)
    (readInput : List Char → Option (MovementInput ℝ)) {targetDelta : ℝ} (hdelta : 0 ≤ targetDelta)
    (leaderboard : Option β) (events₀ events₁ : List (ConnectionEvent ℝ)) {s₀ s₁ : ConnectionServer ℝ β}
    (hs₀ : s₀ = ((connectionMachine conv sort update readInput targetDelta leaderboard).run events₀).1)
    (hs₁ : s₁ = ((connectionMachine conv sort update readInput targetDelta leaderboard).run
      (events₀ ++ events₁)).1)
    {id : String} (hstay : .removePlayer id ∉ callsFrom conv sort update readInput targetDelta s₀ events₁)
    (hmoves : movesIn update id s₀.base (callsFrom conv sort update readInput targetDelta s₀ events₁) ≤
      events₁.countP (·.isTick) + 1)
    {r₀ r₁ : PlayerRuntimeState ℝ} (hr₀ : s₀.base.session.players[id]? = some r₀)
    (hr₁ : s₁.base.session.players[id]? = some r₁) :
    r₀.state.distance r₁.state ≤ 5 * events₁.countP (·.isTick) * targetDelta + 5 * targetDelta := by
  obtain ⟨hn, hspeed⟩ := session_run conv sort update readInput targetDelta leaderboard events₀
  have hbase := base_run_append conv sort update readInput targetDelta leaderboard events₀ events₁
  rw [← hs₀] at hn hspeed hbase
  have hfive : (kPlayerSpeed : ℝ) = 5 := by simp [kPlayerSpeed]
  obtain ⟨r, hr, hdist⟩ := execCalls_distance update hn (hspeed.trans hfive) hdelta
    (fun op h => (mem_callsFrom conv sort update readInput targetDelta s₀ events₁ h).imp fun _ => And.right)
    hstay hr₀
  rw [← hbase, ← hs₁, hr₁] at hr
  obtain rfl := Option.some.inj hr
  have hcast : (movesIn update id s₀.base
      (callsFrom conv sort update readInput targetDelta s₀ events₁) : ℝ) ≤ events₁.countP (·.isTick) + 1 := by
    exact_mod_cast hmoves
  calc r₀.state.distance r₁.state
      ≤ 5 * targetDelta * movesIn update id s₀.base
          (callsFrom conv sort update readInput targetDelta s₀ events₁) := hdist
    _ ≤ 5 * targetDelta * (events₁.countP (·.isTick) + 1) := mul_le_mul_of_nonneg_left hcast (by positivity)
    _ = 5 * events₁.countP (·.isTick) * targetDelta + 5 * targetDelta := by ring

noncomputable section

def realSeconds : SecondsConv ℝ where
  seconds n := n / 10 ^ 9
  toInt x := if 0 ≤ x then ⌊x⌋ else ⌈x⌉

/-- `TargetDelta` at 60 ticks per second. -/
def frameDelta : ℝ := 1 / 60

theorem frameDelta_nonneg : 0 ≤ frameDelta := by
  norm_num [frameDelta]

def exactMachine (readInput : List Char → Option (MovementInput ℝ)) :
    Machine (ConnectionServer ℝ InMemoryLeaderboardStore) (ConnectionEvent ℝ) Nat :=
  connectionMachine realSeconds (List.insertionSort fun a b => b.before a = false) (fun w l => ⟨w, l⟩)
    readInput frameDelta none

/-- Frames of a client that holds the key to the right. -/
def rightFrame (sequence : Nat) : MovementInput ℝ where
  sequence := sequence
  right := true
  mouseX := 1
  mouseY := 0

def readRight (rest : List Char) : Option (MovementInput ℝ) :=
  if rest = " 1 0 0 0 1 1 0".toList then some (rightFrame 1)
  else if rest = " 2 0 0 0 1 1 0".toList then some (rightFrame 2)
  else if rest = " 3 0 0 0 1 1 0".toList then some (rightFrame 3)
  else if rest = " 4 0 0 0 1 1 0".toList then some (rightFrame 4)
  else none

/-- `p` joins and moves, up to the first tick. -/
def joinRun : List (ConnectionEvent ℝ) :=
  [.connect, .accepted 0 true, .arrive 0 (some "input p 1 0 0 0 1 1 0"), .read 0 0,
    .tick ["p"] 1 frameDelta]

/-- One frame up to the next tick. -/
def steadyRun : List (ConnectionEvent ℝ) :=
  [.arrive 0 (some "input p 2 0 0 0 1 1 0"), .read 0 1, .tick ["p"] 2 frameDelta]

/-- Three frames up to the next tick. -/
def burstRun : List (ConnectionEvent ℝ) :=
  [.arrive 0 (some "input p 2 0 0 0 1 1 0"), .read 0 1, .arrive 0 (some "input p 3 0 0 0 1 1 0"), .read 0 2,
    .arrive 0 (some "input p 4 0 0 0 1 1 0"), .read 0 3, .tick ["p"] 2 frameDelta]

/-- The state of `p` after frames with these numbers. -/
def movedRight (sequences : List Nat) : PlayerState ℝ :=
  sequences.foldl (fun state k =>
      GameSession.new.movePlayer { state with lastSequence := k } (rightFrame k) frameDelta)
    { playerId := "p", x := Scalar.lit 0, y := Scalar.lit 0 }

theorem movedRight_place (sequences : List Nat) :
    (movedRight sequences).x = sequences.length * (1 / 12) ∧ (movedRight sequences).y = 0 := by
  induction sequences using List.reverseRecOn with
  | nil => simp [movedRight]
  | append_singleton sequences k ih =>
    have hpull : pull (rightFrame k).left (rightFrame k).right = 1 := by simp [pull, rightFrame]
    have hlevel : pull (rightFrame k).up (rightFrame k).down = 0 := by simp [pull, rightFrame]
    obtain ⟨hx, hy⟩ := movePlayer_eq .new { movedRight sequences with lastSequence := k } (rightFrame k)
      frameDelta hpull.symm hlevel.symm rfl
    have hfoot : (GameSession.new : GameSession ℝ).speedPerSecond * frameDelta = 1 / 12 := by
      norm_num [GameSession.new, kPlayerSpeed, frameDelta]
    rw [movedRight, List.foldl_concat]
    refine ⟨hx.trans ?_, hy.trans ?_⟩
    · rw [ih.1, hfoot]
      simp
      ring
    · rw [ih.2]
      simp

theorem joinRun_place : (((exactMachine readRight).run joinRun).1.base.session.players["p"]?).map (·.state) =
    some (movedRight [1]) := rfl

/-- One frame per tick stays within the cap. -/
theorem speed_capped_steady : ∃ r₀ r₁, ((exactMachine readRight).run joinRun).1.base.session.players["p"]? = some r₀ ∧
    ((exactMachine readRight).run (joinRun ++ steadyRun)).1.base.session.players["p"]? = some r₁ ∧
    r₀.state.distance r₁.state ≤ 5 * (1 : Nat) * frameDelta + 5 * frameDelta := by
  have hplace : (((exactMachine readRight).run (joinRun ++ steadyRun)).1.base.session.players["p"]?).map (·.state) =
      some (movedRight [1, 2]) := rfl
  obtain ⟨r₀, hr₀, -⟩ := Option.map_eq_some_iff.1 joinRun_place
  obtain ⟨r₁, hr₁, -⟩ := Option.map_eq_some_iff.1 hplace
  refine ⟨r₀, r₁, hr₀, hr₁, ?_⟩
  have hcalls : callsFrom realSeconds (List.insertionSort fun a b => b.before a = false) (fun w l => ⟨w, l⟩)
      readRight frameDelta ((exactMachine readRight).run joinRun).1 steadyRun =
      [.applyInput "p" (rightFrame 2) frameDelta, .broadcastState ["p"] 2 frameDelta] := rfl
  refine speed_capped realSeconds (List.insertionSort fun a b => b.before a = false) (fun w l => ⟨w, l⟩) readRight
    frameDelta_nonneg none joinRun steadyRun rfl rfl ?_ ?_ hr₀ hr₁
  · show ServerOp.removePlayer "p" ∉ callsFrom _ _ _ _ _ ((exactMachine readRight).run joinRun).1 steadyRun
    rw [hcalls]
    simp
  · show movesIn _ "p" ((exactMachine readRight).run joinRun).1.base
      (callsFrom _ _ _ _ _ ((exactMachine readRight).run joinRun).1 steadyRun) ≤ 2
    rw [hcalls]
    decide

/-- Three frames that arrive between two ticks move the player by three ticks' worth. -/
theorem burst_outruns : ∃ r₀ r₁, ((exactMachine readRight).run joinRun).1.base.session.players["p"]? = some r₀ ∧
    ((exactMachine readRight).run (joinRun ++ burstRun)).1.base.session.players["p"]? = some r₁ ∧
    burstRun.countP (·.isTick) = 1 ∧
    ¬ r₀.state.distance r₁.state ≤ 5 * (1 : Nat) * frameDelta + 5 * frameDelta := by
  have hplace : (((exactMachine readRight).run (joinRun ++ burstRun)).1.base.session.players["p"]?).map (·.state) =
      some (movedRight [1, 2, 3, 4]) := rfl
  obtain ⟨r₀, hr₀, hstate₀⟩ := Option.map_eq_some_iff.1 joinRun_place
  obtain ⟨r₁, hr₁, hstate₁⟩ := Option.map_eq_some_iff.1 hplace
  refine ⟨r₀, r₁, hr₀, hr₁, rfl, ?_⟩
  obtain ⟨hx₀, hy₀⟩ := movedRight_place [1]
  obtain ⟨hx₁, hy₁⟩ := movedRight_place [1, 2, 3, 4]
  have hdist : r₀.state.distance r₁.state = 1 / 4 := by
    rw [hstate₀, hstate₁, PlayerState.distance, hx₀, hy₀, hx₁, hy₁, sub_zero, length2_of_level (by simp)]
    norm_num
  rw [hdist]
  norm_num [frameDelta]

end

end ConnectionServer

end Portfolio.Arena
