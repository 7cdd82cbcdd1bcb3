import Portfolio.Netcode.NewestPrediction

/-!
# Client-side prediction

`sync::Predictor` next to the `World` that it predicts. The world keeps clamped directions and the
predictor those it is given, so a predicted state is the world's state up to clamping (`clamped`);
`physics::advance` does not tell them apart. A match is the two of them with a `Reconciler`: ticks of the
server, predictions and arrivals of snapshots in any order, snapshots being lost, repeated or late. What
holds is said for any `Scalar`, so of `double` as well.
-/

namespace Portfolio.Netcode

structure Predictor (α : Type) [Scalar α] where
  config : WorldConfig α := {}
  predicted : Option (WorldState α) := none

section
variable {α : Type} [Scalar α]

namespace Predictor

def reset (p : Predictor α) (state : WorldState α) : Predictor α := { p with predicted := some state }

/-- `none` is `std::logic_error`. -/
def predict (p : Predictor α) (tick : Nat) (dt : α) (leftDirection rightDirection : Int) :
    Option (WorldState α × Predictor α) :=
  match p.predicted with
  | none => none
  | some state =>
    let state := { state with leftDirection := leftDirection, rightDirection := rightDirection, tick := tick }
    let state := advance state p.config dt
    some (state, { p with predicted := some state })

def lastPrediction (p : Predictor α) : Option (WorldState α) := p.predicted

end Predictor

/-! ### One tick on either side -/

/-- What the players do before a tick, in order, and its length. -/
structure TickInput (α : Type) where
  inputs : List (PlayerSide × Int) := []
  dt : α

def World.setPlayerInputs (world : World α) (inputs : List (PlayerSide × Int)) : World α :=
  inputs.foldl (fun world input => world.setPlayerInput input.1 input.2) world

def World.play (world : World α) (t : TickInput α) : World α := (world.setPlayerInputs t.inputs).step t.dt

/-- The direction that a side holds after `inputs`, as it was sent. -/
def held (side : PlayerSide) (direction : Int) (inputs : List (PlayerSide × Int)) : Int :=
  inputs.foldl (fun direction input => if input.1 = side then input.2 else direction) direction

/-- The client predicts the tick after its last prediction, from what is held. -/
def Predictor.play (p : Predictor α) (t : TickInput α) : Option (WorldState α × Predictor α) :=
  match p.lastPrediction with
  | none => none
  | some state => p.predict (state.tick + 1) t.dt (held .left state.leftDirection t.inputs)
      (held .right state.rightDirection t.inputs)

/-! ### States up to clamping -/

def clampInput (direction : Int) : Int := max (-1) (min direction 1)

theorem clampInput_idem (direction : Int) : clampInput (clampInput direction) = clampInput direction := by
  unfold clampInput
  omega

theorem clampDirection_clampInput (direction : Int) :
    (clampDirection (clampInput direction) : α) = clampDirection direction := by
  unfold clampDirection clampInput
  rcases lt_trichotomy direction 0 with h | rfl | h
  · rw [if_neg (by omega), if_pos (by omega), if_neg (by omega), if_pos h]
  · rfl
  · rw [if_pos (by omega), if_pos h]

/-- Another tick number, and other values for the directions. -/
def WorldState.relabel {α : Type} (tick : Nat → Nat) (direction : Int → Int) (s : WorldState α) : WorldState α :=
  { s with
    tick := tick s.tick
    leftDirection := direction s.leftDirection
    rightDirection := direction s.rightDirection }

/-- The state with the directions that a world would hold. -/
def WorldState.clamped {α : Type} (s : WorldState α) : WorldState α := s.relabel id clampInput

section
variable (tick : Nat → Nat) (direction : Int → Int) (s : WorldState α) (config : WorldConfig α) (dt : α)

theorem bounceWalls_relabel :
    bounceWalls (s.relabel tick direction) config = (bounceWalls s config).relabel tick direction := by
  simp only [bounceWalls, apply_ite (WorldState.relabel tick direction)]
  rfl

theorem bounceLeft_relabel :
    bounceLeft (s.relabel tick direction) config = (bounceLeft s config).relabel tick direction := by
  simp only [bounceLeft, apply_ite (WorldState.relabel tick direction)]
  rfl

theorem bounceRight_relabel :
    bounceRight (s.relabel tick direction) config = (bounceRight s config).relabel tick direction := by
  simp only [bounceRight, apply_ite (WorldState.relabel tick direction)]
  rfl

theorem scorePoint_relabel :
    scorePoint (s.relabel tick direction) config = (scorePoint s config).relabel tick direction := by
  simp only [scorePoint, apply_ite (WorldState.relabel tick direction)]
  rfl

/-- The physics reads no tick, and of a direction only its sign. -/
theorem advance_relabel (h : ∀ d, (clampDirection (direction d) : α) = clampDirection d) :
    advance (s.relabel tick direction) config dt = (advance s config dt).relabel tick direction := by
  have hpaddles : movePaddles (s.relabel tick direction) config dt =
      (movePaddles s config dt).relabel tick direction := by
    simp only [movePaddles, movePaddle, WorldState.relabel, h]
  have hball : ∀ s : WorldState α, moveBall (s.relabel tick direction) dt =
      (moveBall s dt).relabel tick direction := fun _ => rfl
  simp only [advance, hpaddles, hball, bounceWalls_relabel, bounceLeft_relabel, bounceRight_relabel,
    scorePoint_relabel]

theorem advance_clamped : advance s.clamped config dt = (advance s config dt).clamped :=
  advance_relabel id clampInput s config dt clampDirection_clampInput

end

/-- The predictor is where the world is. -/
structure Follows (p : Predictor α) (world : World α) : Prop where
  config : p.config = world.config
  state : ∃ s, p.predicted = some s ∧ s.clamped = world.state

/-- The state with what the sides hold after `inputs`. -/
def WorldState.holding {α : Type} (s : WorldState α) (inputs : List (PlayerSide × Int)) : WorldState α :=
  { s with
    leftDirection := held .left s.leftDirection inputs
    rightDirection := held .right s.rightDirection inputs }

theorem World.setPlayerInputs_config (world : World α) (inputs : List (PlayerSide × Int)) :
    (world.setPlayerInputs inputs).config = world.config := by
  induction inputs generalizing world with
  | nil => rfl
  | cons input inputs ih =>
    refine (ih (world.setPlayerInput input.1 input.2)).trans ?_
    cases input.1 <;> rfl

theorem World.play_config (world : World α) (t : TickInput α) : (world.play t).config = world.config :=
  world.setPlayerInputs_config t.inputs

theorem setPlayerInputs_holding (world : World α) (inputs : List (PlayerSide × Int)) {s : WorldState α}
    (h : s.clamped = world.state) : (world.setPlayerInputs inputs).state = (s.holding inputs).clamped := by
  induction inputs generalizing world s with
  | nil => exact h.symm
  | cons input inputs ih =>
    obtain ⟨side, direction⟩ := input
    cases side with
    | left =>
      refine ih (world.setPlayerInput .left direction) (s := { s with leftDirection := direction }) ?_
      rw [World.setPlayerInput, ← h]
      rfl
    | right =>
      refine ih (world.setPlayerInput .right direction) (s := { s with rightDirection := direction }) ?_
      rw [World.setPlayerInput, ← h]
      rfl
    | spectator => exact ih world h

/-- A prediction of the tick that the world plays is the world's state. -/
theorem Follows.play {p : Predictor α} {world : World α} (h : Follows p world) (t : TickInput α) :
    ∃ s, p.play t = some (s, p.reset s) ∧ s.clamped = (world.play t).state ∧
      Follows (p.reset s) (world.play t) := by
  obtain ⟨s, hs, hclamped⟩ := h.state
  have hconfig := world.setPlayerInputs_config t.inputs
  have hstate := setPlayerInputs_holding world t.inputs hclamped
  have hplay : p.play t = some (advance ((s.holding t.inputs).relabel (· + 1) id) p.config t.dt,
      p.reset (advance ((s.holding t.inputs).relabel (· + 1) id) p.config t.dt)) := by
    unfold Predictor.play Predictor.lastPrediction Predictor.predict
    rw [hs]
    rfl
  have hshown : (advance ((s.holding t.inputs).relabel (· + 1) id) p.config t.dt).clamped =
      (world.play t).state := by
    rw [advance_relabel (· + 1) id _ _ _ fun _ => rfl, World.play, World.step, hstate, hconfig, ← h.config,
      advance_clamped]
    rfl
  refine ⟨_, hplay, hshown, ⟨?_, _, rfl, hshown⟩⟩
  exact h.config.trans hconfig.symm

/-! ### Predicting ahead -/

def World.playAll (world : World α) (ts : List (TickInput α)) : World α := ts.foldl World.play world

/-- The states after each of the ticks. -/
def World.states (world : World α) : List (TickInput α) → List (WorldState α)
  | [] => []
  | t :: ts => (world.play t).state :: (world.play t).states ts

def Predictor.playAll (p : Predictor α) : List (TickInput α) → Option (List (WorldState α) × Predictor α)
  | [] => some ([], p)
  | t :: ts => match p.play t with
    | none => none
    | some (state, p) => (p.playAll ts).map fun r => (state :: r.1, r.2)

theorem follows_reset {p : Predictor α} {world : World α} (hconfig : p.config = world.config)
    (h : world.state.clamped = world.state) : Follows (p.reset world.state) world :=
  ⟨hconfig, world.state, rfl, h⟩

/-- What a world holds is clamped. -/
theorem Follows.clamped {p : Predictor α} {world : World α} (h : Follows p world) :
    world.state.clamped = world.state := by
  obtain ⟨s, -, hs⟩ := h.state
  rw [← hs]
  simp only [WorldState.clamped, WorldState.relabel, clampInput_idem]
  rfl

theorem Follows.playAll {p : Predictor α} {world : World α} (h : Follows p world) (ts : List (TickInput α)) :
    ∃ predictions p', p.playAll ts = some (predictions, p') ∧ predictions.map WorldState.clamped = world.states ts ∧
      Follows p' (world.playAll ts) := by
  induction ts generalizing p world with
  | nil => exact ⟨[], p, rfl, rfl, h⟩
  | cons t ts ih =>
    obtain ⟨s, hplay, hs, hfollows⟩ := h.play t
    obtain ⟨predictions, p', hall, hmap, hend⟩ := ih hfollows
    refine ⟨s :: predictions, p', ?_, ?_, hend⟩
    · rw [Predictor.playAll, hplay]
      dsimp only
      rw [hall]
      rfl
    · rw [List.map_cons, hs, hmap]
      rfl

theorem World.playAll_config (world : World α) (ts : List (TickInput α)) :
    (world.playAll ts).config = world.config := by
  induction ts generalizing world with
  | nil => rfl
  | cons t ts ih => exact (ih (world.play t)).trans (world.play_config t)

theorem follows_start : Follows (({} : Predictor α).reset ({} : World α).state) ({} : World α) :=
  follows_reset rfl rfl

/-- A predictor that is put on the state of any tick of the server and told what the players do then gives
the states of the server, but for directions that it does not clamp. -/
theorem predictions_exact (before ts : List (TickInput α)) :
    ∃ predictions p, (({} : Predictor α).reset (({} : World α).playAll before).state).playAll ts =
        some (predictions, p) ∧
      predictions.map WorldState.clamped = (({} : World α).playAll before).states ts := by
  obtain ⟨_, _, _, _, hbefore⟩ := (follows_start : Follows _ ({} : World α)).playAll before
  have hstart := @follows_reset α _ {} _ (World.playAll_config {} before).symm hbefore.clamped
  obtain ⟨predictions, p, hplay, hmap, -⟩ := hstart.playAll ts
  exact ⟨predictions, p, hplay, hmap⟩

/-! ### A match -/

/-- The server, the states it has sent, and the client. -/
structure PredictedMatch (α : Type) [Scalar α] where
  world : World α := {}
  sent : List (WorldState α) := []
  predictor : Predictor α := ({} : Predictor α).reset ({} : World α).state
  reconciler : Reconciler α := {}

inductive MatchEvent where
  | serverTick
  | clientTick
  /-- The snapshot of this place among those sent arrives. -/
  | arrive (k : Nat)

/-- `schedule n` is what the players do before tick `n + 1`. -/
def matchMachine (hypot : α → α → α) (historySize : Nat) (epsilon : α) (schedule : Nat → TickInput α) :
    Machine (PredictedMatch α) MatchEvent (ReconciliationResult α) where
  init := { reconciler := { historySize := historySize, epsilon := epsilon } }
  step m
    | .serverTick =>
      let world := m.world.play (schedule m.world.state.tick)
      ({ m with world := world, sent := m.sent ++ [world.state] }, [])
    | .clientTick => match m.predictor.lastPrediction with
      | none => (m, [])
      | some last => match m.predictor.play (schedule last.tick) with
        | none => (m, [])
        | some (state, predictor) =>
          ({ m with predictor := predictor, reconciler := m.reconciler.recordPrediction state }, [])
    | .arrive k => match m.sent[k]? with
      | none => (m, [])
      | some authoritative =>
        let (result, reconciler) := m.reconciler.reconcile hypot authoritative
        ({ m with reconciler := reconciler }, [result])

/-- The world after `n` ticks of the schedule. -/
def worldAt (schedule : Nat → TickInput α) : Nat → World α
  | 0 => {}
  | n + 1 => (worldAt schedule n).play (schedule n)

variable {schedule : Nat → TickInput α} {hypot : α → α → α} {historySize : Nat} {epsilon : α}

theorem World.setPlayerInputs_tick (world : World α) (inputs : List (PlayerSide × Int)) :
    (world.setPlayerInputs inputs).state.tick = world.state.tick := by
  induction inputs generalizing world with
  | nil => rfl
  | cons input inputs ih =>
    exact (ih (world.setPlayerInput input.1 input.2)).trans (world.setPlayerInput_tick input.1 input.2)

theorem worldAt_tick (schedule : Nat → TickInput α) (n : Nat) : (worldAt schedule n).state.tick = n := by
  induction n with
  | zero => rfl
  | succ n ih =>
    rw [worldAt, World.play, World.step_tick, World.setPlayerInputs_tick, ih]

/-- Everybody is on the same course, at different ticks. -/
structure InStep (schedule : Nat → TickInput α) (epsilon : α) (m : PredictedMatch α) : Prop where
  world : m.world = worldAt schedule m.world.state.tick
  sent : ∀ s ∈ m.sent, s = (worldAt schedule s.tick).state
  predictor : ∃ n, Follows m.predictor (worldAt schedule n)
  history : ∀ s ∈ m.reconciler.history, s.clamped = (worldAt schedule s.tick).state
  epsilon : m.reconciler.epsilon = epsilon

theorem InStep.serverTick {m : PredictedMatch α} (h : InStep schedule epsilon m) :
    InStep schedule epsilon { m with
      world := m.world.play (schedule m.world.state.tick)
      sent := m.sent ++ [(m.world.play (schedule m.world.state.tick)).state] } := by
  have hplay : m.world.play (schedule m.world.state.tick) = worldAt schedule (m.world.state.tick + 1) := by
    rw [worldAt, ← h.world]
  have hnext : m.world.play (schedule m.world.state.tick) =
      worldAt schedule (m.world.play (schedule m.world.state.tick)).state.tick := by
    rw [hplay, worldAt_tick]
  refine { h with world := hnext, sent := fun s hs => ?_ }
  rcases List.mem_append.1 hs with hs | hs
  · exact h.sent s hs
  · rw [List.mem_singleton.1 hs]
    exact congrArg World.state hnext

theorem InStep.clientTick {m : PredictedMatch α} (h : InStep schedule epsilon m) :
    ∃ last state, m.predictor.lastPrediction = some last ∧
      m.predictor.play (schedule last.tick) = some (state, m.predictor.reset state) ∧
      InStep schedule epsilon { m with
        predictor := m.predictor.reset state
        reconciler := m.reconciler.recordPrediction state } := by
  obtain ⟨n, hfollows⟩ := h.predictor
  obtain ⟨last, hlast, hclamped⟩ := hfollows.state
  have htick : last.tick = n := (congrArg WorldState.tick hclamped).trans (worldAt_tick schedule n)
  obtain ⟨state, hplay, hstate, hnext⟩ := hfollows.play (schedule n)
  have hstatetick : state.tick = n + 1 := (congrArg WorldState.tick hstate).trans (worldAt_tick schedule (n + 1))
  refine ⟨last, state, hlast, by rw [htick, hplay], ?_⟩
  refine { h with predictor := ⟨n + 1, hnext⟩, history := fun s hs => ?_ }
  have hmem : s ∈ m.reconciler.history ++ [state] := by
    dsimp only at hs
    rw [Reconciler.recordPrediction_history] at hs
    exact List.mem_of_mem_drop hs
  rcases List.mem_append.1 hmem with hs | hs
  · exact h.history s hs
  · rw [List.mem_singleton.1 hs, hstatetick]
    exact hstate

/-- A snapshot is told from no prediction of its tick. -/
theorem InStep.positionError_eq {m : PredictedMatch α} (h : InStep schedule epsilon m) {s a : WorldState α}
    (hs : s ∈ m.reconciler.history) (ha : a ∈ m.sent) (htick : s.tick = a.tick) :
    positionError hypot s a = positionError hypot a a := by
  have hsame : s.clamped = a := by rw [h.history s hs, htick, ← h.sent a ha]
  have herror : positionError hypot s.clamped a = positionError hypot s a := rfl
  rw [← herror, hsame]

theorem InStep.arrive {m : PredictedMatch α} (h : InStep schedule epsilon m)
    (hself : ∀ s : WorldState α, ¬ epsilon < positionError hypot s s) {a : WorldState α} (ha : a ∈ m.sent) :
    (m.reconciler.reconcile hypot a).1.correctedTicks = 0 ∧
      InStep schedule epsilon { m with reconciler := (m.reconciler.reconcile hypot a).2 } := by
  have hhistory : ∀ s ∈ (m.reconciler.reconcile hypot a).2.history, s.clamped = (worldAt schedule s.tick).state :=
    fun s hs => h.history s ((Reconciler.reconcile_sublist hypot m.reconciler a).subset hs)
  have hepsilon : (m.reconciler.reconcile hypot a).2.epsilon = epsilon := by
    rw [← h.epsilon]
    unfold Reconciler.reconcile
    cases m.reconciler.findIndex a.tick <;> rfl
  refine ⟨?_, { h with history := hhistory, epsilon := hepsilon }⟩
  unfold Reconciler.reconcile
  cases hindex : m.reconciler.findIndex a.tick with
  | none => rfl
  | some index =>
    have htick : (m.reconciler.history.get index).tick = a.tick :=
      beq_iff_eq.1 (List.findFinIdx?_eq_some_iff.1 hindex).1
    have herror : positionError hypot (m.reconciler.history.get index) a = positionError hypot a a :=
      h.positionError_eq (List.get_mem ..) ha htick
    dsimp only
    rw [herror, h.epsilon, if_neg (hself a)]

theorem inStep_run (schedule : Nat → TickInput α) (historySize : Nat)
    (hself : ∀ s : WorldState α, ¬ epsilon < positionError hypot s s) (events : List MatchEvent) :
    (∀ result ∈ ((matchMachine hypot historySize epsilon schedule).run events).2, result.correctedTicks = 0) ∧
      InStep schedule epsilon ((matchMachine hypot historySize epsilon schedule).run events).1 := by
  refine (matchMachine hypot historySize epsilon schedule).run_inv
    (P := fun _ results m => (∀ result ∈ results, result.correctedTicks = 0) ∧ InStep schedule epsilon m) ?_ ?_ events
  · refine ⟨fun _ hmem => absurd hmem List.not_mem_nil, ⟨rfl, ?_, ⟨0, follows_start⟩, ?_, rfl⟩⟩
    · exact fun _ hmem => absurd hmem List.not_mem_nil
    · exact fun _ hmem => absurd hmem List.not_mem_nil
  · rintro - results m event ⟨hresults, h⟩
    cases event with
    | serverTick => exact ⟨by simpa [matchMachine] using hresults, h.serverTick⟩
    | clientTick =>
      obtain ⟨last, state, hlast, hplay, hnext⟩ := h.clientTick
      simp only [matchMachine, hlast, hplay, List.append_nil]
      exact ⟨hresults, hnext⟩
    | arrive k =>
      cases hsent : m.sent[k]? with
      | none =>
        simp only [matchMachine, hsent, List.append_nil]
        exact ⟨hresults, h⟩
      | some a =>
        obtain ⟨hzero, hnext⟩ := h.arrive hself (List.mem_of_getElem? hsent)
        simp only [matchMachine, hsent]
        refine ⟨fun result hmem => ?_, hnext⟩
        rcases List.mem_append.1 hmem with hmem | hmem
        · exact hresults result hmem
        · rw [List.mem_singleton.1 hmem]
          exact hzero

/-- While both sides are told the same of each tick, in whatever order ticks, predictions and snapshots
come, no snapshot corrects the client, and what it still remembers are states of the server. -/
theorem no_corrections (schedule : Nat → TickInput α) (historySize : Nat)
    (hself : ∀ s : WorldState α, ¬ epsilon < positionError hypot s s) (events : List MatchEvent) :
    (∀ result ∈ ((matchMachine hypot historySize epsilon schedule).run events).2, result.correctedTicks = 0) ∧
      (∃ n, (((matchMachine hypot historySize epsilon schedule).run events).1.predictor.lastPrediction).map
        WorldState.clamped = some (worldAt schedule n).state) ∧
      ∀ s ∈ ((matchMachine hypot historySize epsilon schedule).run events).1.reconciler.history,
        s.clamped = (worldAt schedule s.tick).state := by
  obtain ⟨hzero, h⟩ := inStep_run schedule historySize hself events
  obtain ⟨n, hfollows⟩ := h.predictor
  obtain ⟨s, hs, hclamped⟩ := hfollows.state
  refine ⟨hzero, ⟨n, ?_⟩, h.history⟩
  rw [Predictor.lastPrediction, hs, Option.map_some, hclamped]

end

/-! ### Example -/

theorem positionError_distance_self (s : WorldState ℚ) : ¬ 1 / 2 < positionError Reconciler.distance s s := by
  have hzero : positionError Reconciler.distance s s = 0 := by
    simp [positionError, Reconciler.distance, Scalar.max, Scalar.abs, Scalar.sqrt, Rat.sqrt]
  rw [hzero]
  decide +kernel

/-- The client is a tick ahead, and the second snapshot overtakes the first. -/
def overtaking : List MatchEvent := [.clientTick, .serverTick, .clientTick, .serverTick, .arrive 1, .arrive 0]

theorem no_corrections_overtaking :
    let run := (matchMachine Reconciler.distance 120 (1 / 2) fun _ => ⟨[(.left, 5)], 1 / 60⟩).run overtaking
    run.2.map (fun result => result.correctedTicks) = [0, 0] ∧
      (∀ result ∈ run.2, result.correctedTicks = 0) ∧
      ∃ n, run.1.predictor.lastPrediction.map WorldState.clamped =
        some (worldAt (fun _ => ⟨[(.left, 5)], 1 / 60⟩) n).state := by
  obtain ⟨hzero, hpredicted, -⟩ :=
    no_corrections (fun _ => ⟨[(.left, 5)], 1 / 60⟩) 120 positionError_distance_self overtaking
  exact ⟨by decide +kernel, hzero, hpredicted⟩

end Portfolio.Netcode
