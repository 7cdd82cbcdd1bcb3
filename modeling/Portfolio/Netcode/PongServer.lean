import Mathlib.Data.List.DropRight
import Portfolio.Netcode.SnapshotAvailability
import Portfolio.Netcode.UdpTransport

/-!
# `apps::pong_udp::PongUdpServer`

The tick handler and the input handler of the UDP Pong server. Every tick encodes the new world
state for the clients; with a room manager, every 60th tick encodes it once more with the same
generator for a checkpoint. Both intervals start together, so the second call always meets a
keyframe and changes nothing: `server_refines_stream` shows that the broadcasts are a plain
snapshot stream, and `broadcast_base_was_broadcast` follows.
-/

namespace Portfolio.Netcode
open Std

structure ClientInfo where
  endpoint : Endpoint
  side : PlayerSide := .spectator
  lastClientSeq : Nat := 0
  deriving DecidableEq, Repr

def checkpointIntervalTicks : Nat := 60

/-- The server; `roomManager` tells whether the constructor could reach Redis. -/
structure PongUdpServer (α : Type) [Scalar α] where
  world : World α := {}
  snapshotGenerator : SnapshotGenerator α := { keyframeInterval := 20, historySize := 256 }
  clients : TreeMap String ClientInfo := ∅
  leftClientKey : String := ""
  rightClientKey : String := ""
  serverTick : BitVec 32 := 0
  tickCounter : Nat := 0
  roomManager : Bool

/-- An iteration of the game loop, or an `Input` message from an endpoint. -/
inductive ServerEvent (α : Type) where
  | tick (dt : α)
  | input (endpoint : Endpoint) (clientSeq : Nat) (dy : Int)

/-- What the server hands to the transport and to Redis. -/
inductive ServerOutput (α : Type) where
  | snapshot (encoded : EncodedSnapshot) (state : WorldState α) (clients : List ClientInfo)
  | checkpoint (payload : List Byte)
  | ack (endpoint : Endpoint) (lastClientSeq : Nat) (serverTick : BitVec 32)

namespace PongUdpServer
variable {α : Type} [Scalar α] (fc : FloatCodec α)

def ensureClientLocked (s : PongUdpServer α) (endpoint : Endpoint) : PongUdpServer α × ClientInfo :=
  let key := endpointKey endpoint
  match s.clients[key]? with
  | some client => (s, { client with endpoint := endpoint })
  | none =>
    if s.leftClientKey = "" then ({ s with leftClientKey := key }, { endpoint := endpoint, side := .left })
    else if s.rightClientKey = "" then
      ({ s with rightClientKey := key }, { endpoint := endpoint, side := .right })
    else (s, { endpoint := endpoint, side := .spectator })

def handleInput (s : PongUdpServer α) (endpoint : Endpoint) (clientSeq : Nat) (dy : Int) :
    PongUdpServer α × List (ServerOutput α) :=
  let r := s.ensureClientLocked endpoint
  let client : ClientInfo := { r.2 with lastClientSeq := clientSeq }
  let s := { r.1 with clients := r.1.clients.insert (endpointKey endpoint) client }
  let direction := max (-1) (min dy 1)
  let world := if client.side = .left ∨ client.side = .right then
    s.world.setPlayerInput client.side direction else s.world
  ({ s with world := world }, [.ack client.endpoint clientSeq s.serverTick])

/-- `broadcast_snapshot`: one encoding, sent to every client. -/
def broadcastSnapshot (s : PongUdpServer α) (state : WorldState α) :
    PongUdpServer α × List (ServerOutput α) :=
  let r := s.snapshotGenerator.encode fc state
  ({ s with snapshotGenerator := r.1 }, [.snapshot r.2 state s.clients.values])

/-- The checkpoint of a tick: encode, and once more as a keyframe if that gave a delta. -/
def storeCheckpoint (s : PongUdpServer α) (state : WorldState α) :
    PongUdpServer α × List (ServerOutput α) :=
  let r := s.snapshotGenerator.encode fc state
  let r := if r.2.isKeyframe then r else r.1.encodeKeyframe fc state
  ({ s with snapshotGenerator := r.1 }, [.checkpoint r.2.payload])

/-- The tick handler of `start`. -/
def tick (s : PongUdpServer α) (dt : α) : PongUdpServer α × List (ServerOutput α) :=
  let s := { s with world := s.world.step dt }
  let state := s.world.state
  let s := { s with serverTick := .ofNat 32 state.tick }
  let b := s.broadcastSnapshot fc state
  let c := if b.1.roomManager ∧ b.1.tickCounter % checkpointIntervalTicks = 0 then
    b.1.storeCheckpoint fc state else (b.1, [])
  ({ c.1 with tickCounter := c.1.tickCounter + 1 }, b.2 ++ c.2)

end PongUdpServer

/-- The snapshots that were broadcast, with the states they encode. -/
def broadcasts {α : Type} (outs : List (ServerOutput α)) : List (EncodedSnapshot × WorldState α) :=
  outs.filterMap fun
    | .snapshot encoded state _ => some (encoded, state)
    | _ => none

/-- The world states that were broadcast. -/
def broadcastStates {α : Type} (outs : List (ServerOutput α)) : List (WorldState α) :=
  (broadcasts outs).map (·.2)

theorem broadcasts_append {α : Type} (outs outs' : List (ServerOutput α)) :
    broadcasts (outs ++ outs') = broadcasts outs ++ broadcasts outs' :=
  List.filterMap_append

section
variable {α : Type} [Scalar α] (fc : FloatCodec α)

def serverMachine (roomManager : Bool) :
    Machine (PongUdpServer α) (ServerEvent α) (ServerOutput α) where
  init := { roomManager := roomManager }
  step s
    | .tick dt => s.tick fc dt
    | .input endpoint clientSeq dy => s.handleInput endpoint clientSeq dy

/-! ### Encoding a keyframe twice -/

omit [Scalar α] in
theorem replaceState_self {state : WorldState α} {history : List (WorldState α)}
    (h : ∀ e ∈ history, e.tick = state.tick → e = state) : replaceState state history = history := by
  induction history with
  | nil => rfl
  | cons e rest ih =>
    unfold replaceState
    split
    · rename_i ht
      rw [h e List.mem_cons_self ht]
    · rw [ih fun e' he' => h e' (List.mem_cons_of_mem _ he')]

/-- After a keyframe of `state`, encoding `state` again gives the same keyframe and changes nothing. -/
theorem encode_after_keyframe {g : SnapshotGenerator α} {state : WorldState α}
    (hmem : state ∈ (g.remember state).history)
    (huniq : ∀ e ∈ (g.remember state).history, e.tick = state.tick → e = state) :
    (g.encodeKeyframe fc state).1.encode fc state = g.encodeKeyframe fc state := by
  have hemit : (g.encodeKeyframe fc state).1.shouldEmitKeyframe state = true := by
    simp [SnapshotGenerator.shouldEmitKeyframe, SnapshotGenerator.encodeKeyframe]
  have hfind : (findState (g.remember state).history state.tick).isSome = true := by
    rw [findState, List.find?_isSome]
    exact ⟨state, hmem, by simp⟩
  have hmin : (g.encodeKeyframe fc state).1.minTick state = g.minTick state := by
    simp only [SnapshotGenerator.minTick, SnapshotGenerator.encodeKeyframe, (g.remember_fields state).2.1]
  have hrem : ((g.encodeKeyframe fc state).1.remember state).history = (g.remember state).history := by
    unfold SnapshotGenerator.remember
    rw [hmin]
    unfold SnapshotGenerator.storeState SnapshotGenerator.encodeKeyframe
    dsimp only
    rw [if_pos hfind]
    dsimp only [SnapshotGenerator.pruneHistory]
    rw [replaceState_self huniq]
    exact List.dropWhile_idempotent _ _
  obtain ⟨h1, h2, -, -⟩ := (g.encodeKeyframe fc state).1.remember_fields state
  unfold SnapshotGenerator.encode
  rw [if_pos hemit]
  exact Prod.ext (SnapshotGenerator.ext h1 h2 hrem rfl rfl) rfl

omit [Scalar α] in
/-- The newest state is in the history and is the only one with its tick. -/
theorem newest_in_history {g : SnapshotGenerator α} {state : WorldState α}
    (hnew : ∀ e ∈ g.history, e.tick < state.tick) (hsize : 1 ≤ g.historySize) :
    state ∈ (g.remember state).history ∧
      ∀ e ∈ (g.remember state).history, e.tick = state.tick → e = state := by
  obtain ⟨old, hold⟩ := SnapshotGenerator.remember_keeps g.history [] state hnew rfl hsize
    (Nat.le_add_right _ _)
  refine ⟨by simp [hold], fun e he ht => ?_⟩
  rcases SnapshotGenerator.mem_remember he with h | h
  · exact h
  · have := hnew e h
    omega

/-! ### Keyframes and checkpoints are aligned -/

/-- At world tick `tick` the last keyframe lies less than 20 ticks back, at a tick `1` modulo 20. -/
def Aligned (g : SnapshotGenerator α) (tick : Nat) : Prop :=
  (g.hasKeyframe = false ∧ tick = 0) ∨
    (g.hasKeyframe = true ∧ g.lastKeyframeTick % 20 = 1 ∧ g.lastKeyframeTick ≤ tick ∧
      tick < g.lastKeyframeTick + 20)

theorem aligned_encode {g : SnapshotGenerator α} {tick : Nat} (h : Aligned g tick)
    (hint : g.keyframeInterval = 20) {state : WorldState α} (hs : state.tick = tick + 1)
    (hf : ¬ FallsBack g state) :
    Aligned (g.encode fc state).1 (tick + 1) ∧
      (tick % 20 = 0 → g.encode fc state = g.encodeKeyframe fc state) := by
  rcases g.encode_cases fc state with ⟨he, hemit | hfalls⟩ | ⟨base, hd, -, he⟩
  · rw [he]
    refine ⟨.inr ⟨rfl, ?_⟩, fun _ => rfl⟩
    simp only [SnapshotGenerator.encodeKeyframe, hs]
    rcases h with ⟨hk, rfl⟩ | ⟨hk, h1, h2, h3⟩
    · omega
    · simp only [SnapshotGenerator.shouldEmitKeyframe, hk, hs, hint, Bool.not_true, Bool.false_or,
        Bool.or_eq_true, decide_eq_true_eq] at hemit
      omega
  · exact absurd hfalls hf
  · obtain ⟨hk, hlt, hint'⟩ := SnapshotGenerator.hasKeyframe_of_delta hd
    rw [he]
    rw [hint] at hint'
    obtain ⟨-, -, hlast, hhas⟩ := g.remember_fields state
    rcases h with ⟨hk', -⟩ | ⟨-, h1, h2, h3⟩
    · rw [hk] at hk'
      cases hk'
    · refine ⟨.inr ⟨hhas.trans hk, ?_⟩, fun h20 => ?_⟩
      · rw [hlast]
        omega
      · omega

/-! ### The server -/

/-- The server after some events: its generator is the one of the stream of all broadcast states,
and the broadcasts are that stream. -/
structure ServerInv (outs : List (ServerOutput α)) (s : PongUdpServer α) : Prop where
  counter : s.tickCounter = s.world.state.tick
  ticks : (broadcastStates outs).Pairwise (·.tick < ·.tick)
  past : ∀ e ∈ broadcastStates outs, e.tick ≤ s.world.state.tick
  generator : s.snapshotGenerator = ((encodeMachine fc 20 256).run (broadcastStates outs)).1.1
  stream : broadcasts outs = (sent fc 20 256 (broadcastStates outs)).map fun p => (p.snapshot, p.state)
  aligned : Aligned s.snapshotGenerator s.world.state.tick

theorem handleInput_frame (s : PongUdpServer α) (endpoint : Endpoint) (clientSeq : Nat) (dy : Int) :
    (s.handleInput endpoint clientSeq dy).1.snapshotGenerator = s.snapshotGenerator ∧
    (s.handleInput endpoint clientSeq dy).1.tickCounter = s.tickCounter ∧
    (s.handleInput endpoint clientSeq dy).1.world.state.tick = s.world.state.tick ∧
    broadcasts (s.handleInput endpoint clientSeq dy).2 = [] := by
  have hframe : ∀ s : PongUdpServer α, ((s.ensureClientLocked endpoint).1.snapshotGenerator,
      (s.ensureClientLocked endpoint).1.tickCounter, (s.ensureClientLocked endpoint).1.world) =
      (s.snapshotGenerator, s.tickCounter, s.world) := by
    intro s
    unfold PongUdpServer.ensureClientLocked
    dsimp only
    split
    · rfl
    · split
      · rfl
      · split <;> rfl
  obtain ⟨h1, h2, h3⟩ := by simpa only [Prod.mk.injEq] using hframe s
  refine ⟨h1, h2, ?_, rfl⟩
  unfold PongUdpServer.handleInput
  dsimp only
  split
  · rw [World.setPlayerInput_tick, h3]
  · rw [h3]

/-- The checkpoint of a state that has just gone out as a keyframe leaves the server as it is. -/
theorem storeCheckpoint_after_keyframe {s : PongUdpServer α} {g : SnapshotGenerator α}
    {state : WorldState α} (hg : s.snapshotGenerator = (g.encodeKeyframe fc state).1)
    (hmem : state ∈ (g.remember state).history)
    (huniq : ∀ e ∈ (g.remember state).history, e.tick = state.tick → e = state) :
    s.storeCheckpoint fc state = (s, [.checkpoint (encodeKeyframe fc state)]) := by
  have henc := encode_after_keyframe fc hmem huniq
  rw [← hg] at henc
  unfold PongUdpServer.storeCheckpoint
  dsimp only
  have hkf : (g.encodeKeyframe fc state).2.isKeyframe = true := rfl
  rw [henc, if_pos hkf, ← hg]
  rfl

/-- A tick in which the checkpoint, if there is one, leaves the generator alone. -/
theorem tick_eq {s : PongUdpServer α} {dt : α}
    (h : s.tickCounter % checkpointIntervalTicks = 0 → ∀ s' : PongUdpServer α,
      s'.snapshotGenerator = (s.snapshotGenerator.encode fc (s.world.step dt).state).1 →
        ∃ payload, s'.storeCheckpoint fc (s.world.step dt).state = (s', [.checkpoint payload])) :
    (s.tick fc dt).1.world = s.world.step dt ∧
    (s.tick fc dt).1.tickCounter = s.tickCounter + 1 ∧
    (s.tick fc dt).1.snapshotGenerator =
      (s.snapshotGenerator.encode fc (s.world.step dt).state).1 ∧
    broadcasts (s.tick fc dt).2 =
      [((s.snapshotGenerator.encode fc (s.world.step dt).state).2, (s.world.step dt).state)] := by
  unfold PongUdpServer.tick PongUdpServer.broadcastSnapshot
  dsimp only
  split
  · rename_i hc
    obtain ⟨payload, hp⟩ := h hc.2
      { s with
        world := s.world.step dt
        serverTick := .ofNat 32 (s.world.step dt).state.tick
        snapshotGenerator := (s.snapshotGenerator.encode fc (s.world.step dt).state).1 } rfl
    rw [hp]
    exact ⟨rfl, rfl, rfl, rfl⟩
  · exact ⟨rfl, rfl, rfl, rfl⟩

theorem serverInv_tick {outs : List (ServerOutput α)} {s : PongUdpServer α} (h : ServerInv fc outs s)
    (dt : α) : ServerInv fc (outs ++ (s.tick fc dt).2) (s.tick fc dt).1 := by
  have hstate : (s.world.step dt).state.tick = s.world.state.tick + 1 := s.world.step_tick dt
  have hlt : ∀ e ∈ broadcastStates outs, e.tick < (s.world.step dt).state.tick := by
    intro e he
    rw [hstate]
    exact Nat.lt_succ_of_le (h.past e he)
  have hstream := streamInv_run fc 20 256 _ h.ticks
  have hkey := keyInv_run fc (by decide) (by decide : 20 ≤ 256) _ h.ticks
  rw [← h.generator] at hstream hkey
  obtain ⟨haligned, hemit⟩ := aligned_encode fc h.aligned hkey.interval hstate (hkey.not_fallsBack _)
  have hchk : s.tickCounter % checkpointIntervalTicks = 0 → ∀ s' : PongUdpServer α,
      s'.snapshotGenerator = (s.snapshotGenerator.encode fc (s.world.step dt).state).1 →
        ∃ payload, s'.storeCheckpoint fc (s.world.step dt).state = (s', [.checkpoint payload]) := by
    intro h60 s' hs'
    rw [h.counter, checkpointIntervalTicks] at h60
    rw [hemit (by omega)] at hs'
    obtain ⟨hmem, huniq⟩ := newest_in_history (fun e he => hlt e (hstream.history e he))
      (by rw [hkey.size]; decide)
    exact ⟨_, storeCheckpoint_after_keyframe fc hs' hmem huniq⟩
  obtain ⟨hworld, hcount, hgen, hout⟩ := tick_eq fc hchk
  have hstates : broadcastStates (outs ++ (s.tick fc dt).2) =
      broadcastStates outs ++ [(s.world.step dt).state] := by
    simp [broadcastStates, broadcasts_append, hout]
  refine ⟨?_, ?_, ?_, ?_, ?_, ?_⟩
  · rw [hcount, hworld, hstate, h.counter]
  · rw [hstates, List.pairwise_append]
    exact ⟨h.ticks, List.pairwise_singleton _ _, fun e he e' he' => by
      rw [List.mem_singleton.1 he']; exact hlt e he⟩
  · rw [hstates, hworld]
    intro e he
    rcases List.mem_append.1 he with he | he
    · exact (hlt e he).le
    · rw [List.mem_singleton.1 he]
  · rw [hstates, Machine.run_concat, hgen, h.generator]
    rfl
  · rw [hstates, sent, Machine.run_concat, List.map_append, ← sent, ← h.stream, broadcasts_append, hout,
      h.generator]
    rfl
  · rw [hgen, hworld, hstate]
    exact haligned

/-- Checkpoints or not, the broadcasts are the snapshot stream of the broadcast states. -/
theorem server_refines_stream (roomManager : Bool) (events : List (ServerEvent α)) :
    ServerInv fc ((serverMachine fc roomManager).run events).2
      ((serverMachine fc roomManager).run events).1 := by
  refine (serverMachine fc roomManager).run_inv (P := fun _ outs s => ServerInv fc outs s) ?_ ?_ events
  · exact ⟨rfl, List.Pairwise.nil, by simp [broadcastStates, broadcasts], rfl, rfl, .inl ⟨rfl, rfl⟩⟩
  · intro _ outs s event h
    cases event with
    | tick dt => exact serverInv_tick fc h dt
    | input endpoint clientSeq dy =>
      obtain ⟨h1, h2, h3, h4⟩ := handleInput_frame s endpoint clientSeq dy
      have hb : broadcasts (outs ++ (s.handleInput endpoint clientSeq dy).2) = broadcasts outs := by
        rw [broadcasts_append, h4, List.append_nil]
      simp only [serverMachine]
      refine ⟨?_, ?_, ?_, ?_, ?_, ?_⟩ <;> simp only [broadcastStates, hb, h1, h2, h3]
      exacts [h.counter, h.ticks, h.past, h.generator, h.stream, h.aligned]

/-- Every delta that is broadcast is taken against a state that was itself broadcast as a keyframe
before, and names that keyframe's tick. -/
theorem broadcast_base_was_broadcast (roomManager : Bool) (events : List (ServerEvent α))
    (pre post : List (ServerOutput α)) (encoded : EncodedSnapshot) (state : WorldState α)
    (clients : List ClientInfo)
    (hs : ((serverMachine fc roomManager).run events).2 = pre ++ .snapshot encoded state clients :: post)
    (hkf : encoded.isKeyframe = false) :
    ∃ key base clients', ServerOutput.snapshot key base clients' ∈ pre ∧ key.isKeyframe = true ∧
      key.tick = encoded.baseTick ∧ base.tick = encoded.baseTick ∧
      encoded.payload = encodeDelta fc base state := by
  have h := server_refines_stream fc roomManager events
  rw [hs] at h
  have hcut : broadcasts (pre ++ .snapshot encoded state clients :: post) =
      broadcasts pre ++ (encoded, state) :: broadcasts post := by
    rw [broadcasts_append]
    rfl
  -- the delta and its keyframe in the stream
  have hmem : (encoded, state) ∈ broadcasts (pre ++ .snapshot encoded state clients :: post) := by
    simp [hcut]
  rw [h.stream] at hmem
  obtain ⟨p, hp, hpe⟩ := List.mem_map.1 hmem
  obtain ⟨rfl, rfl⟩ := Prod.mk.inj hpe
  obtain ⟨hlt, -, q, hq, hqk, hqs⟩ :=
    (keyInv_run fc (by decide) (by decide : 20 ≤ 256) _ h.ticks).deltas p hp hkf
  have hok := (streamInv_run fc 20 256 _ h.ticks).out
  have hqmem : (q.snapshot, q.state) ∈ broadcasts pre ++ (p.snapshot, p.state) :: broadcasts post := by
    rw [← hcut, h.stream]
    exact List.mem_map.2 ⟨q, hq, rfl⟩
  -- the keyframe is older, so it was broadcast before the delta
  have hpre : (q.snapshot, q.state) ∈ broadcasts pre := by
    have ht := h.ticks
    rw [broadcastStates, hcut, List.map_append, List.map_cons, List.pairwise_append] at ht
    have hpost := List.pairwise_cons.1 ht.2.1
    rcases List.mem_append.1 hqmem with hm | hm
    · exact hm
    · rw [← hqs] at hlt
      rcases List.mem_cons.1 hm with hm | hm
      · have : q.state = p.state := congrArg Prod.snd hm
        rw [this] at hlt
        omega
      · have : p.state.tick < q.state.tick := hpost.1 q.state (List.mem_map.2 ⟨_, hm, rfl⟩)
        omega
  obtain ⟨o, ho, hoe⟩ := List.mem_filterMap.1 hpre
  have htick := ((hok q hq).1.fields fc).1
  have hbase := ((hok p hp).1.fields fc).2 hkf
  have hpayload : p.snapshot.payload = encodeDelta fc q.state p.state := by
    rcases (hok p hp).1 with ⟨-, hsnap⟩ | hsnap
    · rw [hsnap] at hkf
      cases hkf
    · rw [hsnap, hqs]
  cases o with
  | snapshot key base clients' =>
    obtain ⟨rfl, rfl⟩ := Prod.mk.inj (Option.some.inj hoe)
    exact ⟨_, _, clients', ho, hqk, by rw [htick, hqs, hbase], by rw [hqs, hbase], hpayload⟩
  | checkpoint payload => cases hoe
  | ack endpoint lastClientSeq serverTick => cases hoe

end

/-- The bits of the floats that two ticks of 1/64 s write. -/
def pongFloats : FloatCodec ℚ where
  toBits x := if x = 240 then 0x43700000#32 else if x = 380 then 0x43BE0000#32
    else if x = 6495 / 16 then 0x43CAF800#32 else if x = 95 / 16 then 0x40BE0000#32 else 0
  ofBits b := if b = 0x43700000#32 then 240 else if b = 0x43BE0000#32 then 380
    else if b = 0x43CAF800#32 then 6495 / 16 else if b = 0x40BE0000#32 then 95 / 16 else 0

/-- The server after its first tick. -/
def firstTick : PongUdpServer ℚ × List (ServerOutput ℚ) :=
  (serverMachine pongFloats true).run [.tick (1 / 64)]

theorem broadcast_base_second_tick :
    (firstTick.1.snapshotGenerator.encode pongFloats (firstTick.1.world.step (1 / 64)).state).2.isKeyframe =
      false ∧
    ∃ key base clients', ServerOutput.snapshot key base clients' ∈ firstTick.2 ∧ key.isKeyframe = true ∧
      key.tick = 1 ∧ base.tick = 1 ∧
      (firstTick.1.snapshotGenerator.encode pongFloats (firstTick.1.world.step (1 / 64)).state).2.payload =
        encodeDelta pongFloats base (firstTick.1.world.step (1 / 64)).state := by
  have hkf : (firstTick.1.snapshotGenerator.encode pongFloats
      (firstTick.1.world.step (1 / 64)).state).2.isKeyframe = false := by decide +kernel
  refine ⟨hkf, ?_⟩
  have hbase : (firstTick.1.snapshotGenerator.encode pongFloats
      (firstTick.1.world.step (1 / 64)).state).2.baseTick = 1 := by decide +kernel
  have hcheck : ¬ (firstTick.1.roomManager ∧ firstTick.1.tickCounter % checkpointIntervalTicks = 0) := by
    decide +kernel
  have hs : ((serverMachine pongFloats true).run ([.tick (1 / 64)] ++ [.tick (1 / 64)])).2 =
      firstTick.2 ++ .snapshot (firstTick.1.snapshotGenerator.encode pongFloats
        (firstTick.1.world.step (1 / 64)).state).2 (firstTick.1.world.step (1 / 64)).state
        firstTick.1.clients.values :: [] := by
    rw [Machine.run_concat]
    show firstTick.2 ++ (firstTick.1.tick pongFloats (1 / 64)).2 = _
    unfold PongUdpServer.tick PongUdpServer.broadcastSnapshot
    dsimp only
    rw [if_neg hcheck, List.append_nil]
  have := broadcast_base_was_broadcast pongFloats true _ _ [] _ _ _ hs hkf
  rwa [hbase] at this

end Portfolio.Netcode
