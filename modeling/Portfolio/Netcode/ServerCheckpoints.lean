import Portfolio.Netcode.Checkpoints
import Portfolio.Netcode.PongServer

/-!
# The checkpoints of the UDP Pong server

The server hands a keyframe to `store_checkpoint` every sixty ticks, for thirty seconds. Between its steps
come the commands of other room managers in Redis, and what `get_checkpoint` returns decodes to the world of
the last of these ticks.
-/

namespace Portfolio.Netcode
open RoomManager

/-- The UDP Pong server with its room manager, and Redis with the calls of all others. -/
structure Host (α : Type) [Scalar α] where
  server : PongUdpServer α
  store : RoomStore

inductive HostEvent (α : Type) where
  | server (event : ServerEvent α)
  | others (event : StoreEvent)

section
variable {α : Type} [Scalar α]

/-- A checkpoint goes to Redis. -/
def keepOutput (roomId : String) (store : RoomStore) : ServerOutput α → RoomStore
  | .checkpoint payload =>
    (store.exec (.call (.storeCheckpoint roomId (payload.map UInt8.ofBitVec) 30))).1
  | _ => store

variable (fc : FloatCodec α)

/-- What the server puts out is shown with its time. -/
def hostMachine (roomId : String) (start : SystemTime) :
    Machine (Host α) (HostEvent α) (SystemTime × ServerOutput α) where
  init :=
    { server := (serverMachine fc true).init
      store := ((RoomStore.exec { now := start } (.call (.registerRoom roomId "127.0.0.1:40000" 2 60))).1.exec
        (.expire 0)).1 }
  step s
    | .server event =>
      let r := (serverMachine fc true).step s.server event
      ({ server := r.1, store := r.2.foldl (keepOutput roomId) s.store }, r.2.map fun out => (s.store.now, out))
    | .others event => ({ s with store := (s.store.exec event).1 }, [])

end

/-- The states that went out at the ticks of a checkpoint, with their times. -/
def checkpointed {α : Type} (outs : List (SystemTime × ServerOutput α)) : List (SystemTime × WorldState α) :=
  outs.filterMap fun
    | (time, .snapshot _ state _) => if state.tick % checkpointIntervalTicks = 1 then some (time, state) else none
    | _ => none

/-- The other room managers do not store checkpoints under `key`, and no registration under `key` has yet to
send its `EXPIRE` when the server stores one. -/
def Host.Spares {α : Type} [Scalar α] (key : String) (s : Host α) : HostEvent α → Prop
  | .others (.call (.storeCheckpoint roomId _ _)) => checkpointKey roomId ≠ key
  | .server (.tick _) => s.server.tickCounter % checkpointIntervalTicks = 0 → s.store.Settled key
  | _ => True

instance {α : Type} [Scalar α] (key : String) (s : Host α) (event : HostEvent α) : Decidable (s.Spares key event) :=
  match event with
  | .others (.call (.storeCheckpoint roomId _ _)) => inferInstanceAs (Decidable (checkpointKey roomId ≠ key))
  | .server (.tick _) =>
    inferInstanceAs (Decidable (s.server.tickCounter % checkpointIntervalTicks = 0 → s.store.Settled key))
  | .others (.call (.registerRoom _ _ _ _)) | .others (.call (.updateRoomPlayers _ _))
  | .others (.call (.createSession _ _ _)) | .others (.call (.deleteSession _)) | .others (.expire _)
  | .others (.clock _) | .server (.input _ _ _) => isTrue trivial

section
variable {α : Type} [Scalar α] (fc : FloatCodec α)

/-- The checkpoint of `state`, as Redis holds it. -/
def checkpointOf (c : SystemTime × WorldState α) : Nat × List UInt8 :=
  (Redis.after c.1.ns 30, (encodeKeyframe fc c.2).map UInt8.ofBitVec)

def serverEvents (events : List (HostEvent α)) : List (ServerEvent α) :=
  events.filterMap fun
    | .server event => some event
    | .others _ => none

/-- The server is the one of its own events, and Redis has its last checkpoint. -/
structure Hosted (roomId : String) (events : List (ServerEvent α)) (outs : List (SystemTime × ServerOutput α))
    (s : Host α) : Prop where
  server : s.server = ((serverMachine fc true).run events).1
  outputs : outs.map Prod.snd = ((serverMachine fc true).run events).2
  holds : s.store.Holds (checkpointKey roomId) ((checkpointed outs).getLast?.map (checkpointOf fc))
  recent : ∀ n, s.server.world.state.tick = n + 1 → ∃ c, (checkpointed outs).getLast? = some c ∧
    c.2.tick % checkpointIntervalTicks = 1 ∧ c.2.tick ≤ n + 1 ∧ n + 1 < c.2.tick + checkpointIntervalTicks

theorem payload_storeCheckpoint (s : PongUdpServer α) (state : WorldState α) :
    (s.storeCheckpoint fc state).2 = [.checkpoint (encodeKeyframe fc state)] := by
  unfold PongUdpServer.storeCheckpoint
  dsimp only
  rcases s.snapshotGenerator.encode_cases fc state with ⟨he, -⟩ | ⟨base, -, -, he⟩
  · rw [he]
    rfl
  · rw [he]
    rfl

/-- What a tick puts out. -/
theorem tick_outputs (s : PongUdpServer α) (dt : α) (hmanager : s.roomManager = true) :
    ∃ encoded clients, (s.tick fc dt).2 = .snapshot encoded (s.world.step dt).state clients ::
      if s.tickCounter % checkpointIntervalTicks = 0 then [.checkpoint (encodeKeyframe fc (s.world.step dt).state)]
      else [] := by
  refine ⟨(s.snapshotGenerator.encode fc (s.world.step dt).state).2, s.clients.values, ?_⟩
  unfold PongUdpServer.tick PongUdpServer.broadcastSnapshot
  dsimp only
  by_cases hcounter : s.tickCounter % checkpointIntervalTicks = 0
  · rw [if_pos ⟨hmanager, hcounter⟩, if_pos hcounter, payload_storeCheckpoint]
    rfl
  · rw [if_neg fun h => hcounter h.2, if_neg hcounter]
    rfl

theorem roomManager_run (events : List (ServerEvent α)) :
    ((serverMachine fc true).run events).1.roomManager = true := by
  refine (serverMachine fc true).run_inv (P := fun _ _ s => s.roomManager = true) rfl (fun _ _ s event h => ?_) events
  cases event with
  | tick dt =>
    show (s.tick fc dt).1.roomManager = true
    unfold PongUdpServer.tick PongUdpServer.broadcastSnapshot PongUdpServer.storeCheckpoint
    dsimp only
    split
    · exact h
    · exact h
  | input endpoint clientSeq dy =>
    show (s.ensureClientLocked endpoint).1.roomManager = true
    unfold PongUdpServer.ensureClientLocked
    dsimp only
    split
    · exact h
    · split
      · exact h
      · split
        · exact h
        · exact h

omit [Scalar α] in
theorem checkpointed_append (outs outs' : List (SystemTime × ServerOutput α)) :
    checkpointed (outs ++ outs') = checkpointed outs ++ checkpointed outs' := List.filterMap_append

omit [Scalar α] in
theorem checkpointed_snapshot (time : SystemTime) (encoded : EncodedSnapshot) (state : WorldState α)
    (clients : List ClientInfo) (outs : List (SystemTime × ServerOutput α)) :
    checkpointed ((time, .snapshot encoded state clients) :: outs) =
      if state.tick % checkpointIntervalTicks = 1 then (time, state) :: checkpointed outs else checkpointed outs := by
  by_cases h : state.tick % checkpointIntervalTicks = 1
  · rw [if_pos h]
    exact List.filterMap_cons_some (if_pos h)
  · rw [if_neg h]
    exact List.filterMap_cons_none (if_neg h)

variable {roomId : String} {events : List (ServerEvent α)} {outs : List (SystemTime × ServerOutput α)} {s : Host α}

theorem Hosted.input (h : Hosted fc roomId events outs s) (start : SystemTime) (endpoint : Endpoint) (clientSeq : Nat)
    (dy : Int) : Hosted fc roomId (events ++ [.input endpoint clientSeq dy])
      (outs ++ ((hostMachine fc roomId start).step s (.server (.input endpoint clientSeq dy))).2)
      ((hostMachine fc roomId start).step s (.server (.input endpoint clientSeq dy))).1 := by
  obtain ⟨-, -, htick, -⟩ := handleInput_frame s.server endpoint clientSeq dy
  have hnone : checkpointed (outs ++ ((hostMachine fc roomId start).step s
      (.server (.input endpoint clientSeq dy))).2) = checkpointed outs := by
    rw [checkpointed_append]
    exact List.append_nil _
  refine ⟨?_, ?_, ?_, fun n hn => ?_⟩
  · rw [Machine.run_concat, ← h.server]
    rfl
  · rw [Machine.run_concat, List.map_append, h.outputs, ← h.server]
    rfl
  · rw [hnone]
    exact h.holds
  · rw [hnone]
    exact h.recent n (htick.symm.trans hn)

/-- A tick stores a checkpoint of its world if it is a checkpoint tick. -/
theorem Hosted.latest_tick (h : Hosted fc roomId events outs s) (start : SystemTime) (dt : α) :
    (checkpointed (outs ++ ((hostMachine fc roomId start).step s (.server (.tick dt))).2)).getLast? =
      if s.server.tickCounter % checkpointIntervalTicks = 0 then some (s.store.now, (s.server.world.step dt).state)
      else (checkpointed outs).getLast? := by
  have hinv := server_refines_stream fc true events
  have hmanager := roomManager_run fc events
  rw [← h.server] at hinv hmanager
  obtain ⟨encoded, clients, hout⟩ := tick_outputs fc s.server dt hmanager
  have hstate : (s.server.world.step dt).state.tick = s.server.world.state.tick + 1 := s.server.world.step_tick dt
  show (checkpointed (outs ++ (s.server.tick fc dt).2.map fun out => (s.store.now, out))).getLast? = _
  rw [hout, checkpointed_append, List.getLast?_append, hinv.counter, List.map_cons, checkpointed_snapshot, hstate]
  by_cases hcounter : s.server.world.state.tick % checkpointIntervalTicks = 0
  · have hone : (s.server.world.state.tick + 1) % checkpointIntervalTicks = 1 := by
      unfold checkpointIntervalTicks at hcounter ⊢
      omega
    rw [if_pos hcounter, if_pos hone, if_pos hcounter]
    rfl
  · have hone : (s.server.world.state.tick + 1) % checkpointIntervalTicks ≠ 1 := by
      unfold checkpointIntervalTicks at hcounter ⊢
      omega
    rw [if_neg hcounter, if_neg hone, if_neg hcounter]
    rfl

theorem Hosted.tick (h : Hosted fc roomId events outs s) (start : SystemTime) {dt : α}
    (hspares : s.Spares (checkpointKey roomId) (.server (.tick dt))) :
    Hosted fc roomId (events ++ [.tick dt]) (outs ++ ((hostMachine fc roomId start).step s (.server (.tick dt))).2)
      ((hostMachine fc roomId start).step s (.server (.tick dt))).1 := by
  have hinv := server_refines_stream fc true events
  have hmanager := roomManager_run fc events
  rw [← h.server] at hinv hmanager
  obtain ⟨encoded, clients, hout⟩ := tick_outputs fc s.server dt hmanager
  have hworld : (s.server.tick fc dt).1.world = s.server.world.step dt := by
    unfold PongUdpServer.tick PongUdpServer.broadcastSnapshot PongUdpServer.storeCheckpoint
    dsimp only
    split
    · rfl
    · rfl
  refine ⟨?_, ?_, ?_, fun n hn => ?_⟩
  · rw [Machine.run_concat, ← h.server]
    rfl
  · rw [Machine.run_concat, List.map_append, h.outputs, ← h.server]
    refine congrArg _ ?_
    show List.map Prod.snd (List.map _ _) = _
    rw [List.map_map]
    exact List.map_id _
  · rw [h.latest_tick]
    show ((s.server.tick fc dt).2.foldl (keepOutput roomId) s.store).Holds _ _
    rw [hout]
    split
    · next hcounter =>
      have hapart : s.store.Apart (checkpointKey roomId) (.call (.storeCheckpoint roomId
          ((encodeKeyframe fc (s.server.world.step dt).state).map UInt8.ofBitVec) 30)) := fun _ => hspares hcounter
      have hkept := h.holds.call (checkpointKey_ne_sessionKey roomId) hapart
      have hstored : stored (checkpointKey roomId) (s.store.now, .storeCheckpoint roomId
          ((encodeKeyframe fc (s.server.world.step dt).state).map UInt8.ofBitVec) 30) =
          some (checkpointOf fc (s.store.now, (s.server.world.step dt).state)) := if_pos ⟨rfl, by decide⟩
      rw [hstored, Option.some_or] at hkept
      exact hkept
    · exact h.holds
  · have hstate : (s.server.world.step dt).state.tick = s.server.world.state.tick + 1 := s.server.world.step_tick dt
    have hn' : (s.server.world.step dt).state.tick = n + 1 := (congrArg (fun w => w.state.tick) hworld).symm.trans hn
    rw [h.latest_tick, hinv.counter]
    split
    · next hcounter =>
      refine ⟨_, rfl, ?_, hn'.le, ?_⟩
      · dsimp only
        unfold checkpointIntervalTicks at hcounter ⊢
        omega
      · dsimp only
        rw [hn']
        exact Nat.lt_add_of_pos_right (by decide)
    · next hcounter =>
      obtain ⟨m, hm⟩ : ∃ m, s.server.world.state.tick = m + 1 :=
        Nat.exists_eq_succ_of_ne_zero fun hzero => hcounter (by rw [hzero]; rfl)
      obtain ⟨c, hc, hone, hle, hlt⟩ := h.recent m hm
      refine ⟨c, hc, hone, by omega, ?_⟩
      unfold checkpointIntervalTicks at *
      omega

theorem Hosted.others (h : Hosted fc roomId events outs s) {event : StoreEvent}
    (hspares : s.Spares (checkpointKey roomId) (.others event)) :
    Hosted fc roomId events outs { s with store := (s.store.exec event).1 } := by
  refine ⟨h.server, h.outputs, ?_, h.recent⟩
  cases event with
  | call call =>
    have hapart : s.store.Apart (checkpointKey roomId) (.call call) := by
      cases call with
      | storeCheckpoint other snapshot ttlSeconds => exact fun hkey => absurd hkey hspares
      | _ => trivial
    have hkept := h.holds.call (checkpointKey_ne_sessionKey roomId) hapart
    have hnone : stored (checkpointKey roomId) (s.store.now, call) = none := by
      cases call with
      | storeCheckpoint other snapshot ttlSeconds => exact if_neg fun hkey => hspares hkey.1
      | _ => rfl
    rw [hnone, Option.none_or] at hkept
    exact hkept
  | expire i => exact h.holds.expire i
  | clock time => exact h.holds.clock time

theorem hosted_run (start : SystemTime) {events : List (HostEvent α)}
    (hspares : (hostMachine fc roomId start).Along (Host.Spares (checkpointKey roomId)) events) :
    Hosted fc roomId (serverEvents events) ((hostMachine fc roomId start).run events).2
      ((hostMachine fc roomId start).run events).1 := by
  refine (hostMachine fc roomId start).run_inv_along (G := Host.Spares (checkpointKey roomId))
    (P := fun events outs s => Hosted fc roomId (serverEvents events) outs s) ?_ ?_ events hspares
  · refine ⟨rfl, rfl, ((holds_init start _).registerRoom roomId "127.0.0.1:40000" 2 60).expire 0, fun n hn => ?_⟩
    exact absurd hn (Nat.succ_ne_zero n).symm
  · intro events outs s event h hspares
    rw [serverEvents, List.filterMap_append]
    cases event with
    | server event =>
      cases event with
      | tick dt => exact h.tick fc start hspares
      | input endpoint clientSeq dy => exact h.input fc start endpoint clientSeq dy
    | others event =>
      show Hosted fc roomId (serverEvents events ++ []) (outs ++ []) _
      rw [List.append_nil, List.append_nil]
      exact h.others fc hspares

omit [Scalar α] in
theorem filter_checkpointOf (latest : Option (SystemTime × WorldState α)) (now : Nat) :
    ((latest.map (checkpointOf fc)).filter (now < ·.1)).map Prod.snd =
      (latest.filter fun c => now < Redis.after c.1.ns 30).map
        fun c => (encodeKeyframe fc c.2).map UInt8.ofBitVec := by
  cases latest with
  | none => rfl
  | some c =>
    by_cases hlive : now < Redis.after c.1.ns 30
    · simp [Option.filter, checkpointOf, hlive]
    · simp [Option.filter, checkpointOf, hlive]

theorem toBitVec_ofBitVec (bytes : List Byte) : (bytes.map UInt8.ofBitVec).map UInt8.toBitVec = bytes := by
  rw [List.map_map]
  exact List.map_id bytes

omit [Scalar α] in
theorem mem_broadcastStates {outs : List (SystemTime × ServerOutput α)} {c : SystemTime × WorldState α}
    (h : c ∈ checkpointed outs) : c.2 ∈ broadcastStates (outs.map Prod.snd) := by
  obtain ⟨⟨time, out⟩, hmem, hout⟩ := List.mem_filterMap.1 h
  cases out with
  | snapshot encoded state clients =>
    dsimp only at hout
    split at hout
    · cases hout
      exact List.mem_map.2 ⟨(encoded, state), List.mem_filterMap.2 ⟨_, List.mem_map_of_mem hmem, rfl⟩, rfl⟩
    · cases hout
  | checkpoint payload => cases hout
  | ack endpoint lastClientSeq serverTick => cases hout

theorem checkpoint_recovers (roomId : String) (start : SystemTime) {events : List (HostEvent α)}
    (hspares : (hostMachine fc roomId start).Along (Host.Spares (checkpointKey roomId)) events) :
    let run := (hostMachine fc roomId start).run events
    let found := getCheckpoint run.1.store.redis run.1.store.now.ns roomId
    let tick := run.1.server.world.state.tick
    found = ((checkpointed run.2).getLast?.filter fun c => run.1.store.now.ns < Redis.after c.1.ns 30).map
        (fun c => (encodeKeyframe fc c.2).map UInt8.ofBitVec) ∧
      (∀ bytes, found = some bytes → ∃ c, (checkpointed run.2).getLast? = some c ∧
        run.1.store.now.ns < c.1.ns + 30 * 10 ^ 9 ∧
        decodeKeyframe fc (bytes.map UInt8.toBitVec) c.2.tick = .ok (keyframeImage fc c.2)) ∧
      (0 < tick → ∃ c, (checkpointed run.2).getLast? = some c ∧ c.2 ∈ broadcastStates (run.2.map Prod.snd) ∧
        c.2.tick ≤ tick ∧ tick < c.2.tick + checkpointIntervalTicks) := by
  have h := hosted_run fc start hspares
  have hfound := h.holds.kept.getCheckpoint
  rw [filter_checkpointOf] at hfound
  refine ⟨hfound, fun bytes hbytes => ?_, fun hpos => ?_⟩
  · obtain ⟨c, hc, rfl⟩ := Option.map_eq_some_iff.1 (hfound.symm.trans hbytes)
    obtain ⟨hlast, hlive⟩ := Option.filter_eq_some_iff.1 hc
    refine ⟨c, hlast, of_decide_eq_true hlive, ?_⟩
    rw [toBitVec_ofBitVec]
    exact decodeKeyframe_encodeKeyframe fc c.2
  · obtain ⟨n, hn⟩ := Nat.exists_eq_succ_of_ne_zero hpos.ne'
    obtain ⟨c, hlast, -, hle, hlt⟩ := h.recent n hn
    exact ⟨c, hlast, mem_broadcastStates (List.mem_of_getLast? hlast), hn ▸ hle, hn ▸ hlt⟩

end

/-- A room of the name of the checkpoint is registered before it is stored, and tried to be afterwards. -/
def recovery : List (HostEvent ℚ) :=
  [.others (.call (.registerRoom "pong:checkpoint" "10.0.0.1:40000" 2 60)), .others (.expire 0),
    .server (.tick (1 / 64)), .others (.call (.registerRoom "pong:checkpoint" "10.0.0.1:40000" 2 60)),
    .others (.expire 0), .others (.clock ⟨29 * 10 ^ 9, by decide⟩)]

theorem checkpoint_recovers_recovery :
    let run := (hostMachine pongFloats "pong" ⟨0, by decide⟩).run recovery
    run.1.server.world.state.tick = 1 ∧
      ∃ c, (checkpointed run.2).getLast? = some c ∧ c.2 ∈ broadcastStates (run.2.map Prod.snd) ∧ c.2.tick ≤ 1 := by
  have hspares : (hostMachine pongFloats "pong" ⟨0, by decide⟩).Along (Host.Spares (checkpointKey "pong"))
      recovery := (Machine.along_iff_forall_lt _).2 (by decide +kernel)
  obtain ⟨-, -, hstored⟩ := checkpoint_recovers pongFloats "pong" ⟨0, by decide⟩ hspares
  have htick : ((hostMachine pongFloats "pong" ⟨0, by decide⟩).run recovery).1.server.world.state.tick = 1 := by
    decide +kernel
  obtain ⟨c, hlast, hmem, hle, -⟩ := hstored (htick ▸ Nat.one_pos)
  exact ⟨htick, c, hlast, hmem, hle.trans htick.le⟩

end Portfolio.Netcode
