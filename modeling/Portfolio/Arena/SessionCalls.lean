import Portfolio.Arena.ConnectionRuns
import Portfolio.Arena.SessionRuns

/-!
# The calls on the session

What the handlers of the arena server do to the game session are calls of `UpsertPlayer`,
`RemovePlayer`, `ApplyInput` and the broadcast of a tick; `calls` lists those of one step, and a run of
the server is a run of its calls (`base_run`). A player's body, which is its place and the time of its
last shot, changes only by calls for this player.
-/

namespace Portfolio.Arena
open Std

namespace ConnectionServer
variable {α β : Type}

/-- The call of `Stop`. -/
def stopCalls (s : ConnectionServer α β) (c : Nat) : List (ServerOp α) :=
  match s.heap c with
  | none => []
  | some client => if client.closed || client.playerId = "" then [] else [.removePlayer client.playerId]

/-- The calls of `RegisterClient`. -/
def registerCalls (s : ConnectionServer α β) (playerId : String) : List (ServerOp α) :=
  (match s.previous playerId with
    | none => []
    | some d => s.stopCalls d) ++ [.upsertPlayer playerId]

/-- The calls of `OnRead` for a frame that was parsed. -/
def frameCalls (targetDelta : α) (s : ConnectionServer α β) (c : Nat) (playerId : String)
    (input : MovementInput α) : List (ServerOp α) :=
  if s.playerId c = "" then
    let s := s.setClient c (ClientSession.setPlayerId playerId)
    s.registerCalls playerId ++ [.applyInput (s.playerId c) input targetDelta]
  else [.applyInput (s.playerId c) input targetDelta]

def readCalls (readInput : List Char → Option (MovementInput α)) (targetDelta : α)
    (s : ConnectionServer α β) (c : Nat) : List (ServerOp α) :=
  match s.heap c with
  | none => []
  | some client => match client.read with
    | .completed none => (s.setClient c (ClientSession.setRead .idle)).stopCalls c
    | .completed (some data) => match parseInputFrame readInput data with
      | none => []
      | some (playerId, input) => s.frameCalls targetDelta c playerId input
    | _ => []

def acceptCalls (s : ConnectionServer α β) (c : Nat) (ok : Bool) : List (ServerOp α) :=
  match s.heap c with
  | none => []
  | some client => match client.read with
    | .accepting => if ok then [] else (s.setClient c (ClientSession.setRead .idle)).stopCalls c
    | _ => []

def writeCalls (s : ConnectionServer α β) (c : Nat) (ok : Bool) : List (ServerOp α) :=
  match s.heap c with
  | none => []
  | some client =>
    if !client.writePending then []
    else if ok then []
    else (s.setClient c fun client => { client with writePending := false }).stopCalls c

/-- The calls of one step. -/
def calls (readInput : List Char → Option (MovementInput α)) (targetDelta : α) (s : ConnectionServer α β)
    (event : ConnectionEvent α) : List (ServerOp α) :=
  if s.down then []
  else match event with
    | .accepted c ok => s.acceptCalls c ok
    | .read c _ => s.readCalls readInput targetDelta c
    | .written c ok => s.writeCalls c ok
    | .tick order tick dt => [.broadcastState order tick dt]
    | .connect | .arrive _ _ | .runPosted _ | .matching _ => []

/-- The calls that the handler of `event` may make: ids to join are words of a frame, and inputs are
applied for `targetDelta`. -/
inductive CallOf (targetDelta : α) (event : ConnectionEvent α) : ServerOp α → Prop
  | upsertPlayer {id : String} (named : id ≠ "") : CallOf targetDelta event (.upsertPlayer id)
  | removePlayer (id : String) : CallOf targetDelta event (.removePlayer id)
  | applyInput (id : String) (input : MovementInput α) :
    CallOf targetDelta event (.applyInput id input targetDelta)
  | broadcastState {order : List String} {tick : Nat} {dt : α} (ticked : event = .tick order tick dt) :
    CallOf targetDelta event (.broadcastState order tick dt)

section
variable {targetDelta : α} {s : ConnectionServer α β} {event : ConnectionEvent α} {op : ServerOp α}

theorem mem_stopCalls {c : Nat} (h : op ∈ s.stopCalls c) : CallOf targetDelta event op := by
  unfold stopCalls at h
  split at h
  · cases h
  · split at h
    · cases h
    · rw [List.mem_singleton.1 h]
      exact .removePlayer _

theorem mem_frameCalls {c : Nat} {id : String} (hid : id ≠ "") {input : MovementInput α}
    (h : op ∈ s.frameCalls targetDelta c id input) : CallOf targetDelta event op := by
  unfold frameCalls registerCalls at h
  split at h
  · rcases List.mem_append.1 h with h | h
    · rcases List.mem_append.1 h with h | h
      · split at h
        · cases h
        · exact mem_stopCalls h
      · rw [List.mem_singleton.1 h]
        exact .upsertPlayer hid
    · rw [List.mem_singleton.1 h]
      exact .applyInput _ _
  · rw [List.mem_singleton.1 h]
    exact .applyInput _ _

theorem mem_calls {readInput : List Char → Option (MovementInput α)}
    (h : op ∈ s.calls readInput targetDelta event) : CallOf targetDelta event op := by
  unfold calls at h
  split at h
  · cases h
  · cases event with
    | connect => cases h
    | arrive c result => cases h
    | runPosted c => cases h
    | matching now => cases h
    | tick order tick dt =>
      rw [List.mem_singleton.1 h]
      exact .broadcastState rfl
    | accepted c ok =>
      change op ∈ s.acceptCalls c ok at h
      unfold acceptCalls at h
      split at h
      · cases h
      · split at h
        · split at h
          · cases h
          · exact mem_stopCalls h
        · cases h
    | written c ok =>
      change op ∈ s.writeCalls c ok at h
      unfold writeCalls at h
      split at h
      · cases h
      · split at h
        · cases h
        · split at h
          · cases h
          · exact mem_stopCalls h
    | read c now =>
      change op ∈ s.readCalls readInput targetDelta c at h
      unfold readCalls at h
      split at h
      · cases h
      · split at h
        · exact mem_stopCalls h
        · split at h
          · cases h
          · rename_i hparse
            exact mem_frameCalls (parseInputFrame_ne_empty hparse) h
        · cases h

end

/-! ### A run is a run of its calls -/

section
variable [Scalar α] [LeaderboardStore β] (update : Int → Int → EloRatingUpdate)

/-- The server after calls. -/
def execCalls (base : WebSocketServer α β) (ops : List (ServerOp α)) : WebSocketServer α β :=
  ops.foldl (fun base op => (op.exec update base).1) base

theorem execCalls_append (base : WebSocketServer α β) (ops ops' : List (ServerOp α)) :
    execCalls update base (ops ++ ops') = execCalls update (execCalls update base ops) ops' :=
  List.foldl_append

theorem base_unregisterClient (s : ConnectionServer α β) (id : String) :
    (s.unregisterClient id).base = execCalls update s.base [.removePlayer id] := by
  unfold unregisterClient
  dsimp only
  split <;> rfl

theorem base_stop (s : ConnectionServer α β) (c : Nat) :
    (s.stop c).base = execCalls update s.base (s.stopCalls c) := by
  unfold stop stopCalls
  cases s.heap c with
  | none => rfl
  | some client =>
    dsimp only
    by_cases hclosed : client.closed = true
    · simp [hclosed, execCalls]
    · by_cases hid : client.playerId = ""
      · simp [hclosed, hid, execCalls, setClient]
      · rw [if_neg hclosed, if_neg hid, base_unregisterClient update]
        simp [hclosed, hid, setClient]

theorem base_registerClient (now : Int) (s : ConnectionServer α β) (id : String) (c : Nat) :
    (s.registerClient now id c).base = execCalls update s.base (s.registerCalls id) := by
  have hstop : (s.stopPrevious id).base = execCalls update s.base (match s.previous id with
      | none => []
      | some d => s.stopCalls d) := by
    unfold stopPrevious
    cases s.previous id with
    | none => rfl
    | some d => exact base_stop update s d
  rw [registerCalls, execCalls_append, ← hstop]
  rfl

theorem base_applyInput (targetDelta : α) (s : ConnectionServer α β) (c : Nat) (input : MovementInput α) :
    (s.applyInput targetDelta c input).base =
      execCalls update s.base [.applyInput (s.playerId c) input targetDelta] := by
  unfold applyInput
  dsimp only
  split <;> rfl

omit [Scalar α] [LeaderboardStore β] in
theorem playerId_stop (s : ConnectionServer α β) (c d : Nat) : (s.stop d).playerId c = s.playerId c := by
  have hclose : (s.setClient d ClientSession.close).playerId c = s.playerId c := by
    unfold playerId setClient
    dsimp only
    by_cases h : c = d
    · subst h
      rw [Function.update_self]
      cases s.heap c with
      | none => rfl
      | some client => rfl
    · rw [Function.update_of_ne h]
  unfold stop
  split
  · rfl
  · split
    · rfl
    · dsimp only
      split
      · exact hclose
      · rw [← hclose]
        unfold unregisterClient
        dsimp only
        split <;> rfl

omit [LeaderboardStore β] in
theorem playerId_registerClient (now : Int) (s : ConnectionServer α β) (id : String) (c d : Nat) :
    (s.registerClient now id d).playerId c = s.playerId c := by
  show (s.stopPrevious id).playerId c = s.playerId c
  unfold stopPrevious
  split
  · rfl
  · exact playerId_stop s c _

theorem base_onRead (readInput : List Char → Option (MovementInput α)) (targetDelta : α) (now : Int)
    (s : ConnectionServer α β) (c : Nat) (data : String) :
    (s.onRead readInput targetDelta now c data).base =
      execCalls update s.base (match parseInputFrame readInput data with
        | none => []
        | some (playerId, input) => s.frameCalls targetDelta c playerId input) := by
  unfold onRead
  cases parseInputFrame readInput data with
  | none => rfl
  | some frame =>
    obtain ⟨id, input⟩ := frame
    dsimp only
    rw [base_applyInput update]
    unfold identify frameCalls
    split
    · dsimp only
      rw [base_registerClient update, playerId_registerClient, ← execCalls_append]
      rfl
    · rfl

theorem base_exec (conv : SecondsConv α) (sort : List QueuedPlayer → List QueuedPlayer)
    (readInput : List Char → Option (MovementInput α)) (targetDelta : α) {s : ConnectionServer α β}
    (hdown : s.down = false) (event : ConnectionEvent α) :
    (s.exec conv sort update readInput targetDelta event).base =
      execCalls update s.base (s.calls readInput targetDelta event) := by
  unfold calls
  rw [if_neg (by simp [hdown])]
  cases event with
  | connect => rfl
  | arrive c result => rfl
  | runPosted c => rfl
  | matching now => rfl
  | tick order tick dt => rfl
  | accepted c ok =>
    show (s.handleAccept c ok).base = execCalls update s.base (s.acceptCalls c ok)
    unfold handleAccept acceptCalls
    cases s.heap c with
    | none => rfl
    | some client =>
      dsimp only
      cases client.read with
      | accepting =>
        cases ok with
        | true => rfl
        | false => exact base_stop update _ c
      | idle => rfl
      | reading => rfl
      | completed result => rfl
  | written c ok =>
    show (s.handleWrite c ok).base = execCalls update s.base (s.writeCalls c ok)
    unfold handleWrite writeCalls
    cases s.heap c with
    | none => rfl
    | some client =>
      dsimp only
      split
      · rfl
      · split
        · rfl
        · exact base_stop update _ c
  | read c now =>
    show (s.handleRead readInput targetDelta now c).base =
      execCalls update s.base (s.readCalls readInput targetDelta c)
    unfold handleRead readCalls
    cases s.heap c with
    | none => rfl
    | some client =>
      dsimp only
      cases client.read with
      | accepting => rfl
      | idle => rfl
      | reading => rfl
      | completed result =>
        cases result with
        | none => exact base_stop update _ c
        | some data => exact base_onRead update readInput targetDelta now s c data

end

section
variable [Scalar α] [LeaderboardStore β] (conv : SecondsConv α)
  (sort : List QueuedPlayer → List QueuedPlayer) (update : Int → Int → EloRatingUpdate)
  (readInput : List Char → Option (MovementInput α)) (targetDelta : α)

/-- The calls that the server makes in a run. -/
def runCalls (leaderboard : Option β) (events : List (ConnectionEvent α)) : List (ServerOp α) :=
  (((connectionMachine conv sort update readInput targetDelta leaderboard).observe
    (calls readInput targetDelta)).run events).2

theorem runCalls_concat (leaderboard : Option β) (events : List (ConnectionEvent α))
    (event : ConnectionEvent α) :
    runCalls conv sort update readInput targetDelta leaderboard (events ++ [event]) =
      runCalls conv sort update readInput targetDelta leaderboard events ++
        calls readInput targetDelta
          ((connectionMachine conv sort update readInput targetDelta leaderboard).run events).1 event :=
  Machine.observe_run_snd_concat ..

/-- The calls while the server handles `events` from the state `s` on. -/
def callsFrom (s : ConnectionServer α β) : List (ConnectionEvent α) → List (ServerOp α)
  | [] => []
  | event :: events =>
    s.calls readInput targetDelta event ++
      callsFrom (s.step conv sort update readInput targetDelta event).1 events

theorem mem_callsFrom (s : ConnectionServer α β) (events : List (ConnectionEvent α)) {op : ServerOp α}
    (h : op ∈ callsFrom conv sort update readInput targetDelta s events) :
    ∃ event, event ∈ events ∧ CallOf targetDelta event op := by
  induction events generalizing s with
  | nil => cases h
  | cons event events ih =>
    rcases List.mem_append.1 h with h | h
    · exact ⟨event, List.mem_cons_self, mem_calls h⟩
    · obtain ⟨event', hmem, hcall⟩ := ih _ h
      exact ⟨event', List.mem_cons_of_mem event hmem, hcall⟩

theorem runCalls_append (leaderboard : Option β) (events₀ events₁ : List (ConnectionEvent α)) :
    runCalls conv sort update readInput targetDelta leaderboard (events₀ ++ events₁) =
      runCalls conv sort update readInput targetDelta leaderboard events₀ ++
        callsFrom conv sort update readInput targetDelta
          ((connectionMachine conv sort update readInput targetDelta leaderboard).run events₀).1 events₁ := by
  induction events₁ generalizing events₀ with
  | nil => rw [List.append_nil, callsFrom, List.append_nil]
  | cons event events ih =>
    rw [List.append_cons, ih, runCalls_concat, Machine.run_concat, callsFrom, List.append_assoc]
    rfl

/-- A run of the server is a run of its calls. -/
theorem base_run (leaderboard : Option β) (events : List (ConnectionEvent α)) :
    ((connectionMachine conv sort update readInput targetDelta leaderboard).run events).1.base =
      ((serverMachine α update leaderboard).run
        (runCalls conv sort update readInput targetDelta leaderboard events)).1 := by
  induction events using List.reverseRecOn with
  | nil => rfl
  | append_singleton events event ih =>
    rw [runCalls_concat, (serverMachine α update leaderboard).run_append_fst, ← ih, Machine.run_concat]
    show (step conv sort update readInput targetDelta _ event).1.base = execCalls update _ _
    unfold step
    split
    · rename_i hdown
      unfold calls
      rw [if_pos hdown]
      rfl
    · rename_i hdown
      exact base_exec update conv sort readInput targetDelta (Bool.eq_false_iff.2 hdown) event

theorem base_run_append (leaderboard : Option β) (events₀ events₁ : List (ConnectionEvent α)) :
    ((connectionMachine conv sort update readInput targetDelta leaderboard).run (events₀ ++ events₁)).1.base =
      execCalls update
        ((connectionMachine conv sort update readInput targetDelta leaderboard).run events₀).1.base
        (callsFrom conv sort update readInput targetDelta
          ((connectionMachine conv sort update readInput targetDelta leaderboard).run events₀).1 events₁) := by
  rw [base_run, base_run, runCalls_append, Machine.run_append_fst]
  rfl

end
end ConnectionServer

/-! ### Bodies -/

section
variable {α : Type}

/-- Where a player is, and when it last fired. -/
def PlayerRuntimeState.body (r : PlayerRuntimeState α) : α × α × Option α :=
  (r.state.x, r.state.y, r.lastFireTime)

namespace GameSession

def body? (s : GameSession α) (id : String) : Option (α × α × Option α) :=
  (s.players[id]?).map PlayerRuntimeState.body

/-! What `g` reads of a record, and a hit does not change, is read of every player after the hit as
before. -/

section
variable {γ : Type} {g : PlayerRuntimeState α → γ}

theorem map_insert {players : TreeMap String (PlayerRuntimeState α)} {id : String}
    {r r' : PlayerRuntimeState α} (hr : players[id]? = some r) (hg : g r' = g r) (j : String) :
    ((players.insert id r')[j]?).map g = (players[j]?).map g := by
  simp only [TreeMap.getElem?_insert, Std.compare_eq_iff_eq]
  split
  · rename_i heq
    rw [← heq, hr, Option.map_some, Option.map_some, hg]
  · rfl

theorem map_updatePlayer (players : TreeMap String (PlayerRuntimeState α)) (id : String)
    (f : PlayerRuntimeState α → PlayerRuntimeState α) (hf : ∀ r, g (f r) = g r) (j : String) :
    ((updatePlayer players id f)[j]?).map g = (players[j]?).map g := by
  unfold updatePlayer
  cases hr : players[id]? with
  | none => rfl
  | some r => exact map_insert hr (hf r) j

variable (g) in
/-- Hits leave what `g` reads alone. -/
structure HitProof : Prop where
  damaged : ∀ r, g (damaged r) = g r
  creditHit : ∀ r, g (creditHit r) = g r
  announceDeath : ∀ r, g (announceDeath r) = g r

theorem map_applyHit (hg : HitProof g) {s : GameSession α} {p : Projectile α} {id : String}
    {r : PlayerRuntimeState α} (hr : s.players[id]? = some r) (tick : Nat) (j : String) :
    ((s.applyHit p id r tick).1.players[j]?).map g = (s.players[j]?).map g := by
  have hhit : ((updatePlayer (s.players.insert id (GameSession.damaged r)) p.ownerId
      GameSession.creditHit)[j]?).map g = (s.players[j]?).map g := by
    rw [map_updatePlayer _ p.ownerId GameSession.creditHit hg.creditHit j, map_insert hr (hg.damaged r) j]
  unfold applyHit
  dsimp only
  split
  · exact (map_updatePlayer _ id GameSession.announceDeath hg.announceDeath j).trans hhit
  · exact hhit

theorem hitProof_body : HitProof (PlayerRuntimeState.body : PlayerRuntimeState α → _) :=
  ⟨fun _ => rfl, fun _ => rfl, fun _ => rfl⟩

end

/-- What neither hits nor the bookkeeping of a tick change. -/
structure SameGround (s s' : GameSession α) : Prop where
  body : ∀ j, s'.body? j = s.body? j
  speed : s'.speedPerSecond = s.speedPerSecond
  elapsed : s'.elapsedTime = s.elapsedTime

theorem SameGround.trans {s s' s'' : GameSession α} (h : SameGround s s') (h' : SameGround s' s'') :
    SameGround s s'' :=
  ⟨fun j => (h'.body j).trans (h.body j), h'.speed.trans h.speed, h'.elapsed.trans h.elapsed⟩

theorem sameGround_applyHit {s : GameSession α} {p : Projectile α} {id : String} {r : PlayerRuntimeState α}
    (hr : s.players[id]? = some r) (tick : Nat) : SameGround s (s.applyHit p id r tick).1 := by
  refine ⟨map_applyHit hitProof_body hr tick, ?_, ?_⟩
  · unfold applyHit
    dsimp only
    split <;> rfl
  · unfold applyHit
    dsimp only
    split <;> rfl

end GameSession

variable [Scalar α]

namespace GameSession

theorem map_resolveHits {γ : Type} {g : PlayerRuntimeState α → γ} (hg : HitProof g) (s : GameSession α)
    (order : List String) (tick : Nat) (ps : List (Projectile α)) (j : String) :
    ((s.resolveHits order tick ps).1.players[j]?).map g = (s.players[j]?).map g := by
  refine resolveHits_rule (P := fun s' => (s'.players[j]?).map g = (s.players[j]?).map g) (fun s' n hs => hs)
    ?_ rfl order tick ps
  intro s' p id r tick hr hs
  exact (map_applyHit hg hr tick j).trans hs

theorem sameGround_resolveHits (s : GameSession α) (order : List String) (tick : Nat)
    (ps : List (Projectile α)) :
    SameGround s (s.resolveHits order tick ps).1 := by
  refine resolveHits_rule (P := SameGround s) ?_ ?_ ⟨fun _ => rfl, rfl, rfl⟩ order tick ps
  · intro s' n hs
    exact ⟨hs.body, hs.speed, hs.elapsed⟩
  · intro s' p id r tick hr hs
    exact hs.trans (sameGround_applyHit hr tick)

/-- What an input for `id` with record `r` does to this player, when `r'` is the record and `ps` the
projectiles afterwards. -/
structure InputBody (s : GameSession α) (r r' : PlayerRuntimeState α) (input : MovementInput α) (dt : α)
    (ps : List (Projectile α)) : Prop where
  place : (r'.state.x = r.state.x ∧ r'.state.y = r.state.y) ∨
    (r.state.lastSequence ≤ input.sequence ∧ r.state.isAlive = true ∧
      r'.state.x = (s.movePlayer r.state input dt).x ∧ r'.state.y = (s.movePlayer r.state input dt).y)
  fire : (r'.lastFireTime = r.lastFireTime ∧ ps = s.projectiles) ∨
    (s.coolingDown r = false ∧ r'.lastFireTime = some s.elapsedTime ∧
      (ps = s.projectiles ∨ ∃ p : Projectile α, ps = s.projectiles ++ [p] ∧ p.ownerId = r.state.playerId ∧
        p.spawnTime = s.elapsedTime))

/-- The shot writes `r'` back, a copy of `r` up to the time of the last shot and counters. -/
theorem trySpawnProjectile_body (s : GameSession α) (id : String) (r : PlayerRuntimeState α)
    (input : MovementInput α) :
    ∃ r', (s.trySpawnProjectile id r input).1.players = s.players.insert id r' ∧
      (r'.state.x = r.state.x ∧ r'.state.y = r.state.y) ∧
      ((r'.lastFireTime = r.lastFireTime ∧ (s.trySpawnProjectile id r input).1.projectiles = s.projectiles) ∨
        (s.coolingDown r = false ∧ r'.lastFireTime = some s.elapsedTime ∧
          ((s.trySpawnProjectile id r input).1.projectiles = s.projectiles ∨
            ∃ p : Projectile α, (s.trySpawnProjectile id r input).1.projectiles = s.projectiles ++ [p] ∧
              p.ownerId = r.state.playerId ∧ p.spawnTime = s.elapsedTime))) := by
  unfold trySpawnProjectile
  dsimp only
  split
  · exact ⟨r, rfl, ⟨rfl, rfl⟩, .inl ⟨rfl, rfl⟩⟩
  · split
    · exact ⟨r, rfl, ⟨rfl, rfl⟩, .inl ⟨rfl, rfl⟩⟩
    · split
      · exact ⟨r, rfl, ⟨rfl, rfl⟩, .inl ⟨rfl, rfl⟩⟩
      · rename_i hcool
        have hcool : s.coolingDown r = false := Bool.eq_false_iff.2 hcool
        split
        · exact ⟨_, rfl, ⟨rfl, rfl⟩, .inr ⟨hcool, rfl, .inl rfl⟩⟩
        · rename_i p hmake
          obtain ⟨-, howner, -, htime⟩ := make_ok hmake
          exact ⟨_, rfl, ⟨rfl, rfl⟩, .inr ⟨hcool, rfl, .inr ⟨p, rfl, howner, htime⟩⟩⟩

theorem trySpawnProjectile_ground (s : GameSession α) (id : String) (r : PlayerRuntimeState α)
    (input : MovementInput α) :
    (s.trySpawnProjectile id r input).1.speedPerSecond = s.speedPerSecond ∧
      (s.trySpawnProjectile id r input).1.elapsedTime = s.elapsedTime := by
  unfold trySpawnProjectile
  dsimp only
  split
  · exact ⟨rfl, rfl⟩
  · split
    · exact ⟨rfl, rfl⟩
    · split
      · exact ⟨rfl, rfl⟩
      · split <;> exact ⟨rfl, rfl⟩

theorem applyInput_of_none {s : GameSession α} {id : String} (h : s.players[id]? = none)
    (input : MovementInput α) (dt : α) : s.applyInput id input dt = (s, .ok false) := by
  rw [applyInput, h]

theorem applyInput_of_some {s : GameSession α} {id : String} {r : PlayerRuntimeState α}
    (h : s.players[id]? = some r) (input : MovementInput α) (dt : α) :
    ∃ r', (∀ j, (s.applyInput id input dt).1.players[j]? = if id = j then some r' else s.players[j]?) ∧
      InputBody s r r' input dt (s.applyInput id input dt).1.projectiles := by
  unfold applyInput
  rw [h]
  dsimp only
  split
  · refine ⟨r, fun j => ?_, .inl ⟨rfl, rfl⟩, .inl ⟨rfl, rfl⟩⟩
    split
    · rename_i heq
      rw [← heq, h]
    · rfl
  · rename_i hseq
    obtain ⟨r', hplayers, hplace, hfire⟩ := trySpawnProjectile_body s id
      { r with state := if r.state.isAlive then
          s.movePlayer { r.state with lastSequence := input.sequence } input dt
        else { r.state with lastSequence := input.sequence } } input
    have hname : (if r.state.isAlive then
          s.movePlayer { r.state with lastSequence := input.sequence } input dt
        else { r.state with lastSequence := input.sequence }).playerId = r.state.playerId := by
      split <;> rfl
    rw [hname] at hfire
    refine ⟨r', fun j => ?_, ?_, hfire⟩
    · rw [hplayers]
      simp only [TreeMap.getElem?_insert, Std.compare_eq_iff_eq]
    · split at hplace
      · rename_i halive
        exact .inr ⟨Nat.le_of_not_lt hseq, halive, hplace⟩
      · exact .inl hplace

/-- An input leaves time, speed and the other players alone. -/
theorem applyInput_ground (s : GameSession α) (id : String) (input : MovementInput α) (dt : α) :
    (s.applyInput id input dt).1.speedPerSecond = s.speedPerSecond ∧
      (s.applyInput id input dt).1.elapsedTime = s.elapsedTime := by
  unfold applyInput
  split
  · exact ⟨rfl, rfl⟩
  · dsimp only
    split
    · exact ⟨rfl, rfl⟩
    · exact trySpawnProjectile_ground ..

end GameSession

open GameSession

/-- A tick only lets time pass. -/
theorem broadcastState_ground {β : Type} [LeaderboardStore β] (update : Int → Int → EloRatingUpdate)
    (server : WebSocketServer α β) (order : List String) (tick : Nat) (dt : α) :
    SameGround { server.session with elapsedTime := server.session.elapsedTime + dt }
      (server.broadcastState update order tick dt).1.session := by
  have hres := sameGround_resolveHits
    { server.session with elapsedTime := server.session.elapsedTime + dt } order tick
    (server.session.projectiles.map (moveProjectile (server.session.elapsedTime + dt) dt))
  exact ⟨hres.body, hres.speed, hres.elapsed⟩

end

end Portfolio.Arena
