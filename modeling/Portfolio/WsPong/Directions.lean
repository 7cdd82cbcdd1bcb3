import Portfolio.Lib.Machine
import Portfolio.Netcode.World

/-!
# Directions

From an input message to the paddle: `Session::handle_input_command`, `PongServer::handle_input` and
`PongGame::set_player_direction` of `lab1.4-ws-pong`, with the acknowledgements that `broadcast_state`
sends. The direction is clamped in each of the three, but the first converts it to `int` before, which
leaves the low 32 bits. Of the game only the directions and the tick are kept.

The inputs are handled in one thread and the ticks made in another. In `InputLoop` each can stop where it
takes a lock: between the direction and its acknowledgement, and between `update` and `broadcast_state`.
-/

namespace Portfolio.WsPong
open Netcode (PlayerSide)

/-- A value of `boost::json`; `δ` stands for `double`. -/
inductive JsonValue (δ : Type) where
  | int64 (n : Int64)
  | uint64 (n : UInt64)
  | double (x : δ)
  | other

/-- What `handle_input_command` reads in its object. -/
structure InputMessage (δ : Type) where
  direction : Option (JsonValue δ)
  seq : Option (JsonValue δ) := none

/-- `std::clamp` on `int` -/
def clamp (v lo hi : Int32) : Int32 := if v < lo then lo else if hi < v then hi else v

structure PongGame where
  leftInput : Int32 := 0
  rightInput : Int32 := 0
  tickCounter : UInt64 := 0
  deriving DecidableEq

structure PendingAck where
  session : Option Nat := none
  requestedAt : Int := 0
  targetTick : UInt64 := 0
  seq : UInt64 := 0
  direction : Int32 := 0
  pending : Bool := false
  deriving DecidableEq

structure InputAck where
  session : Nat
  seq : UInt64
  appliedDirection : Int32
  appliedTick : UInt64
  deriving DecidableEq

namespace PongGame

def setPlayerDirection (game : PongGame) (side : PlayerSide) (direction : Int32) : PongGame :=
  let clamped := clamp direction (-1) 1
  match side with
  | .left => { game with leftInput := clamped }
  | .right => { game with rightInput := clamped }
  | .spectator => game

/-- The direction of a side; a spectator has none. -/
def direction (game : PongGame) : PlayerSide → Option Int32
  | .left => some game.leftInput
  | .right => some game.rightInput
  | .spectator => none

end PongGame

structure InputServer where
  game : PongGame := {}
  pendingLeftAck : PendingAck := {}
  pendingRightAck : PendingAck := {}
  deriving DecidableEq

namespace InputServer

/-- The acknowledgement of a side. -/
def pendingAck (s : InputServer) : PlayerSide → PendingAck
  | .left => s.pendingLeftAck
  | .right => s.pendingRightAck
  | .spectator => {}

def modifyAck (s : InputServer) (f : PendingAck → PendingAck) : PlayerSide → InputServer
  | .left => { s with pendingLeftAck := f s.pendingLeftAck }
  | .right => { s with pendingRightAck := f s.pendingRightAck }
  | .spectator => s

/-- `handle_input`, at the time `now` -/
def handleInput (s : InputServer) (session : Nat) (side : PlayerSide) (direction : Int32) (seq : UInt64)
    (now : Int) : InputServer :=
  if side = .spectator then s
  else
    let clamped := clamp direction (-1) 1
    let s := { s with game := s.game.setPlayerDirection side clamped }
    s.modifyAck (fun _ =>
      { session := some session, requestedAt := now, targetTick := s.game.tickCounter + 1, seq := seq
        direction := clamped, pending := true }) side

/-- The `seq` of a message. -/
def readSeq {δ : Type} : Option (JsonValue δ) → UInt64
  | some (.uint64 n) => n
  | some (.int64 n) => n.toUInt64
  | _ => 0

/-- The value of `direction` before it is clamped; `toInt` rounds a double and converts it to `int`. -/
def readDirection {δ : Type} (toInt : δ → Int32) : Option (JsonValue δ) → Option Int32
  | some (.int64 n) => some n.toInt32
  | some (.double x) => some (toInt x)
  | _ => none

/-- `handle_input_command` of the session number `session` with the role `role` -/
def handleInputCommand {δ : Type} (toInt : δ → Int32) (s : InputServer) (session : Nat) (role : PlayerSide)
    (now : Int) (obj : InputMessage δ) : InputServer :=
  match readDirection toInt obj.direction with
  | none => s
  | some direction =>
    let seq := readSeq obj.seq
    let direction := clamp direction (-1) 1
    if role = .spectator then s else s.handleInput session role direction seq now

/-- The part of `unregister_session` for the acknowledgement. -/
def unregisterSession (s : InputServer) (role : PlayerSide) : InputServer :=
  s.modifyAck (fun ack => { ack with pending := false, session := none }) role

/-- The part of `broadcast_state` for one acknowledgement; `alive` tells which sessions can be locked. -/
def flushAck (alive : Nat → Bool) (tick : UInt64) (ack : PendingAck) : PendingAck × List InputAck :=
  if ack.pending && ack.targetTick ≤ tick then
    ({ ack with pending := false }, match ack.session with
      | none => []
      | some session =>
        if alive session then [⟨session, ack.seq, ack.direction, tick⟩] else [])
  else (ack, [])

/-- `update`, as far as it goes here. -/
def update (s : InputServer) : InputServer :=
  { s with game := { s.game with tickCounter := s.game.tickCounter + 1 } }

/-- The part of `broadcast_state` for the acknowledgements, with the tick of its snapshot. -/
def broadcastState (s : InputServer) (alive : Nat → Bool) (tick : UInt64) : InputServer × List InputAck :=
  let left := flushAck alive tick s.pendingLeftAck
  let right := flushAck alive tick s.pendingRightAck
  ({ s with pendingLeftAck := left.1, pendingRightAck := right.1 }, left.2 ++ right.2)

/-- `handle_input_command` up to the lock of the sessions: the direction is set and the acknowledgement made
out for the tick after the snapshot. A tick between the two calls of the game is as good as one before them. -/
def beginInput {δ : Type} (toInt : δ → Int32) (s : InputServer) (session : Nat) (role : PlayerSide)
    (obj : InputMessage δ) : Option (InputServer × PendingAck) :=
  match readDirection toInt obj.direction with
  | none => none
  | some direction =>
    if role = .spectator then none
    else
      let clamped := clamp (clamp direction (-1) 1) (-1) 1
      let s := { s with game := s.game.setPlayerDirection role clamped }
      some (s,
        { session := some session, targetTick := s.game.tickCounter + 1, seq := readSeq obj.seq
          direction := clamped, pending := true })

/-- The rest of it, at the time `now`. -/
def storeAck (s : InputServer) (role : PlayerSide) (ack : PendingAck) (now : Int) : InputServer :=
  s.modifyAck (fun _ => { ack with requestedAt := now }) role

end InputServer

/-! ### Clamping -/

theorem toInt_clamp (v : Int32) : (clamp v (-1) 1).toInt = max (-1) (min v.toInt 1) := by
  have hneg : (-1 : Int32).toInt = -1 := rfl
  have hone : (1 : Int32).toInt = 1 := rfl
  unfold clamp
  simp only [Int32.lt_iff_toInt_lt, hneg, hone]
  split
  · omega
  · split
    · omega
    · omega

/-- The low 32 bits of `d`, read with a sign, have the sign of `d`. -/
def SignKept (d : Int) : Prop :=
  d = 0 ∨ (0 < d ∧ 0 < d % 2 ^ 32 ∧ d % 2 ^ 32 < 2 ^ 31) ∨ (d < 0 ∧ 2 ^ 31 ≤ d % 2 ^ 32)

instance (d : Int) : Decidable (SignKept d) := inferInstanceAs (Decidable (_ ∨ _))

theorem clamp_toInt32_iff (d : Int64) :
    (clamp d.toInt32 (-1) 1).toInt = max (-1) (min d.toInt 1) ↔ SignKept d.toInt := by
  rw [toInt_clamp, Int64.toInt_toInt32, Int.bmod_def]
  unfold SignKept
  have hpos := Int.emod_nonneg d.toInt (show (2 : Int) ^ 32 ≠ 0 by decide)
  have hlt := Int.emod_lt_of_pos d.toInt (show (0 : Int) < 2 ^ 32 by decide)
  push_cast
  split
  · omega
  · omega

theorem clamp_clamp (v : Int32) : clamp (clamp v (-1) 1) (-1) 1 = clamp v (-1) 1 := by
  apply Int32.toInt_inj.1
  rw [toInt_clamp, toInt_clamp]
  omega

namespace InputServer
variable {δ : Type} {toInt : δ → Int32} {s : InputServer}

theorem direction_setPlayerDirection (game : PongGame) (side side' : PlayerSide) (direction : Int32) :
    (game.setPlayerDirection side direction).direction side' =
      if side' = side then (game.direction side).map fun _ => clamp direction (-1) 1
      else game.direction side' := by
  cases side <;> cases side' <;> rfl

theorem game_modifyAck (s : InputServer) (f : PendingAck → PendingAck) (side : PlayerSide) :
    (s.modifyAck f side).game = s.game := by
  cases side <;> rfl

theorem pendingAck_modifyAck (s : InputServer) (f : PendingAck → PendingAck) {side : PlayerSide}
    (hside : side ≠ .spectator) (side' : PlayerSide) :
    (s.modifyAck f side).pendingAck side' = if side' = side then f (s.pendingAck side) else s.pendingAck side' := by
  cases side with
  | left => cases side' <;> rfl
  | right => cases side' <;> rfl
  | spectator => exact absurd rfl hside

theorem direction_isSome (game : PongGame) {side : PlayerSide} (hside : side ≠ .spectator) :
    ∃ v, game.direction side = some v := by
  cases side with
  | left => exact ⟨_, rfl⟩
  | right => exact ⟨_, rfl⟩
  | spectator => exact absurd rfl hside

/-- What an input stores: the direction, clamped once, on its side, and the same in the
acknowledgement. -/
theorem handleInputCommand_eq (s : InputServer) (session : Nat) {role : PlayerSide} (hrole : role ≠ .spectator)
    (now : Int) {obj : InputMessage δ} {direction : Int32}
    (hread : readDirection toInt obj.direction = some direction) :
    (∀ side, (s.handleInputCommand toInt session role now obj).game.direction side =
      if side = role then some (clamp direction (-1) 1) else s.game.direction side) ∧
    ∀ side, ((s.handleInputCommand toInt session role now obj).pendingAck side) = if side = role then
      { session := some session, requestedAt := now, targetTick := s.game.tickCounter + 1
        seq := readSeq obj.seq, direction := clamp direction (-1) 1, pending := true }
      else s.pendingAck side := by
  have htick : (s.game.setPlayerDirection role (clamp direction (-1) 1)).tickCounter = s.game.tickCounter := by
    cases role <;> rfl
  unfold handleInputCommand
  rw [hread]
  dsimp only
  rw [if_neg hrole]
  unfold handleInput
  rw [if_neg hrole]
  constructor
  · intro side
    obtain ⟨v, hv⟩ := direction_isSome s.game hrole
    rw [game_modifyAck, clamp_clamp, direction_setPlayerDirection, hv, Option.map_some, clamp_clamp]
  · intro side
    rw [pendingAck_modifyAck _ _ hrole, clamp_clamp, htick]
    cases side <;> rfl

end InputServer

/-- The direction that the game holds after an input of a player is the clamped one exactly if the
conversion to `int` keeps its sign. -/
theorem stored_direction_iff {δ : Type} (toInt : δ → Int32) (s : InputServer) (session : Nat)
    {role : PlayerSide} (hrole : role ≠ .spectator) (now : Int) (d : Int64) (seq : Option (JsonValue δ)) :
    (((s.handleInputCommand toInt session role now { direction := some (.int64 d), seq := seq }).game.direction
      role).map Int32.toInt = some (max (-1) (min d.toInt 1))) ↔ SignKept d.toInt := by
  have hread : InputServer.readDirection toInt (some (.int64 d)) = some d.toInt32 := rfl
  rw [(InputServer.handleInputCommand_eq s session hrole now hread).1, if_pos rfl, Option.map_some,
    Option.some.injEq]
  exact clamp_toInt32_iff d

theorem stored_direction_iff_down :
    ((({} : InputServer).handleInputCommand (fun x : Int32 => x) 7 .left 0
      { direction := some (.int64 (-9)) }).game.direction .left).map Int32.toInt = some (-1) :=
  (stored_direction_iff _ {} 7 (show PlayerSide.left ≠ .spectator from nofun) 0 (-9) none).2 (by decide)

/-- The direction 2147483648 moves the paddle the other way. -/
theorem direction_wrapped :
    ¬ ((({} : InputServer).handleInputCommand (fun x : Int32 => x) 7 .left 0
      { direction := some (.int64 2147483648) }).game.direction .left).map Int32.toInt =
        some (max (-1) (min (2147483648 : Int64).toInt 1)) := by
  decide

/-! ### Two threads -/

/-- The server between the steps of its threads. -/
structure InputLoop where
  server : InputServer := {}
  /-- The acknowledgement that the thread of the sessions is about to store. -/
  storing : Option (PlayerSide × PendingAck) := none
  /-- The tick that the loop is about to broadcast. -/
  snapshot : Option UInt64 := none
  deriving DecidableEq

inductive InputEvent (δ : Type) where
  | input (session : Nat) (role : PlayerSide) (obj : InputMessage δ)
  | store (now : Int)
  | unregister (role : PlayerSide)
  | update
  | broadcast (alive : Nat → Bool)

namespace InputLoop
variable {δ : Type} (toInt : δ → Int32)

/-- A thread that is in the middle of something finishes it first. -/
def exec (s : InputLoop) : InputEvent δ → InputLoop × List InputAck
  | .input session role obj =>
    if s.storing.isSome then (s, [])
    else match s.server.beginInput toInt session role obj with
      | none => (s, [])
      | some (server, ack) => ({ s with server := server, storing := some (role, ack) }, [])
  | .store now => match s.storing with
    | none => (s, [])
    | some (role, ack) => ({ s with server := s.server.storeAck role ack now, storing := none }, [])
  | .unregister role =>
    if s.storing.isSome then (s, []) else ({ s with server := s.server.unregisterSession role }, [])
  | .update => match s.snapshot with
    | none => ({ s with server := s.server.update, snapshot := some s.server.update.game.tickCounter }, [])
    | some _ => (s, [])
  | .broadcast alive => match s.snapshot with
    | none => (s, [])
    | some tick =>
      let next := s.server.broadcastState alive tick
      ({ s with server := next.1, snapshot := none }, next.2)

end InputLoop

def inputMachine {δ : Type} (toInt : δ → Int32) : Machine InputLoop (InputEvent δ) InputAck where
  init := {}
  step := InputLoop.exec toInt

namespace InputServer
variable {δ : Type} {toInt : δ → Int32} {s : InputServer}

/-- Undisturbed, the two parts do what `handle_input_command` does. -/
theorem handleInputCommand_eq_store (s : InputServer) (session : Nat) (role : PlayerSide) (now : Int)
    (obj : InputMessage δ) :
    s.handleInputCommand toInt session role now obj = match s.beginInput toInt session role obj with
      | none => s
      | some (server, ack) => server.storeAck role ack now := by
  unfold handleInputCommand beginInput
  cases readDirection toInt obj.direction with
  | none => rfl
  | some direction =>
    cases role with
    | left => rfl
    | right => rfl
    | spectator => rfl

/-- What the first part of an input leaves. -/
theorem beginInput_eq_some {session : Nat} {role : PlayerSide} {obj : InputMessage δ} {server : InputServer}
    {ack : PendingAck} (h : s.beginInput toInt session role obj = some (server, ack)) :
    role ≠ .spectator ∧ ∃ direction, readDirection toInt obj.direction = some direction ∧
      server = { s with game := s.game.setPlayerDirection role (clamp direction (-1) 1) } ∧
      ack = { session := some session, targetTick := server.game.tickCounter + 1, seq := readSeq obj.seq
              direction := clamp direction (-1) 1, pending := true } := by
  unfold beginInput at h
  split at h
  · cases h
  · next direction hread =>
    split at h
    · cases h
    · next hrole =>
      dsimp only at h
      rw [clamp_clamp] at h
      obtain ⟨rfl, rfl⟩ := Prod.mk.inj (Option.some.inj h)
      exact ⟨hrole, direction, hread, rfl, rfl⟩

theorem pendingAck_beginInput {session : Nat} {role : PlayerSide} {obj : InputMessage δ} {server : InputServer}
    {ack : PendingAck} (h : s.beginInput toInt session role obj = some (server, ack)) (side : PlayerSide) :
    server.pendingAck side = s.pendingAck side := by
  obtain ⟨-, direction, -, rfl, -⟩ := beginInput_eq_some h
  cases side <;> rfl

theorem pendingAck_storeAck (s : InputServer) {role : PlayerSide} (hrole : role ≠ .spectator)
    (ack : PendingAck) (now : Int) (side : PlayerSide) :
    (s.storeAck role ack now).pendingAck side =
      if side = role then { ack with requestedAt := now } else s.pendingAck side := by
  unfold storeAck
  rw [pendingAck_modifyAck _ _ hrole]

theorem pendingAck_unregisterSession (s : InputServer) (role side : PlayerSide) :
    (s.unregisterSession role).pendingAck side = s.pendingAck side ∨
      side = role ∧ ((s.unregisterSession role).pendingAck side).pending = false ∧
        ((s.unregisterSession role).pendingAck side).session = none := by
  by_cases hrole : role = .spectator
  · subst hrole
    exact .inl rfl
  · unfold unregisterSession
    rw [pendingAck_modifyAck _ _ hrole]
    by_cases hside : side = role
    · rw [if_pos hside]
      exact .inr ⟨hside, rfl, rfl⟩
    · rw [if_neg hside]
      exact .inl rfl

theorem pendingAck_broadcastState (s : InputServer) (alive : Nat → Bool) (tick : UInt64) (side : PlayerSide) :
    (s.broadcastState alive tick).1.pendingAck side = (flushAck alive tick (s.pendingAck side)).1 := by
  cases side <;> rfl

theorem mem_broadcastState {alive : Nat → Bool} {tick : UInt64} {ack : InputAck}
    (h : ack ∈ (s.broadcastState alive tick).2) :
    ∃ side, ack ∈ (flushAck alive tick (s.pendingAck side)).2 := by
  rcases List.mem_append.1 h with h | h
  · exact ⟨.left, h⟩
  · exact ⟨.right, h⟩

/-- A flush leaves an acknowledgement as it is, or sends it. -/
theorem flushAck_cases (alive : Nat → Bool) (tick : UInt64) (ack : PendingAck) :
    flushAck alive tick ack = (ack, []) ∨
      ack.pending = true ∧ (flushAck alive tick ack).1 = { ack with pending := false } ∧
        ∀ sent ∈ (flushAck alive tick ack).2, some sent.session = ack.session ∧ sent.seq = ack.seq ∧
          sent.appliedDirection = ack.direction := by
  unfold flushAck
  split
  · next hdue =>
    rw [Bool.and_eq_true] at hdue
    refine .inr ⟨hdue.1, rfl, fun sent hsent => ?_⟩
    dsimp only at hsent
    cases hsession : ack.session with
    | none =>
      rw [hsession] at hsent
      cases hsent
    | some session =>
      rw [hsession] at hsent
      dsimp only at hsent
      split at hsent
      · rw [List.mem_singleton.1 hsent]
        exact ⟨rfl, rfl, rfl⟩
      · cases hsent
  · exact .inl rfl

end InputServer

/-! ### Runs -/

/-- The acknowledgement is made out for one of the inputs, with its number and its direction, clamped. -/
def MadeFor {δ : Type} (toInt : δ → Int32) (events : List (InputEvent δ)) (session : Nat) (seq : UInt64)
    (direction : Int32) : Prop :=
  ∃ role obj given, .input session role obj ∈ events ∧
    InputServer.readDirection toInt obj.direction = some given ∧ seq = InputServer.readSeq obj.seq ∧
    direction = clamp given (-1) 1

theorem MadeFor.concat {δ : Type} {toInt : δ → Int32} {events : List (InputEvent δ)} {session : Nat}
    {seq : UInt64} {direction : Int32} (h : MadeFor toInt events session seq direction) (event : InputEvent δ) :
    MadeFor toInt (events ++ [event]) session seq direction := by
  obtain ⟨role, obj, given, hmem, hread⟩ := h
  exact ⟨role, obj, given, List.mem_append_left _ hmem, hread⟩

/-- What is stored and what is about to be stored is made out for inputs. -/
structure Accounted {δ : Type} (toInt : δ → Int32) (events : List (InputEvent δ)) (s : InputLoop) : Prop where
  stored : ∀ side session, (s.server.pendingAck side).session = some session →
    MadeFor toInt events session (s.server.pendingAck side).seq (s.server.pendingAck side).direction
  storing : ∀ role ack, s.storing = some (role, ack) → role ≠ .spectator ∧
    ∀ session, ack.session = some session → MadeFor toInt events session ack.seq ack.direction

namespace Accounted
open InputServer
variable {δ : Type} {toInt : δ → Int32} {events : List (InputEvent δ)} {s : InputLoop}

theorem concat (h : Accounted toInt events s) (event : InputEvent δ) :
    Accounted toInt (events ++ [event]) s :=
  ⟨fun side session hs => (h.stored side session hs).concat event, fun role ack hs =>
    ⟨(h.storing role ack hs).1, fun session hsession => ((h.storing role ack hs).2 session hsession).concat event⟩⟩

/-- What is stored stays, up to its mark, or is dropped. -/
theorem kept (h : Accounted toInt events s) {server : InputServer} (snapshot : Option UInt64)
    (hkept : ∀ side, (server.pendingAck side).session = none ∨
      ∃ pending, server.pendingAck side = { s.server.pendingAck side with pending := pending }) :
    Accounted toInt events { s with server := server, snapshot := snapshot } := by
  refine ⟨fun side session hsession => ?_, h.storing⟩
  have hsession : (server.pendingAck side).session = some session := hsession
  show MadeFor toInt events session (server.pendingAck side).seq (server.pendingAck side).direction
  rcases hkept side with hnone | ⟨pending, hsame⟩
  · rw [hnone] at hsession
    cases hsession
  · rw [hsame] at hsession ⊢
    exact h.stored side session hsession

theorem input (h : Accounted toInt events s) {session : Nat} {role : PlayerSide} {obj : InputMessage δ}
    (hmem : .input session role obj ∈ events) {server : InputServer} {ack : PendingAck}
    (hbegin : s.server.beginInput toInt session role obj = some (server, ack)) :
    Accounted toInt events { s with server := server, storing := some (role, ack) } := by
  obtain ⟨hrole, direction, hread, -, hack⟩ := beginInput_eq_some hbegin
  refine ⟨fun side => ?_, ?_⟩
  · show ∀ session', (server.pendingAck side).session = some session' → _
    rw [pendingAck_beginInput hbegin]
    exact h.stored side
  · rintro role' ack' hsome
    obtain ⟨rfl, rfl⟩ := Prod.mk.inj (Option.some.inj hsome)
    subst hack
    refine ⟨hrole, fun session' hsession => ?_⟩
    obtain rfl := Option.some.inj hsession
    exact ⟨role, obj, direction, hmem, hread, rfl, rfl⟩

theorem store (h : Accounted toInt events s) {role : PlayerSide} {ack : PendingAck}
    (hstoring : s.storing = some (role, ack)) (now : Int) :
    Accounted toInt events { s with server := s.server.storeAck role ack now, storing := none } := by
  obtain ⟨hrole, hmade⟩ := h.storing role ack hstoring
  refine ⟨fun side session hsession => ?_, by simp⟩
  have hsession : ((s.server.storeAck role ack now).pendingAck side).session = some session := hsession
  show MadeFor toInt _ session ((s.server.storeAck role ack now).pendingAck side).seq
    ((s.server.storeAck role ack now).pendingAck side).direction
  rw [pendingAck_storeAck _ hrole] at hsession ⊢
  split at hsession
  · next hside =>
    rw [if_pos hside]
    exact hmade session hsession
  · next hside =>
    rw [if_neg hside]
    exact h.stored side session hsession

theorem exec (h : Accounted toInt events s) (event : InputEvent δ) :
    Accounted toInt (events ++ [event]) (s.exec toInt event).1 := by
  have hmono := h.concat event
  cases event with
  | input session role obj =>
    unfold InputLoop.exec
    dsimp only
    split
    · exact hmono
    · cases hbegin : s.server.beginInput toInt session role obj with
      | none => exact hmono
      | some r => exact hmono.input (by simp) hbegin
  | store now =>
    unfold InputLoop.exec
    dsimp only
    cases hstoring : s.storing with
    | none => exact hmono
    | some r => exact hmono.store hstoring now
  | unregister role =>
    unfold InputLoop.exec
    dsimp only
    split
    · exact hmono
    · refine hmono.kept s.snapshot fun side => ?_
      rcases pendingAck_unregisterSession s.server role side with hsame | ⟨-, -, hnone⟩
      · exact .inr ⟨_, hsame⟩
      · exact .inl hnone
  | update =>
    unfold InputLoop.exec
    dsimp only
    split
    · refine hmono.kept (some s.server.update.game.tickCounter) fun side =>
        .inr ⟨(s.server.pendingAck side).pending, ?_⟩
      cases side <;> rfl
    · exact hmono
  | broadcast alive =>
    unfold InputLoop.exec
    dsimp only
    split
    · exact hmono
    · next tick _ =>
      refine hmono.kept none fun side => .inr ?_
      rw [pendingAck_broadcastState]
      rcases flushAck_cases alive tick (s.server.pendingAck side) with hsame | ⟨-, hsent, -⟩
      · rw [hsame]
        exact ⟨_, rfl⟩
      · exact ⟨false, hsent⟩

/-- What a step sends is made out for inputs. -/
theorem sent (h : Accounted toInt events s) (event : InputEvent δ) {ack : InputAck}
    (hack : ack ∈ (s.exec toInt event).2) :
    MadeFor toInt events ack.session ack.seq ack.appliedDirection := by
  cases event with
  | broadcast alive =>
    unfold InputLoop.exec at hack
    dsimp only at hack
    split at hack
    · cases hack
    · next tick _ =>
      obtain ⟨side, hside⟩ := mem_broadcastState hack
      rcases flushAck_cases alive tick (s.server.pendingAck side) with hsame | ⟨-, -, hsent⟩
      · rw [hsame] at hside
        cases hside
      · obtain ⟨hsession, hseq, hdirection⟩ := hsent ack hside
        rw [hseq, hdirection]
        exact h.stored side ack.session hsession.symm
  | input session role obj =>
    unfold InputLoop.exec at hack
    dsimp only at hack
    split at hack
    · cases hack
    · split at hack <;> cases hack
  | store now =>
    unfold InputLoop.exec at hack
    dsimp only at hack
    split at hack <;> cases hack
  | unregister role =>
    unfold InputLoop.exec at hack
    dsimp only at hack
    split at hack <;> cases hack
  | update =>
    unfold InputLoop.exec at hack
    dsimp only at hack
    split at hack <;> cases hack

end Accounted

/-- In every order of the steps of the two threads an acknowledgement is for an input of its session, with its
number and its direction, clamped. -/
theorem acks_made_for_inputs {δ : Type} (toInt : δ → Int32) (events : List (InputEvent δ)) :
    ∀ ack ∈ ((inputMachine toInt).run events).2,
      MadeFor toInt events ack.session ack.seq ack.appliedDirection := by
  have hrun := (inputMachine toInt).run_inv (P := fun events output s => Accounted toInt events s ∧
    ∀ ack ∈ output, MadeFor toInt events ack.session ack.seq ack.appliedDirection) ?_ ?_ events
  · exact hrun.2
  · refine ⟨⟨fun side session h => ?_, fun role ack h => ?_⟩, fun ack h => ?_⟩
    · cases side <;> cases h
    · cases h
    · cases h
  · rintro events output s event ⟨h, hout⟩
    refine ⟨h.exec event, fun ack hack => ?_⟩
    rcases List.mem_append.1 hack with hold | hnew
    · exact (hout ack hold).concat event
    · exact (h.sent event hnew).concat event

end Portfolio.WsPong
