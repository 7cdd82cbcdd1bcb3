import Mathlib.Logic.Function.Basic
import Portfolio.Lib.Machine
import Portfolio.Lib.ReadState
import Portfolio.Lib.Text
import Portfolio.Netcode.World

/-!
# `pong::PongServer`

The player slots of the WebSocket Pong server (`lab1.4-ws-pong/pong_server.h`). Every handler and every
`cleanup_reconnect_timeouts` of the game loop is one step. `Session` objects live in `heap` by the
number of their connection; a slot has the number of its session for a weak pointer. A write that is
outstanding may fail at any time.

The game, the messages that are sent, `sessions_` and the pending acknowledgements, which only serve to
send messages, are left out, and so is `stop`. A payload is what `boost::json` makes of it. Times of the
steady clock are in nanoseconds.
-/

namespace Portfolio.WsPong
open Netcode (PlayerSide)

/-- What `handle_message` finds in a payload: a hello, with its `player_id` when that is a string, or
anything else. -/
inductive Message where
  | hello (playerId : Option String)
  | other
  deriving DecidableEq, Repr

structure Session where
  isOpen : Bool := false
  role : PlayerSide := .spectator
  read : ReadState Message := .accepting
  deriving DecidableEq

inductive SlotStatus where
  | empty
  | active
  | reconnecting
  deriving DecidableEq, Repr

structure PlayerSlot where
  playerId : String := ""
  session : Option Nat := none
  status : SlotStatus := .empty
  disconnectedAt : Int := 0
  deriving DecidableEq, Repr

structure PongServer where
  heap : Nat → Option Session := fun _ => none
  nextConn : Nat := 0
  leftSlot : PlayerSlot := {}
  rightSlot : PlayerSlot := {}
  /-- The counter of `generate_player_id`. -/
  counter : Nat := 0

def reconnectTimeout : Int := 10000 * 1000000

/-- The `player_id` that `handle_hello` extracts. -/
def helloPlayerId : Option String → String
  | none => ""
  | some pid => if pid = "" then "" else cStr pid

namespace PlayerSlot

/-- A slot that waits for the player `playerId`. -/
def waitsFor (slot : PlayerSlot) (playerId : String) : Bool :=
  playerId ≠ "" && slot.status = .reconnecting && slot.playerId = playerId

def reconnect (c : Nat) (slot : PlayerSlot) : PlayerSlot := { slot with session := some c, status := .active }

def assign (playerId : String) (c : Nat) (slot : PlayerSlot) : PlayerSlot :=
  { slot with playerId := playerId, session := some c, status := .active }

/-- The part of `unregister_session` for the slot of the session's role. -/
def release (c : Nat) (now : Int) (slot : PlayerSlot) : PlayerSlot :=
  if slot.session = some c then
    { slot with session := none, status := .reconnecting, disconnectedAt := now }
  else slot

/-- The part of `cleanup_reconnect_timeouts` for one slot. -/
def expire (now : Int) (slot : PlayerSlot) : PlayerSlot :=
  if slot.status = .reconnecting ∧ reconnectTimeout < now - slot.disconnectedAt then
    { slot with status := .empty, playerId := "" }
  else slot

end PlayerSlot

/-- What `register_session` returns. -/
structure Registration where
  server : PongServer
  role : PlayerSide
  assignedPlayerId : String
  reconnected : Bool := false

namespace PongServer

/-- The slot of a side; a spectator has none. -/
def slot (s : PongServer) : PlayerSide → PlayerSlot
  | .left => s.leftSlot
  | .right => s.rightSlot
  | .spectator => {}

def modifySession (s : PongServer) (c : Nat) (f : Session → Session) : PongServer :=
  { s with heap := Function.update s.heap c ((s.heap c).map f) }

def modifySlot (s : PongServer) (f : PlayerSlot → PlayerSlot) : PlayerSide → PongServer
  | .left => { s with leftSlot := f s.leftSlot }
  | .right => { s with rightSlot := f s.rightSlot }
  | .spectator => s

def generatePlayerId (s : PongServer) : PongServer × String :=
  ({ s with counter := s.counter + 1 }, "player_" ++ toString (s.counter + 1))

def registerSession (s : PongServer) (c : Nat) (optionalPlayerId : String) : Registration :=
  if s.leftSlot.waitsFor optionalPlayerId then
    { server := s.modifySlot (.reconnect c) .left, role := .left, assignedPlayerId := s.leftSlot.playerId
      reconnected := true }
  else if s.rightSlot.waitsFor optionalPlayerId then
    { server := s.modifySlot (.reconnect c) .right, role := .right, assignedPlayerId := s.rightSlot.playerId
      reconnected := true }
  else
    let r := if optionalPlayerId = "" then s.generatePlayerId else (s, optionalPlayerId)
    if r.1.leftSlot.status = .empty then
      { server := r.1.modifySlot (.assign r.2 c) .left, role := .left, assignedPlayerId := r.2 }
    else if r.1.rightSlot.status = .empty then
      { server := r.1.modifySlot (.assign r.2 c) .right, role := .right, assignedPlayerId := r.2 }
    else { server := r.1, role := .spectator, assignedPlayerId := r.2 }

def unregisterSession (s : PongServer) (c : Nat) (role : PlayerSide) (now : Int) : PongServer :=
  s.modifySlot (.release c now) role

def cleanupReconnectTimeouts (s : PongServer) (now : Int) : PongServer :=
  { s with leftSlot := s.leftSlot.expire now, rightSlot := s.rightSlot.expire now }

/-! ### Handlers -/

def doRead (s : PongServer) (c : Nat) : PongServer := s.modifySession c fun x => { x with read := .reading }

/-- The reading side has no operation left. -/
def endRead (s : PongServer) (c : Nat) : PongServer := s.modifySession c fun x => { x with read := .idle }

def handleHello (s : PongServer) (c : Nat) (playerId : Option String) : PongServer :=
  let r := s.registerSession c (helloPlayerId playerId)
  r.server.modifySession c fun x => { x with role := r.role }

def handleMessage (s : PongServer) (c : Nat) : Message → PongServer
  | .hello playerId => s.handleHello c playerId
  | .other => s

def onClose (s : PongServer) (c : Nat) (now : Int) : PongServer :=
  match s.heap c with
  | none => s
  | some x =>
    if !x.isOpen then s
    else (s.modifySession c fun x => { x with isOpen := false }).unregisterSession c x.role now

def onAccept (s : PongServer) (c : Nat) (ok : Bool) : PongServer :=
  match s.heap c with
  | none => s
  | some x =>
    if x.read ≠ .accepting then s
    else if !ok then s.endRead c
    else (s.modifySession c fun x => { x with isOpen := true }).doRead c

def onRead (s : PongServer) (c : Nat) (now : Int) : PongServer :=
  match s.heap c with
  | none => s
  | some x => match x.read with
    | .completed none => (s.onClose c now).endRead c
    | .completed (some message) => (s.handleMessage c message).doRead c
    | _ => s

/-- An outstanding read completes. After the stream has failed it cannot succeed. -/
def arrive (s : PongServer) (c : Nat) (result : Option Message) : PongServer :=
  s.modifySession c fun x =>
    if x.read = .reading ∧ (x.isOpen = true ∨ result = none) then { x with read := .completed result } else x

def connect (s : PongServer) : PongServer :=
  { s with heap := Function.update s.heap s.nextConn (some {}), nextConn := s.nextConn + 1 }

end PongServer

/-! ### Runs -/

inductive Event where
  | connect
  | accepted (c : Nat) (ok : Bool)
  | arrive (c : Nat) (result : Option Message)
  | read (c : Nat) (now : Int)
  | writeFailed (c : Nat) (now : Int)
  | cleanup (now : Int)
  deriving DecidableEq, Repr

def PongServer.exec (s : PongServer) : Event → PongServer
  | .connect => s.connect
  | .accepted c ok => s.onAccept c ok
  | .arrive c result => s.arrive c result
  | .read c now => s.onRead c now
  | .writeFailed c now => s.onClose c now
  | .cleanup now => s.cleanupReconnectTimeouts now

def slotMachine : Machine PongServer Event Unit where
  init := {}
  step s event := (s.exec event, [])

end Portfolio.WsPong
