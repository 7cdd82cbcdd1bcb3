import Std.Data.TreeSet
import Mathlib.Logic.Function.Basic
import Portfolio.Chat.Payload
import Portfolio.Lib.Machine
import Portfolio.Lib.ReadState

/-!
# `ws::WebSocketServer`

Sessions, rooms and commands of the chat server (`lab1.3-ws-chat`), up to a call of `stop`. The
`io_context` runs on one thread, so every handler is one step. `WebSocketSession` objects live in
`heap` by the number of their session and are kept alive by their outstanding operations; `sessions`
and the members of a room are weak pointers.

`close` is only called by `stop` and is left out, as are log lines. The counter of session ids has 64
bits and does not wrap.
-/

namespace Portfolio.Chat
open Std

/-! ### Sessions -/

structure WebSocketSession where
  isOpen : Bool := false
  read : ReadState String := .accepting
  /-- The handlers that `send` has posted, by their messages. -/
  posted : List String := []
  writeQueue : List String := []
  writePending : Bool := false
  joinedRooms : TreeSet String := ∅
  sessionId : String
  nickname : String

/-- How an `async_write` completes. -/
inductive WriteResult where
  | ok
  | aborted
  | failed
  deriving DecidableEq, Repr

namespace WebSocketSession

/-- `WebSocketSession::WebSocketSession`, for the id `c`. -/
def new (c : Nat) : WebSocketSession where
  sessionId := "user-" ++ toString c
  nickname := "user-" ++ toString c

/-- Some handler still holds the session. -/
def alive (x : WebSocketSession) : Bool := x.read ≠ .idle || !x.posted.isEmpty || x.writePending

/-- The handler that `send` posts. -/
def runPosted (x : WebSocketSession) : WebSocketSession :=
  match x.posted with
  | [] => x
  | message :: posted =>
    let x := { x with posted := posted }
    if !x.isOpen then x
    else
      let x := { x with writeQueue := x.writeQueue ++ [message] }
      if 1 < x.writeQueue.length then x else { x with writePending := true }

/-- `on_write` without an error. -/
def onWrite (x : WebSocketSession) : WebSocketSession :=
  let x := { x with writeQueue := x.writeQueue.tail }
  { x with writePending := !x.writeQueue.isEmpty }

end WebSocketSession

/-! ### The server -/

structure WebSocketServer where
  heap : Nat → Option WebSocketSession := fun _ => none
  nextSessionId : Nat := 1
  sessions : List Nat := []
  rooms : TreeMap String (List Nat) := ∅

namespace WebSocketServer

def modifySession (s : WebSocketServer) (c : Nat) (f : WebSocketSession → WebSocketSession) :
    WebSocketServer :=
  { s with heap := Function.update s.heap c ((s.heap c).map f) }

/-- `weak_ptr::lock` succeeds. -/
def lock (s : WebSocketServer) (c : Nat) : Bool := (s.heap c).any (·.alive)

def nickname (s : WebSocketServer) (c : Nat) : String := ((s.heap c).map (·.nickname)).getD ""

def joinedRooms (s : WebSocketServer) (c : Nat) : TreeSet String := ((s.heap c).map (·.joinedRooms)).getD ∅

def send (s : WebSocketServer) (c : Nat) (message : String) : WebSocketServer :=
  s.modifySession c fun x => { x with posted := x.posted ++ [message] }

def registerSession (s : WebSocketServer) (c : Nat) : WebSocketServer :=
  { s with sessions := s.sessions ++ [c] }

def unregisterSession (s : WebSocketServer) (c : Nat) : WebSocketServer :=
  { s with sessions := s.sessions.filter fun d => s.lock d && d ≠ c }

def isNicknameAvailable (s : WebSocketServer) (name : String) (self : Nat) : Bool :=
  s.sessions.all fun d => !(s.lock d && d ≠ self && s.nickname d = name)

/-! #### Rooms -/

/-- `Room::cleanup_locked` -/
def cleanup (s : WebSocketServer) (members : List Nat) : List Nat := members.filter s.lock

/-- `cleanup_locked` on the room `room`, which `member_count` and `members_snapshot` call. -/
def cleanupRoom (s : WebSocketServer) (room : String) : WebSocketServer :=
  { s with rooms := s.rooms.modify room s.cleanup }

/-- `Room::join` on the members. -/
def joinMembers (s : WebSocketServer) (c : Nat) (members : List Nat) : List Nat :=
  (s.cleanup members).filter (· ≠ c) ++ [c]

/-- `get_or_create_room` and `Room::join`. -/
def joinRoom (s : WebSocketServer) (c : Nat) (room : String) : WebSocketServer :=
  { s with rooms := s.rooms.insert room (s.joinMembers c (s.rooms.getD room [])) }

/-- `Room::leave` and `remove_room_if_empty`. -/
def leaveRoom (s : WebSocketServer) (c : Nat) (room : String) : WebSocketServer :=
  match s.rooms[room]? with
  | none => s
  | some members =>
    let members := (s.cleanup members).filter (· ≠ c)
    if members.isEmpty then { s with rooms := s.rooms.erase room }
    else { s with rooms := s.rooms.insert room members }

/-- `Room::broadcast`; without a sender everybody gets the message. -/
def broadcastToRoom (s : WebSocketServer) (room message : String) (sender : Option Nat) : WebSocketServer :=
  match s.rooms[room]? with
  | none => s
  | some members =>
    let recipients := (s.cleanup members).filter fun d => some d ≠ sender
    recipients.foldl (fun s d => s.send d message) (s.cleanupRoom room)

def buildRoomList (s : WebSocketServer) : WebSocketServer × String :=
  let snapshot := (s.rooms.toList.map fun e => (e.1, (s.cleanup e.2).length)).filter fun e => 0 < e.2
  ({ s with rooms := s.rooms.map fun _ => s.cleanup },
    ",".intercalate (snapshot.map fun e => e.1 ++ ":" ++ toString e.2))

def buildMemberList (s : WebSocketServer) (room : String) : WebSocketServer × Option String :=
  match s.rooms[room]? with
  | none => (s, none)
  | some members => (s.cleanupRoom room, some (",".intercalate ((s.cleanup members).map s.nickname)))

end WebSocketServer

/-! ### Commands -/

/-- What `handle_command` finds in a payload; an error is answered with its message. -/
inductive Command where
  | join (room : String)
  | leave (room : String)
  | message (room text : String)
  | nick (name : String)
  | listRooms
  | listMembers (room : String)
  | error (message : String)
  deriving DecidableEq, Repr

/-- The dispatch of `handle_command` on the fields. -/
def Command.ofFields (fields : TreeMap String String) : Command :=
  let withRoom (f : String → Command) (missing : String) : Command :=
    match fields["room"]? with
    | none => .error missing
    | some room => f room
  match fields["cmd"]? with
  | none => .error "Missing cmd field"
  | some cmd =>
    if cmd = "JOIN" then withRoom .join "JOIN requires room"
    else if cmd = "LEAVE" then withRoom .leave "LEAVE requires room"
    else if cmd = "MSG" then
      match fields["room"]?, fields["text"]? with
      | some room, some text => .message room text
      | _, _ => .error "MSG requires room and text"
    else if cmd = "NICK" then
      match fields["name"]? with
      | none => .error "NICK requires name"
      | some name => .nick name
    else if cmd = "LIST_ROOMS" then .listRooms
    else if cmd = "LIST_MEMBERS" then withRoom .listMembers "LIST_MEMBERS requires room"
    else .error "Unknown command"

def Command.ofPayload (payload : String) : Command :=
  match parseJsonObject payload with
  | (false, _) => .error "Invalid JSON payload"
  | (true, fields) => .ofFields fields

namespace WebSocketServer

def sendError (s : WebSocketServer) (c : Nat) (message : String) : WebSocketServer :=
  s.send c (makePayload "ERROR" [("message", message)])

/-- The message that the server itself writes to a room. -/
def announcement (room text : String) : String :=
  makePayload "MSG" [("room", room), ("from", "server"), ("text", text)]

def handleJoin (s : WebSocketServer) (c : Nat) (room : String) : WebSocketServer :=
  if room = "" then s.sendError c "Room cannot be empty"
  else if (s.joinedRooms c).contains room then s.sendError c "Already joined room"
  else
    let s := s.modifySession c fun x => { x with joinedRooms := x.joinedRooms.insert room }
    let s := (s.joinRoom c room).send c (makePayload "JOINED" [("room", room)])
    s.broadcastToRoom room (announcement room (s.nickname c ++ " joined the room")) (some c)

def handleLeave (s : WebSocketServer) (c : Nat) (room : String) : WebSocketServer :=
  if !(s.joinedRooms c).contains room then s.sendError c "Not a member of room"
  else
    let s := s.modifySession c fun x => { x with joinedRooms := x.joinedRooms.erase room }
    let s := (s.leaveRoom c room).send c (makePayload "LEFT" [("room", room)])
    s.broadcastToRoom room (announcement room (s.nickname c ++ " left the room")) (some c)

def handleMessage (s : WebSocketServer) (c : Nat) (room text : String) : WebSocketServer :=
  if room = "" then s.sendError c "Room cannot be empty"
  else if !(s.joinedRooms c).contains room then s.sendError c "Join room before sending"
  else
    let payload := makePayload "MSG" [("room", room), ("from", s.nickname c), ("text", text)]
    (s.send c payload).broadcastToRoom room payload (some c)

def handleNick (s : WebSocketServer) (c : Nat) (name : String) : WebSocketServer :=
  if name = "" then s.sendError c "Invalid nickname"
  else if !s.isNicknameAvailable name c then s.sendError c "Nickname already in use"
  else
    let old := s.nickname c
    let s := s.modifySession c fun x => { x with nickname := name }
    let s := s.send c (makePayload "NICK_OK" [("name", name)])
    (s.joinedRooms c).toList.foldl (fun s room =>
      s.broadcastToRoom room (announcement room (old ++ " is now known as " ++ name)) none) s

def handleListRooms (s : WebSocketServer) (c : Nat) : WebSocketServer :=
  let r := s.buildRoomList
  r.1.send c (makePayload "ROOM_LIST" [("rooms", r.2)])

def handleListMembers (s : WebSocketServer) (c : Nat) (room : String) : WebSocketServer :=
  if room = "" then s.sendError c "LIST_MEMBERS requires room"
  else match s.buildMemberList room with
    | (s, none) => s.sendError c "Room not found"
    | (s, some members) => s.send c (makePayload "MEMBER_LIST" [("room", room), ("members", members)])

def handleCommand (s : WebSocketServer) (c : Nat) : Command → WebSocketServer
  | .join room => s.handleJoin c room
  | .leave room => s.handleLeave c room
  | .message room text => s.handleMessage c room text
  | .nick name => s.handleNick c name
  | .listRooms => s.handleListRooms c
  | .listMembers room => s.handleListMembers c room
  | .error message => s.sendError c message

/-! ### Handlers -/

def doRead (s : WebSocketServer) (c : Nat) : WebSocketServer :=
  s.modifySession c fun x => { x with read := .reading }

/-- The reading side has no operation left. -/
def endRead (s : WebSocketServer) (c : Nat) : WebSocketServer :=
  s.modifySession c fun x => { x with read := .idle }

def leaveAllRooms (s : WebSocketServer) (c : Nat) : WebSocketServer :=
  let rooms := (s.joinedRooms c).toList
  let s := s.modifySession c fun x => { x with joinedRooms := ∅ }
  rooms.foldl (fun s room => (s.leaveRoom c room).broadcastToRoom room
    (announcement room (s.nickname c ++ " left the room")) (some c)) s

def onClose (s : WebSocketServer) (c : Nat) : WebSocketServer :=
  match s.heap c with
  | none => s
  | some x =>
    if !x.isOpen then s
    else ((s.modifySession c fun x => { x with isOpen := false }).leaveAllRooms c).unregisterSession c

def onAccept (s : WebSocketServer) (c : Nat) (ok : Bool) : WebSocketServer :=
  match s.heap c with
  | none => s
  | some x =>
    if x.read ≠ .accepting then s
    else if !ok then s.endRead c
    else
      let s := (s.modifySession c fun x => { x with isOpen := true }).registerSession c
      let s := s.send c (makePayload "INFO" [("message", "Welcome to the WebSocket chat!")])
      let s := s.send c (makePayload "INFO" [("message", "Connected as " ++ x.sessionId)])
      s.doRead c

def onRead (s : WebSocketServer) (c : Nat) : WebSocketServer :=
  match s.heap c with
  | none => s
  | some x => match x.read with
    | .completed none => (s.onClose c).endRead c
    | .completed (some payload) => (s.handleCommand c (.ofPayload payload)).doRead c
    | _ => s

def onWrite (s : WebSocketServer) (c : Nat) (result : WriteResult) : WebSocketServer :=
  match s.heap c with
  | none => s
  | some x =>
    if !x.writePending then s
    else match result with
      | .ok => s.modifySession c WebSocketSession.onWrite
      | .aborted => s.modifySession c fun x => { x with writePending := false }
      | .failed => (s.onClose c).modifySession c fun x => { x with writePending := false }

/-- An outstanding read completes. After the stream has failed it cannot succeed. -/
def arrive (s : WebSocketServer) (c : Nat) (result : Option String) : WebSocketServer :=
  s.modifySession c fun x =>
    if x.read = .reading ∧ (x.isOpen = true ∨ result = none) then { x with read := .completed result } else x

/-- `on_accept` of the server: a new session, whose stream is accepted next. -/
def connect (s : WebSocketServer) : WebSocketServer :=
  { s with
    heap := Function.update s.heap s.nextSessionId (some (.new s.nextSessionId))
    nextSessionId := s.nextSessionId + 1 }

end WebSocketServer

/-! ### Runs -/

/-- The handlers that the `io_context` may run, and the results that arrive for a read. -/
inductive Event where
  | connect
  | accepted (c : Nat) (ok : Bool)
  | arrive (c : Nat) (result : Option String)
  | read (c : Nat)
  | runPosted (c : Nat)
  | written (c : Nat) (result : WriteResult)
  deriving DecidableEq, Repr

def WebSocketServer.exec (s : WebSocketServer) : Event → WebSocketServer
  | .connect => s.connect
  | .accepted c ok => s.onAccept c ok
  | .arrive c result => s.arrive c result
  | .read c => s.onRead c
  | .runPosted c => s.modifySession c WebSocketSession.runPosted
  | .written c result => s.onWrite c result

def chatMachine : Machine WebSocketServer Event Unit where
  init := {}
  step s event := (s.exec event, [])

end Portfolio.Chat
