import Portfolio.Arena.Matchmaker
import Portfolio.Arena.WebSocketServer
import Portfolio.Lib.Text

/-!
# Connections of the arena server

`WebSocketServer::ClientSession` and the registration of clients, wired to the matchmaker as `main`
does. Every handler of the `io_context` is one step. `ClientSession` objects live in `heap`, by the
number of their connection, and are kept alive by their outstanding operations. An asynchronous read
completes in two steps: its result arrives, which queues the handler, and the handler runs.

The streams and the texts of outgoing messages are left out. `connection_count_` counts open sockets,
whose descriptors are of type `int`, so its 32 bits do not wrap. `readInput` extracts the numbers of a
frame, as `operator>>` does.
-/

namespace Portfolio.Arena
open Std

/-! ### Input frames -/

/-- `operator>>` into a string: the next word, or failure at the end of the input. -/
def extractWord (cs : List Char) : Option (String × List Char) :=
  let cs := cs.dropWhile isSpace
  let word := cs.takeWhile fun c => !isSpace c
  if word.isEmpty then none else some (String.ofList word, cs.dropWhile fun c => !isSpace c)

def parseInputFrame {α : Type} (readInput : List Char → Option (MovementInput α)) (data : String) :
    Option (String × MovementInput α) :=
  match extractWord data.toList with
  | none => none
  | some (type, rest) =>
    if type ≠ "input" then none
    else match extractWord rest with
      | none => none
      | some (playerId, rest) => (readInput rest).map (playerId, ·)

/-! ### Client sessions -/

/-- A message that waits to be sent. -/
inductive Outgoing (α : Type) where
  | state (state : PlayerState α) (tick : Nat) (delta : α)
  | death (playerId : String) (tick : Nat)

/-- The outstanding operation on the reading side: none, `async_accept`, `async_read`, or the handler
of a finished read with the data it got, if it did not fail. -/
inductive ReadState where
  | idle
  | accepting
  | reading
  | completed (result : Option String)
  deriving DecidableEq

structure ClientSession (α : Type) where
  playerId : String := ""
  closed : Bool := false
  read : ReadState := .accepting
  posted : List (Outgoing α) := []
  writeQueue : List (Outgoing α) := []
  writing : Bool := false
  writePending : Bool := false

namespace ClientSession
variable {α : Type}

/-- Some handler still holds the session. -/
def alive (client : ClientSession α) : Bool :=
  client.read ≠ .idle || !client.posted.isEmpty || client.writePending

def close (client : ClientSession α) : ClientSession α := { client with closed := true }

def setPlayerId (playerId : String) (client : ClientSession α) : ClientSession α :=
  { client with playerId := playerId }

def setRead (read : ReadState) (client : ClientSession α) : ClientSession α := { client with read := read }

def doWrite (client : ClientSession α) : ClientSession α :=
  if client.writeQueue.isEmpty then { client with writing := false }
  else { client with writePending := true }

def queueMessage (client : ClientSession α) (message : Outgoing α) : ClientSession α :=
  let pushed := { client with writeQueue := client.writeQueue ++ [message] }
  if client.writing then pushed else doWrite { pushed with writing := true }

/-- The handler that `EnqueueState` and `EnqueueDeath` post. -/
def runPosted (client : ClientSession α) : ClientSession α :=
  match client.posted with
  | [] => client
  | message :: posted => queueMessage { client with posted := posted } message

/-- `OnWrite` without an error. -/
def onWrite (client : ClientSession α) : ClientSession α :=
  let popped := { client with writePending := false, writeQueue := client.writeQueue.tail }
  if popped.writeQueue.isEmpty then { popped with writing := false } else doWrite popped

end ClientSession

/-! ### The server -/

structure ConnectionServer (α β : Type) where
  base : WebSocketServer α β
  heap : Nat → Option (ClientSession α) := fun _ => none
  nextConn : Nat := 0
  clients : TreeMap String Nat := ∅
  connectionCount : Nat := 0
  matchmaker : Matchmaker α
  /-- An exception left `io_context.run()`, and with it `main`. -/
  down : Bool := false

namespace ConnectionServer
variable {α β : Type}

def setClient (s : ConnectionServer α β) (c : Nat) (f : ClientSession α → ClientSession α) :
    ConnectionServer α β :=
  { s with heap := Function.update s.heap c ((s.heap c).map f) }

def setSession (s : ConnectionServer α β) (session : GameSession α) : ConnectionServer α β :=
  { s with base := { s.base with session := session } }

/-- `weak_ptr::lock` -/
def lock (s : ConnectionServer α β) (c : Nat) : Option Nat :=
  match s.heap c with
  | none => none
  | some client => if client.alive then some c else none

def playerId (s : ConnectionServer α β) (c : Nat) : String :=
  match s.heap c with
  | none => ""
  | some client => client.playerId

section
variable [Scalar α]

def unregisterClient (s : ConnectionServer α β) (playerId : String) : ConnectionServer α β :=
  let s := match s.clients[playerId]? with
    | none => s
    | some _ =>
      { s with clients := s.clients.erase playerId, connectionCount := s.connectionCount - 1 }
  { s.setSession (s.base.session.removePlayer playerId) with
    matchmaker := (s.matchmaker.cancel playerId).1 }

/-- `ClientSession::Stop` -/
def stop (s : ConnectionServer α β) (c : Nat) : ConnectionServer α β :=
  match s.heap c with
  | none => s
  | some client =>
    if client.closed then s
    else
      let s := s.setClient c ClientSession.close
      if client.playerId = "" then s else s.unregisterClient client.playerId

/-- The session that `RegisterClient` stops. -/
def previous (s : ConnectionServer α β) (playerId : String) : Option Nat :=
  (s.clients[playerId]?).bind s.lock

def stopPrevious (s : ConnectionServer α β) (playerId : String) : ConnectionServer α β :=
  match s.previous playerId with
  | none => s
  | some d => s.stop d

/-- The rest of `RegisterClient`; `now` is the clock at the call of the join handler. -/
def enroll (now : Int) (s : ConnectionServer α β) (playerId : String) (c : Nat) : ConnectionServer α β :=
  { s.setSession (s.base.session.upsertPlayer playerId) with
    clients := s.clients.insert playerId c
    connectionCount := s.connectionCount + 1
    matchmaker := s.matchmaker.enqueue { playerId := playerId, elo := 1200, enqueuedAt := now } }

def registerClient (now : Int) (s : ConnectionServer α β) (playerId : String) (c : Nat) :
    ConnectionServer α β :=
  (s.stopPrevious playerId).enroll now playerId c

omit [Scalar α] in
def readLoop (s : ConnectionServer α β) (c : Nat) : ConnectionServer α β :=
  s.setClient c (ClientSession.setRead .reading)

/-- The branch of `OnRead` for a session without an id. -/
def identify (now : Int) (s : ConnectionServer α β) (c : Nat) (playerId : String) : ConnectionServer α β :=
  if s.playerId c = "" then
    (s.setClient c (ClientSession.setPlayerId playerId)).registerClient now playerId c
  else s

/-- `ApplyInput` for the session's player; an exception ends the server. -/
def applyInput (targetDelta : α) (s : ConnectionServer α β) (c : Nat) (input : MovementInput α) :
    ConnectionServer α β :=
  let r := s.base.session.applyInput (s.playerId c) input targetDelta
  match r.2 with
  | .ok _ => (s.setSession r.1).readLoop c
  | .error _ => { s.setSession r.1 with down := true }

def onRead (readInput : List Char → Option (MovementInput α)) (targetDelta : α) (now : Int)
    (s : ConnectionServer α β) (c : Nat) (data : String) : ConnectionServer α β :=
  match parseInputFrame readInput data with
  | none => s.readLoop c
  | some (playerId, input) => (s.identify now c playerId).applyInput targetDelta c input

/-- The handler of `async_read`. -/
def handleRead (readInput : List Char → Option (MovementInput α)) (targetDelta : α) (now : Int)
    (s : ConnectionServer α β) (c : Nat) : ConnectionServer α β :=
  match s.heap c with
  | none => s
  | some client => match client.read with
    | .completed none => (s.setClient c (ClientSession.setRead .idle)).stop c
    | .completed (some data) => s.onRead readInput targetDelta now c data
    | _ => s

/-- The handler of `async_accept` of the stream. -/
def handleAccept (s : ConnectionServer α β) (c : Nat) (ok : Bool) : ConnectionServer α β :=
  match s.heap c with
  | none => s
  | some client => match client.read with
    | .accepting =>
      if ok then s.readLoop c else (s.setClient c (ClientSession.setRead .idle)).stop c
    | _ => s

/-- The handler of `async_write`. -/
def handleWrite (s : ConnectionServer α β) (c : Nat) (ok : Bool) : ConnectionServer α β :=
  match s.heap c with
  | none => s
  | some client =>
    if !client.writePending then s
    else if ok then s.setClient c ClientSession.onWrite
    else (s.setClient c fun client => { client with writePending := false }).stop c

omit [Scalar α] in
/-- An outstanding read completes. After the stream is closed it can only fail. -/
def arrive (s : ConnectionServer α β) (c : Nat) (result : Option String) : ConnectionServer α β :=
  s.setClient c fun client =>
    if client.read = .reading ∧ (client.closed = false ∨ result = none) then
      { client with read := .completed result }
    else client

omit [Scalar α] in
/-- `DoAccept`: a new connection, whose stream is accepted next. -/
def connect (s : ConnectionServer α β) : ConnectionServer α β :=
  { s with heap := Function.update s.heap s.nextConn (some {}), nextConn := s.nextConn + 1 }

omit [Scalar α] in
/-- The loop of `BroadcastState` over `clients_` erases expired pointers. -/
def dropExpired (s : ConnectionServer α β) : TreeMap String Nat :=
  (s.clients.toList.filter fun kv => (s.lock kv.2).isNone).foldl (fun m kv => m.erase kv.1) s.clients

omit [Scalar α] in
/-- What a broadcast posts to one client: its state, if `GetPlayer` finds it, and the deaths. -/
def messages (session : GameSession α) (deaths : List CombatEvent) (tick : Nat) (dt : α)
    (client : ClientSession α) : List (Outgoing α) :=
  ((session.players[client.playerId]?).map fun r => .state r.state tick dt).toList ++
    deaths.map fun event => .death event.targetId event.tick

def broadcastState [LeaderboardStore β] (update : Int → Int → EloRatingUpdate) (s : ConnectionServer α β)
    (order : List String) (tick : Nat) (dt : α) : ConnectionServer α β :=
  let r := s.base.broadcastState update order tick dt
  let clients := s.dropExpired
  let alive := clients.toList.map (·.2)
  { s with
    base := r.1
    clients := clients
    heap := fun c => (s.heap c).map fun client =>
      if c ∈ alive then { client with posted := client.posted ++ messages r.1.session r.2 tick dt client }
      else client }

end
end ConnectionServer

/-! ### Runs -/

/-- The handlers that the `io_context` may run, and the results that arrive for a read. -/
inductive ConnectionEvent (α : Type) where
  | connect
  | accepted (c : Nat) (ok : Bool)
  | arrive (c : Nat) (result : Option String)
  | read (c : Nat) (now : Int)
  | runPosted (c : Nat)
  | written (c : Nat) (ok : Bool)
  | tick (order : List String) (tick : Nat) (dt : α)
  | matching (now : Int)

section
variable {α β : Type} [Scalar α] [LeaderboardStore β] (conv : SecondsConv α)
  (sort : List QueuedPlayer → List QueuedPlayer) (update : Int → Int → EloRatingUpdate)
  (readInput : List Char → Option (MovementInput α)) (targetDelta : α)

namespace ConnectionServer

def new (leaderboard : Option β) : ConnectionServer α β where
  base := { session := .new, profiles := { leaderboard := leaderboard } }
  matchmaker := .new

/-- The session that the read handler of `c` replaces, if it does. -/
def takeover (s : ConnectionServer α β) (c : Nat) : Option Nat :=
  match s.heap c with
  | none => none
  | some client => match client.read with
    | .completed (some data) =>
      if client.playerId = "" then (parseInputFrame readInput data).bind fun frame => s.previous frame.1
      else none
    | _ => none

def exec (s : ConnectionServer α β) : ConnectionEvent α → ConnectionServer α β
  | .connect => s.connect
  | .accepted c ok => s.handleAccept c ok
  | .arrive c result => s.arrive c result
  | .read c now => s.handleRead readInput targetDelta now c
  | .runPosted c => s.setClient c ClientSession.runPosted
  | .written c ok => s.handleWrite c ok
  | .tick order tick dt => s.broadcastState update order tick dt
  | .matching now => { s with matchmaker := (s.matchmaker.runMatching conv sort now).1 }

/-- One step; it reports the session that `RegisterClient` stopped in it. -/
def step (s : ConnectionServer α β) (event : ConnectionEvent α) : ConnectionServer α β × List Nat :=
  if s.down then (s, [])
  else (s.exec conv sort update readInput targetDelta event,
    match event with
    | .read c _ => (s.takeover readInput c).toList
    | _ => [])

end ConnectionServer

def connectionMachine (leaderboard : Option β) :
    Machine (ConnectionServer α β) (ConnectionEvent α) Nat where
  init := .new leaderboard
  step := ConnectionServer.step conv sort update readInput targetDelta

end

end Portfolio.Arena
