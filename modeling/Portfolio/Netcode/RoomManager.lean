import Mathlib.Data.List.Infix
import Portfolio.Lib.Redis
import Portfolio.Lib.Text

/-!
# `mini::RoomManager`

Rooms, sessions and checkpoints in Redis (`match/room_manager.cpp`). A call is one step at one time,
and its commands reach Redis; the texts of a command are C strings. Redis and the system clock go
together. Only `register_room` has two commands, and `beginRegister` is the first of them.
-/

namespace Portfolio.Netcode

/-- A time of the system clock in nanoseconds, to which the seconds of an `int` can be added. -/
structure SystemTime where
  ns : Nat
  inRange : ns + 2 ^ 31 * 10 ^ 9 < 2 ^ 63

structure RoomInfo where
  roomId : String
  addr : String
  playerCount : Int32
  maxPlayers : Int32
  isActive : Bool
  deriving DecidableEq

structure SessionInfo where
  playerId : String
  token : String
  expires : Int
  deriving DecidableEq, Repr

namespace RoomManager
open Redis (Reply)

def roomKey (roomId : String) : String := cStr ("room:" ++ roomId)

def sessionKey (token : String) : String := cStr ("session:" ++ token)

def checkpointKey (roomId : String) : String := cStr ("room:" ++ roomId ++ ":checkpoint")

/-! ### Rooms -/

/-- The `HMSET` of `register_room`. -/
def beginRegister (r : Redis) (now : Nat) (roomId addr : String) (maxPlayers : Int32) : Redis × Bool :=
  let fields := [("addr", cStr addr), ("max_players", toString maxPlayers.toInt), ("player_count", "0"),
    ("is_active", "1")]
  let (r, reply) := r.hmset now (roomKey roomId) fields
  (r, reply ≠ .error)

def registerRoom (r : Redis) (now : Nat) (roomId addr : String) (maxPlayers ttlSeconds : Int32) :
    Redis × Bool :=
  let fields := [("addr", cStr addr), ("max_players", toString maxPlayers.toInt), ("player_count", "0"),
    ("is_active", "1")]
  let (r, reply) := r.hmset now (roomKey roomId) fields
  if reply = .error then (r, false)
  else
    let (r, reply) := r.expire now (roomKey roomId) ttlSeconds.toInt
    (r, reply ≠ .error)

def updateRoomPlayers (r : Redis) (now : Nat) (roomId : String) (playerCount : Int32) : Redis × Bool :=
  let (r, reply) := r.hset now (roomKey roomId) [("player_count", toString playerCount.toInt)]
  (r, reply ≠ .error)

def stoi (value : String) : Option Int32 := (sto 32 value.toList).map Int32.ofInt

/-- One field of a room; `none` when `std::stoi` throws. -/
def readField (info : RoomInfo) (field value : String) : Option RoomInfo :=
  if field = "addr" then some { info with addr := value }
  else if field = "max_players" then (stoi value).map fun n => { info with maxPlayers := n }
  else if field = "player_count" then (stoi value).map fun n => { info with playerCount := n }
  else if field = "is_active" then (stoi value).map fun n : Int32 => { info with isActive := n ≠ 0 }
  else some info

/-- Fields and values in turn. -/
def readFields (info : RoomInfo) : List String → Option RoomInfo
  | field :: value :: rest => (readField info (cStr field) (cStr value)).bind (readFields · rest)
  | _ => some info

/-- `uninit` is what the members of a new `RoomInfo` happen to hold. -/
def getRoom (r : Redis) (now : Nat) (uninit : RoomInfo) (roomId : String) : Option RoomInfo :=
  match r.hgetall now (roomKey roomId) with
  | .array elements =>
    if elements = [] then none else readFields { uninit with roomId := roomId, addr := "" } elements
  | _ => none

/-- Every room has its own uninitialised members, and `rank` orders the keys in the reply. -/
def getAvailableRoom (r : Redis) (now : Nat) (rank : String → Nat) (uninit : String → RoomInfo) :
    Option RoomInfo :=
  match r.keys now "room:" rank with
  | .array keys => keys.findSome? fun key =>
    if ":checkpoint".toList <:+: (cStr key).toList then none
    else (getRoom r now (uninit key) (String.ofList ((cStr key).toList.drop 5))).filter fun info =>
      info.isActive && info.playerCount < info.maxPlayers
  | _ => none

/-! ### Sessions -/

def createSession (r : Redis) (now : SystemTime) (playerId token : String) (ttlSeconds : Int32) :
    Redis × Bool :=
  let expires : Int := (now.ns + ttlSeconds.toInt * 10 ^ 9).tdiv (10 ^ 9)
  let value := playerId ++ ":" ++ toString expires
  let (r, reply) := r.setex now.ns (sessionKey token) ttlSeconds.toInt (cStr value)
  (r, reply ≠ .error)

/-- A session from "player_id:expires". -/
def parseSession (token : String) (value : List Char) : Option SessionInfo :=
  match value.dropWhile (· ≠ ':') with
  | _ :: rest => (sto 64 rest).map fun expires =>
    { playerId := String.ofList (value.takeWhile (· ≠ ':')), token := token, expires := expires }
  | [] => none

def getSession (r : Redis) (now : SystemTime) (token : String) : Option SessionInfo :=
  match r.get now.ns (sessionKey token) with
  | .string text => (parseSession token (cStr text).toList).filter fun info =>
    ((now.ns / 10 ^ 9 : Nat) : Int) ≤ info.expires
  | _ => none

def deleteSession (r : Redis) (now : SystemTime) (token : String) : Redis × Bool :=
  let (r, reply) := r.del now.ns (sessionKey token)
  (r, match reply with
    | .integer n => 0 < n
    | _ => false)

/-! ### Checkpoints -/

/-- The bytes of a snapshot as the characters of a Redis string. -/
def bytesToText (bytes : List UInt8) : String := String.ofList (bytes.map fun b => Char.ofNat b.toNat)

def storeCheckpoint (r : Redis) (now : Nat) (roomId : String) (snapshot : List UInt8) (ttlSeconds : Int32) :
    Redis × Bool :=
  let (r, reply) := r.setex now (checkpointKey roomId) ttlSeconds.toInt (bytesToText snapshot)
  (r, reply ≠ .error)

def getCheckpoint (r : Redis) (now : Nat) (roomId : String) : Option (List UInt8) :=
  match r.get now (checkpointKey roomId) with
  | .string text => some (text.toList.map fun c => UInt8.ofNat c.toNat)
  | _ => none

/-- The calls that write. -/
inductive Call where
  | registerRoom (roomId addr : String) (maxPlayers ttlSeconds : Int32)
  | updateRoomPlayers (roomId : String) (playerCount : Int32)
  | createSession (playerId token : String) (ttlSeconds : Int32)
  | deleteSession (token : String)
  | storeCheckpoint (roomId : String) (snapshot : List UInt8) (ttlSeconds : Int32)

def Call.exec (r : Redis) (now : SystemTime) : Call → Redis
  | .registerRoom roomId addr maxPlayers ttlSeconds =>
    (RoomManager.registerRoom r now.ns roomId addr maxPlayers ttlSeconds).1
  | .updateRoomPlayers roomId playerCount => (RoomManager.updateRoomPlayers r now.ns roomId playerCount).1
  | .createSession playerId token ttlSeconds => (RoomManager.createSession r now playerId token ttlSeconds).1
  | .deleteSession token => (RoomManager.deleteSession r now token).1
  | .storeCheckpoint roomId snapshot ttlSeconds =>
    (RoomManager.storeCheckpoint r now.ns roomId snapshot ttlSeconds).1

/-- Redis after calls, each with its time. -/
def execCalls (r : Redis) (calls : List (SystemTime × Call)) : Redis :=
  calls.foldl (fun r call => call.2.exec r call.1) r

end RoomManager
end Portfolio.Netcode
