import Portfolio.Arena.PlayerProfileService

/-!
# `arena60::WebSocketServer`

The server as `main` assembles it: a session, and a profile service behind the match-completed
callback. What `BroadcastState` queues for the clients is left out; connections do not matter here.
-/

namespace Portfolio.Arena

structure WebSocketServer (α β : Type) where
  session : GameSession α
  profiles : PlayerProfileService β
  lastBroadcastTick : Nat := 0

section
variable {α β : Type} [Scalar α] [LeaderboardStore β] (update : Int → Int → EloRatingUpdate)

/-- The session inside `BroadcastState`, after its tick, and the deaths that it reports. -/
def WebSocketServer.report (server : WebSocketServer α β) (order : List String) (tick : Nat) (dt : α) :
    GameSession α × List CombatEvent :=
  let r := (server.session.tick order tick dt).1.consumeDeathEvents
  (r.1, r.2.filter (·.type = .death))

/-- `order` is the iteration order of `players_` in this tick; the list holds the reported deaths. -/
def WebSocketServer.broadcastState (server : WebSocketServer α β) (order : List String) (tick : Nat)
    (dt : α) : WebSocketServer α β × List CombatEvent :=
  let r := server.report order tick dt
  let completedMatches := r.2.map (MatchStatsCollector.collect · r.1)
  ({ session := r.1
     profiles := completedMatches.foldl (PlayerProfileService.recordMatch update) server.profiles
     lastBroadcastTick := tick }, r.2)

/-- What happens to a server. -/
inductive ServerOp (α : Type) where
  | upsertPlayer (id : String)
  | removePlayer (id : String)
  | applyInput (id : String) (input : MovementInput α) (dt : α)
  | broadcastState (order : List String) (tick : Nat) (dt : α)

def ServerOp.exec (server : WebSocketServer α β) : ServerOp α → WebSocketServer α β × List CombatEvent
  | .upsertPlayer id => ({ server with session := server.session.upsertPlayer id }, [])
  | .removePlayer id => ({ server with session := server.session.removePlayer id }, [])
  | .applyInput id input dt => ({ server with session := (server.session.applyInput id input dt).1 }, [])
  | .broadcastState order tick dt => server.broadcastState update order tick dt

variable (α) in
/-- A server from its start, with the given leaderboard; the outputs are the reported deaths. -/
def serverMachine (leaderboard : Option β) : Machine (WebSocketServer α β) (ServerOp α) CombatEvent where
  init := { session := .new, profiles := { leaderboard := leaderboard } }
  step := ServerOp.exec update

end

end Portfolio.Arena
