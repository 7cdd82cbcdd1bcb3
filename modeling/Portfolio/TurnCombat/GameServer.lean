import Portfolio.TurnCombat.GameState

/-!
# The turn-combat server

`GameServer`: the thread of `run`, which accepts two players and starts the battle, one thread of
`handle_client` for each of them and the thread of `GameLoop::run`. A step of a thread is one section
under a mutex or one call that blocks; `stop` is one step. The messages to the players are left out.
-/

namespace Portfolio.TurnCombat

/-- Where `run` is. -/
inductive AcceptPc where
  /-- The head of the loop: `running_` and the number of players are read. -/
  | entering
  | accepting
  /-- The session is in `players_`. -/
  | connected (playerId : Nat)
  /-- `add_or_update_player` is done. -/
  | joined (playerId : Nat)
  /-- The client thread is there. -/
  | counting
  /-- There are two players, `start_if_ready` is next. -/
  | starting
  /-- `start_if_ready` is done, the loop thread is next. -/
  | launching
  | left
  deriving DecidableEq, Repr

/-- Where a `handle_client` is. -/
inductive ClientPc where
  | reading
  /-- `QUIT` has marked the player, `stop` is next. -/
  | stopping
  | done
  deriving DecidableEq, Repr

/-- Where `GameLoop::run` is. -/
inductive LoopPc where
  /-- `running_` is set next. -/
  | begun
  | passing
  | processing
  | checking
  | finished
  deriving DecidableEq, Repr

/-- `GameLoop` and its thread. -/
structure LoopThread where
  pc : LoopPc := .begun
  running : Bool := false
  localQueue : List Int := []
  deriving DecidableEq, Repr

structure GameServer where
  running : Bool := true
  listening : Bool := true
  pc : AcceptPc := .entering
  /-- The names of `players_`; the id of a session is its index. -/
  players : List String := []
  clientThreads : List ClientPc := []
  state : GameState := {}
  commands : List Int := []
  loopThread : Option LoopThread := none
  deriving DecidableEq, Repr

namespace GameServer

def stop (s : GameServer) : GameServer :=
  if s.running then
    { s with
      running := false
      listening := false
      loopThread := s.loopThread.map fun l => { l with running := false } }
  else s

/-- The next step of `run`. A closed listener makes `accept` throw, which ends the loop. -/
def runStep (s : GameServer) : GameServer :=
  match s.pc with
  | .entering =>
    if !s.running then { s with pc := .left }
    else if 2 ≤ s.players.length then { s with pc := .left }
    else { s with pc := .accepting }
  | .accepting =>
    if s.listening then
      let playerId := s.players.length
      { s with
        players := s.players ++ ["Player " ++ toString (playerId + 1)]
        pc := .connected playerId }
    else { s with pc := .left }
  | .connected playerId =>
    { s with
      state := s.state.addOrUpdatePlayer playerId (s.players.getD playerId "")
      pc := .joined playerId }
  | .joined _ => { s with clientThreads := s.clientThreads ++ [.reading], pc := .counting }
  | .counting => { s with pc := if s.players.length = 2 then .starting else .entering }
  | .starting => { s with state := s.state.startIfReady, pc := .launching }
  | .launching =>
    { s with
      loopThread := some (s.loopThread.getD {})
      pc := .entering }
  | .left => s

/-- `accept` throws while the listener is open. -/
def acceptThrows (s : GameServer) : GameServer :=
  if s.pc = .accepting then { s with pc := .left } else s

/-- `handle_client` ends: the socket was closed or failed, or the server stopped. -/
def clientEnds (s : GameServer) (playerId : Nat) : GameServer :=
  if s.clientThreads[playerId]? = some .reading then
    { s with
      state := s.state.markPlayerDisconnected playerId
      clientThreads := s.clientThreads.set playerId .done }
  else s

/-- `ATTACK` -/
def clientAttacks (s : GameServer) (playerId : Nat) : GameServer :=
  if s.clientThreads[playerId]? = some .reading then { s with commands := s.commands ++ [(playerId : Int)] }
  else s

/-- `QUIT`, up to `stop`. -/
def clientQuits (s : GameServer) (playerId : Nat) : GameServer :=
  if s.clientThreads[playerId]? = some .reading then
    { s with
      state := s.state.markPlayerDisconnected playerId
      clientThreads := s.clientThreads.set playerId .stopping }
  else s

def clientStops (s : GameServer) (playerId : Nat) : GameServer :=
  if s.clientThreads[playerId]? = some .stopping then
    { s with clientThreads := s.clientThreads.set playerId .reading }.stop
  else s

/-- The next step of `GameLoop::run`; `draw` is the damage of an attack. -/
def loopStep (s : GameServer) (draw : Nat) : GameServer :=
  match s.loopThread with
  | none => s
  | some l => match l.pc with
    | .begun => { s with loopThread := some { l with running := true, pc := .passing } }
    | .passing =>
      if l.running then
        { s with
          commands := []
          loopThread := some { l with localQueue := s.commands, pc := .processing } }
      else { s with loopThread := some { l with pc := .finished } }
    | .processing => match l.localQueue with
      | attackerId :: rest =>
        { s with
          state := s.state.applyAttack attackerId draw
          loopThread := some { l with localQueue := rest } }
      | [] =>
        { s with
          state := s.state.advanceTick
          loopThread := some { l with pc := .checking } }
    | .checking =>
      { s with loopThread := some { l with running := l.running && !s.state.gameOver, pc := .passing } }
    | .finished => s

end GameServer

/-- What the threads and the signal handler can do. -/
inductive ServerStep where
  | run
  | acceptThrows
  | clientEnds (playerId : Nat)
  | clientAttacks (playerId : Nat)
  | clientQuits (playerId : Nat)
  | clientStops (playerId : Nat)
  | loop (draw : Nat)
  | signal
  deriving DecidableEq, Repr

def ServerStep.exec (s : GameServer) : ServerStep → GameServer
  | .run => s.runStep
  | .acceptThrows => s.acceptThrows
  | .clientEnds playerId => s.clientEnds playerId
  | .clientAttacks playerId => s.clientAttacks playerId
  | .clientQuits playerId => s.clientQuits playerId
  | .clientStops playerId => s.clientStops playerId
  | .loop draw => s.loopStep draw
  | .signal => s.stop

/-- The server from its construction, without outputs. -/
def serverMachine : Machine GameServer ServerStep Unit where
  init := {}
  step s a := (a.exec s, [])

end Portfolio.TurnCombat
