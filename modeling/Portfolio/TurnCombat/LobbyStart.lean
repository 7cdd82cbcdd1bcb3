import Portfolio.TurnCombat.GameServer

/-!
# Starting the battle

`run` counts the sessions, `start_if_ready` the players that are still connected, and it is called
once. `Inv` follows both: until the start every player is connected if and only if no client thread
has ended or quit so far (`Stays`), and after the start this is what decides whether the battle ever
runs.
-/

namespace Portfolio.TurnCombat

/-! ### Operations on the state -/

namespace GameState
variable {s : GameState}

/-- Running or over: the exit condition of `GameLoop::run` can still be reached. -/
def Live (s : GameState) : Prop := s.running = true ∨ s.gameOver = true

instance (s : GameState) : Decidable s.Live := inferInstanceAs (Decidable (_ ∨ _))

/-- Every player is at the index of its id. -/
def Placed (players : List Player) : Prop := ∀ (i : Nat) (p : Player), players[i]? = some p → p.id = i

theorem Placed.concat {players : List Player} (h : Placed players) {p : Player}
    (hp : p.id = players.length) : Placed (players ++ [p]) := by
  intro i q hq
  rw [List.getElem?_append] at hq
  split at hq
  · exact h i q hq
  · obtain ⟨hi, rfl⟩ := List.getElem?_eq_some_iff.1 hq
    simp only [List.length_singleton] at hi
    have : i = players.length := by omega
    simpa [this] using hp

theorem Placed.modify {players : List Player} (h : Placed players) (i : Nat) {f : Player → Player}
    (hf : ∀ p, (f p).id = p.id) : Placed (players.modify i f) := by
  intro j q hq
  rw [List.getElem?_modify] at hq
  obtain ⟨p, hp, rfl⟩ := Option.map_eq_some_iff.1 hq
  split
  · rw [hf]
    exact h j p hp
  · exact h j p hp

theorem Placed.indexForPlayer (h : Placed s.players) {i : Nat} (hi : i < s.players.length) :
    s.indexForPlayer i = some i := by
  rw [GameState.indexForPlayer, List.findIdx?_eq_some_iff_getElem]
  refine ⟨hi, by simpa using h i _ (List.getElem?_eq_getElem hi), fun j hj => ?_⟩
  have := h j _ (List.getElem?_eq_getElem (Nat.lt_trans hj hi))
  simp only [this, decide_eq_true_eq, Int.natCast_inj]
  omega

/-- A new player takes the next place. -/
theorem addOrUpdatePlayer_players (s : GameState) (name : String) :
    (s.addOrUpdatePlayer s.players.length name).players =
      s.players ++ [{ id := s.players.length, name := name, health := 100, connected := true }] := by
  have hone : s.players.length + 1 - s.players.length = 1 := by omega
  simp only [addOrUpdatePlayer, hone, List.replicate_one]
  refine List.ext_getElem? fun i => ?_
  rw [List.getElem?_modify]
  by_cases hi : s.players.length = i
  · subst hi
    simp
  · simp only [hi, if_false, Option.map_eq_map, Option.map_id', List.getElem?_append]
    split
    · rfl
    · have : i - s.players.length ≠ 0 := by omega
      simp [this]

/-- Marking a player of a battle that has not begun. -/
theorem markPlayerDisconnected_idle (h : Placed s.players) (hs : ¬ s.Live) {i : Nat}
    (hi : i < s.players.length) :
    s.markPlayerDisconnected i = { s with players := s.players.modify i (Player.setConnected false) } := by
  have hrun : s.running = false := Bool.eq_false_iff.2 fun hr => hs (.inl hr)
  simp [markPlayerDisconnected, h.indexForPlayer hi, List.getElem?_eq_getElem hi, hrun]

theorem markPlayerDisconnected_live (s : GameState) (id : Int) :
    (s.markPlayerDisconnected id).Live ↔ s.Live := by
  unfold markPlayerDisconnected
  split
  · rfl
  split
  · rfl
  dsimp only
  split
  · rename_i hrun
    simp only [Bool.and_eq_true] at hrun
    exact ⟨fun _ => .inl hrun.1, fun _ => .inr rfl⟩
  · rfl

/-- Two players in the lobby make a battle if and only if both are connected. -/
theorem startIfReady_live (h : Placed s.players) (hlen : s.players.length = 2) (hs : ¬ s.Live) :
    s.startIfReady.Live ↔ ∀ p ∈ s.players, p.connected = true := by
  have hidle : (s.running || s.gameOver) = false := by
    simpa [Live] using hs
  have hids : ∀ p ∈ s.players, 0 ≤ p.id := by
    intro p hp
    obtain ⟨i, hi⟩ := List.mem_iff_getElem?.1 hp
    rw [h i p hi]
    exact Int.natCast_nonneg i
  have hall : (s.players.all fun p => decide (0 ≤ p.id) && p.connected) = true ↔
      ∀ p ∈ s.players, p.connected = true := by
    simp only [List.all_eq_true, Bool.and_eq_true, decide_eq_true_eq]
    exact ⟨fun h p hp => (h p hp).2, fun h p hp => ⟨hids p hp, h p hp⟩⟩
  rw [startIfReady, hidle, if_neg Bool.false_ne_true, if_neg (by omega)]
  split
  · rename_i hc
    exact ⟨fun _ => hall.1 hc, fun _ => .inl rfl⟩
  · rename_i hc
    exact ⟨fun hl => absurd hl hs, fun hc' => absurd (hall.2 hc') hc⟩

theorem applyAttack_live (s : GameState) (attackerId : Int) (draw : Nat) :
    (s.applyAttack attackerId draw).Live ↔ s.Live := by
  unfold applyAttack
  split
  · rfl
  rename_i hduel
  have hrun : s.Live := by
    unfold duel at hduel
    split at hduel
    · cases hduel
    · rename_i hguard
      simp only [Bool.or_eq_true, Bool.not_eq_true', not_or, Bool.not_eq_false] at hguard
      exact .inl hguard.1.1
  dsimp only
  split
  · exact ⟨fun _ => hrun, fun _ => .inr rfl⟩
  · rfl

theorem advanceTick_live (s : GameState) : s.advanceTick.Live ↔ s.Live := by
  unfold advanceTick
  split
  · rfl
  rename_i hguard
  simp only [Bool.or_eq_true, Bool.not_eq_true', not_or, Bool.not_eq_false] at hguard
  split
  · rfl
  · exact ⟨fun _ => .inl hguard.1, fun _ => .inr rfl⟩

end GameState

/-! ### The invariant -/

/-- Sessions whose player is not in the state yet. -/
def AcceptPc.unjoined : AcceptPc → Nat
  | .connected _ => 1
  | _ => 0

/-- Sessions whose client thread is not there yet. -/
def AcceptPc.unattended : AcceptPc → Nat
  | .connected _ | .joined _ => 1
  | _ => 0

/-- No session is on its way in and the loop thread is not about to be started. -/
def AcceptPc.quiet : AcceptPc → Bool
  | .connected _ | .joined _ | .launching => false
  | _ => true

/-- A session is on its way in, up to the count that follows it. -/
def AcceptPc.incoming : AcceptPc → Bool
  | .connected _ | .joined _ | .counting => true
  | _ => false

theorem AcceptPc.unattended_of_quiet {pc : AcceptPc} (h : pc.quiet = true) :
    pc.unattended = 0 ∧ pc.unjoined = 0 := by
  cases pc with
  | connected | joined => cases h
  | _ => exact ⟨rfl, rfl⟩

namespace GameServer
open GameState

/-- `start_if_ready` was called. -/
def Launched (s : GameServer) : Prop := s.pc = .launching ∨ s.loopThread.isSome = true

instance (s : GameServer) : Decidable s.Launched := inferInstanceAs (Decidable (_ ∨ _))

/-- `run` has left its accept loop with two players. -/
def LeftWithTwo (s : GameServer) : Prop := s.pc = .left ∧ s.players.length = 2

instance (s : GameServer) : Decidable s.LeftWithTwo := inferInstanceAs (Decidable (_ ∧ _))

/-- A client thread that ends or quits does so after `start_if_ready`. -/
def Stays (s : GameServer) : ServerStep → Prop
  | .clientEnds playerId => s.clientThreads[playerId]? = some .reading → s.Launched
  | .clientQuits playerId => s.clientThreads[playerId]? = some .reading → s.Launched
  | _ => True

/-- Before the start. -/
structure Waiting (stayed : Prop) (s : GameServer) : Prop where
  idle : ¬ s.state.Live
  placed : Placed s.state.players
  joined : s.players.length = s.state.players.length + s.pc.unjoined
  connected : stayed ↔ ∀ p ∈ s.state.players, p.connected = true

structure Inv (stayed : Prop) (s : GameServer) : Prop where
  size : s.players.length ≤ 2
  threads : s.players.length = s.clientThreads.length + s.pc.unattended
  current : ∀ playerId, s.pc = .connected playerId → s.players.length = playerId + 1
  accepting : s.pc = .accepting → s.players.length < 2
  starting : s.pc = .starting → s.players.length = 2
  full : s.players.length = 2 → s.pc = .entering ∨ s.pc = .left → s.Launched
  pair : s.Launched → s.players.length = 2
  loop : s.loopThread.isSome = true → s.pc = .entering ∨ s.pc = .left
  waiting : ¬ s.Launched → Waiting stayed s
  launched : s.Launched → (stayed ↔ s.state.Live)

namespace Inv
variable {stayed : Prop} {s : GameServer}

theorem init : Inv True ({} : GameServer) where
  size := by decide
  threads := rfl
  current _ h := by cases h
  accepting h := by cases h
  starting h := by cases h
  full h := by cases h
  pair h := by revert h; decide
  loop h := by cases h
  waiting _ := ⟨by decide, fun i p h => by simp at h, rfl, by simp⟩
  launched h := by revert h; decide

/-- Steps that leave `run`, the players and the state alone. -/
theorem congr (h : Inv stayed s) {t : GameServer} (hpc : t.pc = s.pc) (hplayers : t.players = s.players)
    (hthreads : t.clientThreads.length = s.clientThreads.length) (hstate : t.state = s.state)
    (hloop : t.loopThread.isSome = s.loopThread.isSome) : Inv stayed t := by
  have hlaunched : t.Launched ↔ s.Launched := by rw [Launched, Launched, hpc, hloop]
  refine ⟨?_, ?_, ?_, ?_, ?_, ?_, ?_, ?_, fun hl => ?_, fun hl => ?_⟩
  · rw [hplayers]; exact h.size
  · rw [hplayers, hthreads, hpc]; exact h.threads
  · rw [hplayers, hpc]; exact h.current
  · rw [hplayers, hpc]; exact h.accepting
  · rw [hplayers, hpc]; exact h.starting
  · rw [hplayers, hpc, hlaunched]; exact h.full
  · rw [hplayers, hlaunched]; exact h.pair
  · rw [hloop, hpc]; exact h.loop
  · obtain ⟨hidle, hplaced, hjoined, hconn⟩ := h.waiting (mt hlaunched.2 hl)
    exact ⟨hstate ▸ hidle, hstate ▸ hplaced, by rw [hplayers, hstate, hpc]; exact hjoined,
      by rw [hstate]; exact hconn⟩
  · rw [hstate]
    exact h.launched (hlaunched.1 hl)

/-- Steps of the loop thread on the state, which is there after the start only. -/
theorem withState (h : Inv stayed s) (hl : s.Launched) {t : GameState} (ht : t.Live ↔ s.state.Live) :
    Inv stayed { s with state := t } where
  size := h.size
  threads := h.threads
  current := h.current
  accepting := h.accepting
  starting := h.starting
  full := h.full
  pair := h.pair
  loop := h.loop
  waiting hn := absurd hl hn
  launched hl := (h.launched hl).trans ht.symm

/-! ### Steps -/

theorem stop (h : Inv stayed s) : Inv stayed s.stop := by
  unfold GameServer.stop
  split
  · exact h.congr rfl rfl rfl rfl (by simp)
  · exact h

/-- A client thread marks its player, after the start or before it. -/
theorem mark (h : Inv stayed s) {i : Nat} (hi : s.clientThreads[i]? = some .reading)
    (place : ClientPc) :
    Inv (stayed ∧ s.Launched)
      { s with
        state := s.state.markPlayerDisconnected i
        clientThreads := s.clientThreads.set i place } := by
  refine ⟨h.size, by simpa using h.threads, h.current, h.accepting, h.starting, h.full, h.pair, h.loop,
    fun hn => ?_, fun hl => ?_⟩
  · -- Before the start the player's flag falls, and it never rises again.
    have hw := h.waiting hn
    have hlt : i < s.state.players.length := by
      have := (List.getElem?_eq_some_iff.1 hi).1
      have := h.threads
      have := hw.joined
      have : s.pc.unjoined ≤ s.pc.unattended := by
        cases s.pc <;> simp [AcceptPc.unjoined, AcceptPc.unattended]
      omega
    have heq := markPlayerDisconnected_idle hw.placed hw.idle hlt
    refine ⟨mt (markPlayerDisconnected_live _ _).1 hw.idle, ?_, ?_, ?_⟩
    · show Placed (s.state.markPlayerDisconnected i).players
      rw [heq]
      exact hw.placed.modify _ fun _ => rfl
    · show s.players.length = (s.state.markPlayerDisconnected i).players.length + s.pc.unjoined
      rw [heq, List.length_modify]
      exact hw.joined
    · refine ⟨fun hs => absurd hs.2 hn, fun hall => ?_⟩
      have hmem : Player.setConnected false s.state.players[i] ∈
          (s.state.markPlayerDisconnected i).players := by
        rw [heq]
        exact List.mem_iff_getElem?.2 ⟨i, by simp [List.getElem?_eq_getElem hlt]⟩
      exact absurd (hall _ hmem) Bool.false_ne_true
  · rw [and_iff_left (show s.Launched from hl)]
    exact (h.launched hl).trans (markPlayerDisconnected_live _ _).symm

theorem clientEnds (h : Inv stayed s) (i : Nat) :
    Inv (stayed ∧ (s.clientThreads[i]? = some .reading → s.Launched)) (s.clientEnds i) := by
  unfold GameServer.clientEnds
  split
  · rename_i hi
    simpa [hi] using h.mark hi .done
  · rename_i hi
    simpa [hi] using h

theorem clientQuits (h : Inv stayed s) (i : Nat) :
    Inv (stayed ∧ (s.clientThreads[i]? = some .reading → s.Launched)) (s.clientQuits i) := by
  unfold GameServer.clientQuits
  split
  · rename_i hi
    simpa [hi] using h.mark hi .stopping
  · rename_i hi
    simpa [hi] using h

theorem clientAttacks (h : Inv stayed s) (i : Nat) : Inv stayed (s.clientAttacks i) := by
  unfold GameServer.clientAttacks
  split
  · exact h.congr rfl rfl rfl rfl rfl
  · exact h

theorem clientStops (h : Inv stayed s) (i : Nat) : Inv stayed (s.clientStops i) := by
  unfold GameServer.clientStops
  split
  · have h' : Inv stayed { s with clientThreads := s.clientThreads.set i .reading } :=
      h.congr rfl rfl (by simp) rfl rfl
    exact h'.stop
  · exact h

theorem loopStep (h : Inv stayed s) (draw : Nat) : Inv stayed (s.loopStep draw) := by
  unfold GameServer.loopStep
  split
  · exact h
  rename_i l hl
  have hloop : s.loopThread.isSome = true := by rw [hl]; rfl
  split
  · exact h.congr rfl rfl rfl rfl (by rw [hloop]; rfl)
  · split
    · exact h.congr rfl rfl rfl rfl (by rw [hloop]; rfl)
    · exact h.congr rfl rfl rfl rfl (by rw [hloop]; rfl)
  · split
    · exact (h.withState (.inr hloop) (applyAttack_live ..)).congr rfl rfl rfl rfl (by rw [hloop]; rfl)
    · exact (h.withState (.inr hloop) (advanceTick_live _)).congr rfl rfl rfl rfl (by rw [hloop]; rfl)
  · exact h.congr rfl rfl rfl rfl (by rw [hloop]; rfl)
  · exact h

/-- `run` goes on without a change to the players. -/
theorem goto (h : Inv stayed s) {pc : AcceptPc} (hs : s.pc.quiet = true) (hpc : pc.quiet = true)
    (haccepting : pc = .accepting → s.players.length < 2)
    (hstarting : pc = .starting → s.players.length = 2)
    (hfull : s.players.length = 2 → pc = .entering ∨ pc = .left → s.Launched)
    (hloop : s.loopThread.isSome = true → pc = .entering ∨ pc = .left) :
    Inv stayed { s with pc := pc } := by
  obtain ⟨hattended, hjoined⟩ := AcceptPc.unattended_of_quiet hs
  obtain ⟨hattended', hjoined'⟩ := AcceptPc.unattended_of_quiet hpc
  have hlaunching : s.pc ≠ .launching := by
    intro heq
    rw [heq] at hs
    cases hs
  have hlaunching' : pc ≠ .launching := by
    rintro rfl
    cases hpc
  have hlaunched : ({ s with pc := pc } : GameServer).Launched ↔ s.Launched := by
    simp [Launched, hlaunching, hlaunching']
  have hthreads := h.threads
  rw [hattended, ← hattended'] at hthreads
  refine ⟨h.size, hthreads, fun i hi => ?_, haccepting, hstarting, ?_, ?_, hloop, fun hl => ?_,
    fun hl => h.launched (hlaunched.1 hl)⟩
  · obtain rfl : pc = .connected i := hi
    cases hpc
  · rw [hlaunched]
    exact hfull
  · rw [hlaunched]
    exact h.pair
  · obtain ⟨hidle, hplaced, hj, hconn⟩ := h.waiting (mt hlaunched.2 hl)
    rw [hjoined, ← hjoined'] at hj
    exact ⟨hidle, hplaced, hj, hconn⟩

/-- Only `entering` and `left` come after the start of the loop thread. -/
theorem loopThread_eq_none (h : Inv stayed s) (hentering : s.pc ≠ .entering) (hleft : s.pc ≠ .left) :
    s.loopThread = none := by
  cases hl : s.loopThread with
  | none => rfl
  | some l =>
    have := h.loop (by rw [hl]; rfl)
    tauto

theorem not_launched (h : Inv stayed s) (hentering : s.pc ≠ .entering) (hleft : s.pc ≠ .left)
    (hlaunching : s.pc ≠ .launching) : ¬ s.Launched := by
  simp [Launched, hlaunching, h.loopThread_eq_none hentering hleft]

theorem acceptThrows (h : Inv stayed s) (hpc : s.pc = .accepting) :
    Inv stayed { s with pc := .left } := by
  have hlt := h.accepting hpc
  exact h.goto (by rw [hpc]; rfl) rfl (by simp) (by simp) (by omega) (by simp)

/-- Before the start there is no loop thread, and the players wait. -/
theorem before (h : Inv stayed s) {pc : AcceptPc} (hpc : s.pc = pc) (hentering : pc ≠ .entering)
    (hleft : pc ≠ .left) (hlaunching : pc ≠ .launching) :
    s.loopThread = none ∧ Waiting stayed s ∧
      s.players.length = s.clientThreads.length + pc.unattended ∧
      s.players.length = s.state.players.length + pc.unjoined := by
  subst hpc
  have hw := h.waiting (h.not_launched hentering hleft hlaunching)
  exact ⟨h.loopThread_eq_none hentering hleft, hw, h.threads, hw.joined⟩

/-- What is left of the invariant while a session is on its way in. -/
theorem of_incoming {t : GameServer} (hpc : t.pc.incoming = true) (hnone : t.loopThread = none)
    (hsize : t.players.length ≤ 2)
    (hthreads : t.players.length = t.clientThreads.length + t.pc.unattended)
    (hcurrent : ∀ playerId, t.pc = .connected playerId → t.players.length = playerId + 1)
    (hw : Waiting stayed t) : Inv stayed t := by
  have hne : ∀ pc, pc.incoming = false → t.pc ≠ pc := by
    rintro pc hfalse rfl
    rw [hpc] at hfalse
    cases hfalse
  have hlaunched : ¬ t.Launched := by
    simp [Launched, hne .launching rfl, hnone]
  exact {
    size := hsize
    threads := hthreads
    current := hcurrent
    accepting := fun hc => absurd hc (hne _ rfl)
    starting := fun hc => absurd hc (hne _ rfl)
    full := fun _ hc => absurd hc (not_or.2 ⟨hne _ rfl, hne _ rfl⟩)
    pair := fun hl => absurd hl hlaunched
    loop := fun hs => by simp [hnone] at hs
    waiting := fun _ => hw
    launched := fun hl => absurd hl hlaunched }

theorem accept (h : Inv stayed s) (hpc : s.pc = .accepting) (name : String) :
    Inv stayed { s with players := s.players ++ [name], pc := .connected s.players.length } := by
  have hlt := h.accepting hpc
  obtain ⟨hnone, hw, hthreads, hjoined⟩ := h.before hpc (by simp) (by simp) (by simp)
  refine of_incoming rfl hnone ?_ ?_ (fun i hi => ?_) ⟨hw.idle, hw.placed, ?_, hw.connected⟩
  · rw [List.length_append]
    exact hlt
  · rw [List.length_append, hthreads]
    rfl
  · cases hi
    simp
  · rw [List.length_append, hjoined]
    rfl

theorem join (h : Inv stayed s) {playerId : Nat} (hpc : s.pc = .connected playerId) (name : String) :
    Inv stayed { s with state := s.state.addOrUpdatePlayer playerId name, pc := .joined playerId } := by
  have hcurrent := h.current playerId hpc
  obtain ⟨hnone, hw, hthreads, hjoined⟩ := h.before hpc (by simp) (by simp) (by simp)
  obtain rfl : playerId = s.state.players.length := by
    have : s.players.length = s.state.players.length + 1 := hjoined
    omega
  refine of_incoming rfl hnone h.size hthreads (fun i hi => by cases hi) ?_
  exact {
    idle := hw.idle
    placed := by
      rw [addOrUpdatePlayer_players]
      exact hw.placed.concat rfl
    joined := by
      rw [addOrUpdatePlayer_players, List.length_append]
      exact hcurrent
    connected := by
      rw [addOrUpdatePlayer_players, hw.connected]
      simp [or_imp, forall_and] }

theorem attend (h : Inv stayed s) {playerId : Nat} (hpc : s.pc = .joined playerId) :
    Inv stayed { s with clientThreads := s.clientThreads ++ [.reading], pc := .counting } := by
  obtain ⟨hnone, hw, hthreads, hjoined⟩ := h.before hpc (by simp) (by simp) (by simp)
  refine of_incoming rfl hnone h.size ?_ (fun i hi => by cases hi)
    ⟨hw.idle, hw.placed, hjoined, hw.connected⟩
  rw [List.length_append]
  exact hthreads

/-- The second player starts the battle if nobody has left. -/
theorem start (h : Inv stayed s) (hpc : s.pc = .starting) :
    Inv stayed { s with state := s.state.startIfReady, pc := .launching } := by
  have hlen := h.starting hpc
  obtain ⟨hnone, hw, hthreads, hjoined⟩ := h.before hpc (by simp) (by simp) (by simp)
  exact {
    size := h.size
    threads := hthreads
    current := fun i hi => by cases hi
    accepting := fun hc => by cases hc
    starting := fun hc => by cases hc
    full := fun _ hc => by simp at hc
    pair := fun _ => hlen
    loop := fun hs => by simp [hnone] at hs
    waiting := fun hn => absurd (Or.inl rfl) hn
    launched := fun _ => by
      rw [startIfReady_live hw.placed (hjoined.symm.trans hlen) hw.idle]
      exact hw.connected }

theorem launch (h : Inv stayed s) (hpc : s.pc = .launching) :
    Inv stayed { s with loopThread := some (s.loopThread.getD {}), pc := .entering } := by
  have hlen := h.pair (.inl hpc)
  have hthreads := h.threads
  rw [hpc] at hthreads
  exact {
    size := h.size
    threads := hthreads
    current := fun i hi => by cases hi
    accepting := fun hc => by cases hc
    starting := fun hc => by cases hc
    full := fun _ _ => .inr rfl
    pair := fun _ => hlen
    loop := fun _ => .inl rfl
    waiting := fun hn => absurd (Or.inr rfl) hn
    launched := fun _ => h.launched (.inl hpc) }

theorem runStep (h : Inv stayed s) : Inv stayed s.runStep := by
  unfold GameServer.runStep
  cases hpc : s.pc with
  | entering =>
    have hsize := h.size
    have hleft : Inv stayed { s with pc := .left } :=
      h.goto (by rw [hpc]; rfl) rfl (by simp) (by simp) (fun h2 _ => h.full h2 (.inl hpc)) (by simp)
    dsimp only
    split
    · exact hleft
    split
    · exact hleft
    · refine h.goto (by rw [hpc]; rfl) rfl (by omega) (by simp) (by simp) fun hs => ?_
      have := h.pair (.inr hs)
      omega
  | accepting =>
    dsimp only
    split
    · exact h.accept hpc _
    · exact h.acceptThrows hpc
  | connected playerId => exact h.join hpc _
  | joined playerId => exact h.attend hpc
  | counting =>
    have hnone := h.loopThread_eq_none (by simp [hpc]) (by simp [hpc])
    dsimp only
    split
    · rename_i hlen
      exact h.goto (by rw [hpc]; rfl) rfl (by simp) (fun _ => hlen) (by simp) (by simp [hnone])
    · rename_i hlen
      exact h.goto (by rw [hpc]; rfl) rfl (by simp) (by simp) (fun h2 => absurd h2 hlen) (by simp)
  | starting => exact h.start hpc
  | launching => exact h.launch hpc
  | left => exact h

end Inv

theorem inv_step {stayed : Prop} {s : GameServer} (h : Inv stayed s) (a : ServerStep) :
    Inv (stayed ∧ s.Stays a) (a.exec s) := by
  cases a with
  | run => simpa [Stays, ServerStep.exec] using h.runStep
  | acceptThrows =>
    simp only [Stays, and_true, ServerStep.exec, GameServer.acceptThrows]
    split
    · rename_i hpc
      exact h.acceptThrows hpc
    · exact h
  | clientEnds i => exact h.clientEnds i
  | clientAttacks i => simpa [Stays, ServerStep.exec] using h.clientAttacks i
  | clientQuits i => exact h.clientQuits i
  | clientStops i => simpa [Stays, ServerStep.exec] using h.clientStops i
  | loop draw => simpa [Stays, ServerStep.exec] using h.loopStep draw
  | signal => simpa [Stays, ServerStep.exec] using h.stop

end GameServer

/-! ### Runs -/

theorem serverMachine_inv (steps : List ServerStep) :
    GameServer.Inv (serverMachine.Along GameServer.Stays steps) (serverMachine.run steps).1 := by
  induction steps using List.reverseRecOn with
  | nil =>
    rw [eq_true (serverMachine.along_nil _)]
    exact GameServer.Inv.init
  | append_singleton steps a ih =>
    rw [serverMachine.along_concat, serverMachine.run_concat]
    exact GameServer.inv_step ih a

/-- The battle of a server that has left its accept loop with two players runs or is over if and
only if nobody had left before `start_if_ready`. -/
theorem running_or_over_iff_stays (steps : List ServerStep)
    (h : (serverMachine.run steps).1.LeftWithTwo) :
    ((serverMachine.run steps).1.state.running = true ∨
        (serverMachine.run steps).1.state.gameOver = true) ↔
      serverMachine.Along GameServer.Stays steps := by
  have hinv := serverMachine_inv steps
  exact (hinv.launched (hinv.full h.2 (.inr h.1))).symm

/-- Both players stay until the battle has begun, then one leaves. -/
theorem running_or_over_iff_stays_late_leave :
    (serverMachine.run (List.replicate 13 .run ++ [.clientEnds 0])).1.LeftWithTwo ∧
      serverMachine.Along GameServer.Stays (List.replicate 13 .run ++ [.clientEnds 0]) := by
  have hleft : (serverMachine.run (List.replicate 13 .run ++ [.clientEnds 0])).1.LeftWithTwo := by decide
  exact ⟨hleft, (running_or_over_iff_stays _ hleft).1 (by decide)⟩

/-- The first player leaves before the second comes. -/
def earlyLeave : List ServerStep := List.replicate 5 .run ++ .clientEnds 0 :: List.replicate 8 .run

/-- The battle neither runs nor is over. -/
theorem stuck_of_early_leave :
    (serverMachine.run earlyLeave).1.LeftWithTwo ∧
      ¬ ((serverMachine.run earlyLeave).1.state.running = true ∨
        (serverMachine.run earlyLeave).1.state.gameOver = true) := by
  decide

end Portfolio.TurnCombat
