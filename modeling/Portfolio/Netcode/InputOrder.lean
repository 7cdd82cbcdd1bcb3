import Mathlib.Data.Finset.Max
import Portfolio.Netcode.PongServer

/-!
# The order of inputs

`handle_input` writes every input it gets into the client's record and into the world. What stands
there after a run is the input handled last, which is the newest one exactly if the newest one came
last.
-/

namespace Portfolio.Netcode
open Std

/-- The inputs that reached `handle_input` from the client `key`: `client_seq` and `dy`. -/
def inputsOf {α : Type} (key : String) (events : List (ServerEvent α)) : List (Nat × Int) :=
  events.filterMap fun
    | .input endpoint clientSeq dy => if endpointKey endpoint = key then some (clientSeq, dy) else none
    | .tick _ => none

/-- `std::clamp(dy, -1, 1)` -/
def clampDy (dy : Int) : Int := max (-1) (min dy 1)

theorem endpointKey_ne_empty (endpoint : Endpoint) : endpointKey endpoint ≠ "" := by
  unfold endpointKey
  intro h
  have hlen := congrArg String.length h
  split at hlen
  · rw [String.length_append] at hlen
    have : "invalid:".length = 8 := by decide
    have : "".length = 0 := by decide
    omega
  · rw [String.length_append, String.length_append] at hlen
    have : ":".length = 1 := by decide
    have : "".length = 0 := by decide
    omega

section
variable {α : Type} [Scalar α]

/-- The direction that the world holds for a side. -/
def directionOf (s : PongUdpServer α) : PlayerSide → Option Int
  | .left => some s.world.state.leftDirection
  | .right => some s.world.state.rightDirection
  | .spectator => none

/-- The record and the world show the input `i` of the client `key`; a spectator has no direction. -/
def Shows (s : PongUdpServer α) (key : String) (i : Nat × Int) : Prop :=
  ∃ client, s.clients[key]? = some client ∧ client.lastClientSeq = i.1 ∧
    (client.side = .left ∨ client.side = .right → directionOf s client.side = some (clampDy i.2))

/-- The newest of the inputs that were received from the client is the one that shows. -/
def LatestWins (s : PongUdpServer α) (key : String) (received : List (Nat × Int)) : Prop :=
  ∀ i ∈ received, (∀ j ∈ received, j.1 ≤ i.1) → Shows s key i

/-- The input received last has the largest number. -/
def NewestLast (received : List (Nat × Int)) : Prop :=
  ∀ front last, received = front ++ [last] → ∀ j ∈ received, j.1 ≤ last.1

omit [Scalar α] in
theorem exists_newest {received : List (Nat × Int)} (h : received ≠ []) :
    ∃ i ∈ received, ∀ j ∈ received, j.1 ≤ i.1 := by
  obtain ⟨i, hi, hmax⟩ := received.toFinset.exists_max_image (·.1) (List.toFinset_nonempty_iff _ |>.2 h)
  exact ⟨i, List.mem_toFinset.1 hi, fun j hj => hmax j (List.mem_toFinset.2 hj)⟩

/-! ### One input -/

theorem ensureClientLocked_cases (s : PongUdpServer α) (endpoint : Endpoint) :
    (∃ client, s.clients[endpointKey endpoint]? = some client ∧
      s.ensureClientLocked endpoint = (s, { client with endpoint := endpoint })) ∨
    (s.clients[endpointKey endpoint]? = none ∧
      ((s.leftClientKey = "" ∧ s.ensureClientLocked endpoint =
          ({ s with leftClientKey := endpointKey endpoint }, { endpoint := endpoint, side := .left })) ∨
        (s.rightClientKey = "" ∧ s.ensureClientLocked endpoint =
          ({ s with rightClientKey := endpointKey endpoint }, { endpoint := endpoint, side := .right })) ∨
        s.ensureClientLocked endpoint = (s, { endpoint := endpoint, side := .spectator }))) := by
  unfold PongUdpServer.ensureClientLocked
  dsimp only
  cases hc : s.clients[endpointKey endpoint]? with
  | some client => exact .inl ⟨client, rfl, rfl⟩
  | none =>
    refine .inr ⟨rfl, ?_⟩
    dsimp only
    split
    · next hl => exact .inl ⟨hl, rfl⟩
    · split
      · next hr => exact .inr (.inl ⟨hr, rfl⟩)
      · exact .inr (.inr rfl)

/-- The sides belong to the clients whose keys are stored for them. -/
structure Seated (s : PongUdpServer α) : Prop where
  key : ∀ (k : String) (c : ClientInfo), s.clients[k]? = some c → k ≠ ""
  left : ∀ (k : String) (c : ClientInfo), s.clients[k]? = some c → c.side = .left → s.leftClientKey = k
  right : ∀ (k : String) (c : ClientInfo), s.clients[k]? = some c → c.side = .right → s.rightClientKey = k

/-- A record goes into the table; a seat that changes hands was empty. -/
theorem Seated.insert {s s' : PongUdpServer α} (h : Seated s) {key : String} (hkey : key ≠ "")
    {client : ClientInfo} (hclients : s'.clients = s.clients.insert key client)
    (hl : client.side = .left → s'.leftClientKey = key) (hr : client.side = .right → s'.rightClientKey = key)
    (hleft : s'.leftClientKey = s.leftClientKey ∨ s.leftClientKey = "")
    (hright : s'.rightClientKey = s.rightClientKey ∨ s.rightClientKey = "") : Seated s' := by
  have hcases : ∀ (k : String) (c : ClientInfo), s'.clients[k]? = some c →
      (k = key ∧ c = client) ∨ s.clients[k]? = some c := by
    intro k c hc
    rw [hclients, TreeMap.getElem?_insert] at hc
    simp only [Std.compare_eq_iff_eq] at hc
    split at hc
    · next hk => exact .inl ⟨hk.symm, (Option.some.inj hc).symm⟩
    · exact .inr hc
  refine ⟨fun k c hc => ?_, fun k c hc hside => ?_, fun k c hc hside => ?_⟩
  · rcases hcases k c hc with ⟨rfl, -⟩ | hold
    · exact hkey
    · exact h.key k c hold
  · rcases hcases k c hc with ⟨rfl, rfl⟩ | hold
    · exact hl hside
    · have hseat := h.left k c hold hside
      rcases hleft with heq | hempty
      · exact heq.trans hseat
      · exact absurd (hseat.symm.trans hempty) (h.key k c hold)
  · rcases hcases k c hc with ⟨rfl, rfl⟩ | hold
    · exact hr hside
    · have hseat := h.right k c hold hside
      rcases hright with heq | hempty
      · exact heq.trans hseat
      · exact absurd (hseat.symm.trans hempty) (h.key k c hold)

/-- `ensure_client_locked` gives out empty seats only, to the client that it returns. -/
structure Ensured (s : PongUdpServer α) (key : String) (r : PongUdpServer α × ClientInfo) : Prop where
  clients : r.1.clients = s.clients
  world : r.1.world = s.world
  leftKey : r.1.leftClientKey = s.leftClientKey ∨ s.leftClientKey = ""
  rightKey : r.1.rightClientKey = s.rightClientKey ∨ s.rightClientKey = ""
  left : r.2.side = .left → r.1.leftClientKey = key
  right : r.2.side = .right → r.1.rightClientKey = key

theorem ensured {s : PongUdpServer α} (h : Seated s) (endpoint : Endpoint) :
    Ensured s (endpointKey endpoint) (s.ensureClientLocked endpoint) := by
  rcases ensureClientLocked_cases s endpoint with ⟨old, hold, heq⟩ | ⟨-, ⟨hl, heq⟩ | ⟨hr, heq⟩ | heq⟩
  · rw [heq]
    exact ⟨rfl, rfl, .inl rfl, .inl rfl, h.left _ old hold, h.right _ old hold⟩
  · rw [heq]
    exact ⟨rfl, rfl, .inr hl, .inl rfl, fun _ => rfl, (fun hside => nomatch hside)⟩
  · rw [heq]
    exact ⟨rfl, rfl, .inl rfl, .inr hr, (fun hside => nomatch hside), fun _ => rfl⟩
  · rw [heq]
    exact ⟨rfl, rfl, .inl rfl, .inl rfl, (fun hside => nomatch hside), (fun hside => nomatch hside)⟩

theorem Seated.side_ne {s : PongUdpServer α} (h : Seated s) {k k' : String} {c c' : ClientInfo}
    (hc : s.clients[k]? = some c) (hc' : s.clients[k']? = some c') (hne : k ≠ k')
    (hside : c.side = .left ∨ c.side = .right) : c.side ≠ c'.side := by
  intro heq
  rcases hside with hl | hr
  · exact hne ((h.left k c hc hl).symm.trans (h.left k' c' hc' (heq.symm.trans hl)))
  · exact hne ((h.right k c hc hr).symm.trans (h.right k' c' hc' (heq.symm.trans hr)))

/-- The record that `handle_input` leaves for its client. -/
def recordOf (s : PongUdpServer α) (endpoint : Endpoint) (clientSeq : Nat) : ClientInfo :=
  { (s.ensureClientLocked endpoint).2 with lastClientSeq := clientSeq }

theorem handleInput_clients {s : PongUdpServer α} (h : Seated s) (endpoint : Endpoint) (clientSeq : Nat)
    (dy : Int) : (s.handleInput endpoint clientSeq dy).1.clients =
      s.clients.insert (endpointKey endpoint) (recordOf s endpoint clientSeq) := by
  show (s.ensureClientLocked endpoint).1.clients.insert _ _ = _
  rw [(ensured h endpoint).clients]
  rfl

theorem seated_handleInput {s : PongUdpServer α} (h : Seated s) (endpoint : Endpoint) (clientSeq : Nat)
    (dy : Int) : Seated (s.handleInput endpoint clientSeq dy).1 := by
  have hseats := ensured h endpoint
  exact h.insert (endpointKey_ne_empty endpoint) (handleInput_clients h endpoint clientSeq dy)
    hseats.left hseats.right hseats.leftKey hseats.rightKey

/-- The input sets the direction of its client's side and of no other side. -/
theorem directionOf_handleInput {s : PongUdpServer α} (h : Seated s) (endpoint : Endpoint)
    (clientSeq : Nat) (dy : Int) (side : PlayerSide) (hside : side = .left ∨ side = .right) :
    directionOf (s.handleInput endpoint clientSeq dy).1 side =
      if (recordOf s endpoint clientSeq).side = side then some (clampDy dy) else directionOf s side := by
  have hworld := (ensured h endpoint).world
  have hset : (s.handleInput endpoint clientSeq dy).1.world =
      if (recordOf s endpoint clientSeq).side = .left ∨ (recordOf s endpoint clientSeq).side = .right then
        s.world.setPlayerInput (recordOf s endpoint clientSeq).side (clampDy dy) else s.world := by
    rw [← hworld]
    rfl
  rcases hside with rfl | rfl
  · rw [directionOf, directionOf, hset]
    cases (recordOf s endpoint clientSeq).side <;> simp [World.setPlayerInput, clampDy]
  · rw [directionOf, directionOf, hset]
    cases (recordOf s endpoint clientSeq).side <;> simp [World.setPlayerInput, clampDy]

theorem shows_handleInput {s : PongUdpServer α} (h : Seated s) (endpoint : Endpoint) (clientSeq : Nat)
    (dy : Int) : Shows (s.handleInput endpoint clientSeq dy).1 (endpointKey endpoint) (clientSeq, dy) := by
  refine ⟨recordOf s endpoint clientSeq, ?_, rfl, fun hside => ?_⟩
  · rw [handleInput_clients h]
    exact TreeMap.getElem?_insert_self
  · rw [directionOf_handleInput h endpoint clientSeq dy _ hside, if_pos rfl]

theorem Shows.handleInput_other {s : PongUdpServer α} (h : Seated s) {key : String} {i : Nat × Int}
    (hs : Shows s key i) (endpoint : Endpoint) (clientSeq : Nat) (dy : Int)
    (hne : endpointKey endpoint ≠ key) : Shows (s.handleInput endpoint clientSeq dy).1 key i := by
  obtain ⟨client, hc, hseq, hdir⟩ := hs
  have hc' : (s.handleInput endpoint clientSeq dy).1.clients[key]? = some client := by
    rw [handleInput_clients h, TreeMap.getElem?_insert]
    simp only [Std.compare_eq_iff_eq]
    rw [if_neg hne, hc]
  have hself : (s.handleInput endpoint clientSeq dy).1.clients[endpointKey endpoint]? =
      some (recordOf s endpoint clientSeq) := by
    rw [handleInput_clients h]
    exact TreeMap.getElem?_insert_self
  refine ⟨client, hc', hseq, fun hside => ?_⟩
  have hother := (seated_handleInput h endpoint clientSeq dy).side_ne hc' hself hne.symm hside
  rw [directionOf_handleInput h endpoint clientSeq dy _ hside, if_neg hother.symm]
  exact hdir hside

/-! ### A run -/

variable (fc : FloatCodec α)

theorem tick_frame (s : PongUdpServer α) (dt : α) :
    (s.tick fc dt).1.clients = s.clients ∧
    (s.tick fc dt).1.leftClientKey = s.leftClientKey ∧
    (s.tick fc dt).1.rightClientKey = s.rightClientKey ∧
    ∀ side, directionOf (s.tick fc dt).1 side = directionOf s side := by
  obtain ⟨-, hl, hr⟩ := sameInputs_advance s.world.state s.world.config dt
  have hworld : (s.tick fc dt).1.world = s.world.step dt ∧ (s.tick fc dt).1.clients = s.clients ∧
      (s.tick fc dt).1.leftClientKey = s.leftClientKey ∧
      (s.tick fc dt).1.rightClientKey = s.rightClientKey := by
    unfold PongUdpServer.tick
    dsimp only
    split
    · exact ⟨rfl, rfl, rfl, rfl⟩
    · exact ⟨rfl, rfl, rfl, rfl⟩
  refine ⟨hworld.2.1, hworld.2.2.1, hworld.2.2.2, fun side => ?_⟩
  cases side with
  | left => exact congrArg some ((congrArg (·.state.leftDirection) hworld.1).trans hl)
  | right => exact congrArg some ((congrArg (·.state.rightDirection) hworld.1).trans hr)
  | spectator => rfl

/-- Of every client that was heard, the last input shows. -/
structure InputInv (events : List (ServerEvent α)) (s : PongUdpServer α) : Prop where
  seated : Seated s
  last : ∀ key front i, inputsOf key events = front ++ [i] → Shows s key i

theorem inputInv_tick {events : List (ServerEvent α)} {s : PongUdpServer α} (h : InputInv events s)
    (dt : α) : InputInv (events ++ [.tick dt]) (s.tick fc dt).1 := by
  obtain ⟨hc, hl, hr, hdir⟩ := tick_frame fc s dt
  refine ⟨⟨?_, ?_, ?_⟩, fun key front i hi => ?_⟩
  · rw [hc]
    exact h.seated.key
  · rw [hc, hl]
    exact h.seated.left
  · rw [hc, hr]
    exact h.seated.right
  · have hi' : inputsOf key events = front ++ [i] := by simpa [inputsOf] using hi
    obtain ⟨client, hclient, hseq, hside⟩ := h.last key front i hi'
    refine ⟨client, ?_, hseq, fun hs => ?_⟩
    · rw [hc, hclient]
    · rw [hdir, hside hs]

theorem inputInv_input {events : List (ServerEvent α)} {s : PongUdpServer α} (h : InputInv events s)
    (endpoint : Endpoint) (clientSeq : Nat) (dy : Int) :
    InputInv (events ++ [.input endpoint clientSeq dy]) (s.handleInput endpoint clientSeq dy).1 := by
  refine ⟨seated_handleInput h.seated endpoint clientSeq dy, fun key front i hi => ?_⟩
  rw [inputsOf, List.filterMap_append] at hi
  by_cases hkey : endpointKey endpoint = key
  · have hi' : inputsOf key events ++ [(clientSeq, dy)] = front ++ [i] := by
      simpa [hkey, inputsOf] using hi
    obtain ⟨-, hlast⟩ := List.append_inj' hi' rfl
    rw [← List.singleton_inj.1 hlast, ← hkey]
    exact shows_handleInput h.seated endpoint clientSeq dy
  · have hi' : inputsOf key events = front ++ [i] := by simpa [hkey, inputsOf] using hi
    exact (h.last key front i hi').handleInput_other h.seated endpoint clientSeq dy hkey

theorem inputInv_run (roomManager : Bool) (events : List (ServerEvent α)) :
    InputInv events ((serverMachine fc roomManager).run events).1 := by
  refine (serverMachine fc roomManager).run_inv (P := fun events _ s => InputInv events s) ?_ ?_ events
  · refine ⟨⟨?_, ?_, ?_⟩, ?_⟩
    · intro k c hc
      simp [serverMachine] at hc
    · intro k c hc
      simp [serverMachine] at hc
    · intro k c hc
      simp [serverMachine] at hc
    · intro key front i hi
      simp [inputsOf] at hi
  · intro events _ s event h
    cases event with
    | tick dt => exact inputInv_tick fc h dt
    | input endpoint clientSeq dy => exact inputInv_input h endpoint clientSeq dy

/-- Whatever the events between them, the newest of the inputs that were received from a client
wins exactly if it is the one that was handled last. -/
theorem latest_input_wins_iff (roomManager : Bool) (events : List (ServerEvent α)) (key : String)
    (hseq : ((inputsOf key events).map (·.1)).Nodup) :
    LatestWins ((serverMachine fc roomManager).run events).1 key (inputsOf key events) ↔
      NewestLast (inputsOf key events) := by
  have hinv := inputInv_run fc roomManager events
  constructor
  · intro hwins front last hlast j hj
    -- the newest input and the last one both show, so they have one number
    obtain ⟨i, hi, hmax⟩ := exists_newest (List.ne_nil_of_mem hj)
    obtain ⟨client, hc, hnum, -⟩ := hwins i hi hmax
    obtain ⟨client', hc', hnum', -⟩ := hinv.last key front last hlast
    rw [hc] at hc'
    rw [← Option.some.inj hc', hnum] at hnum'
    rw [← hnum']
    exact hmax j hj
  · intro hlast i hi hmax
    rcases List.eq_nil_or_concat (inputsOf key events) with hnil | ⟨front, last, hcut⟩
    · rw [hnil] at hi
      cases hi
    · have hmem : last ∈ inputsOf key events := by simp [hcut]
      have hnum : i.1 = last.1 := Nat.le_antisymm (hlast front last (by simpa using hcut) i hi) (hmax last hmem)
      rw [List.inj_on_of_nodup_map hseq hi hmem hnum]
      exact hinv.last key front last (by simpa using hcut)

end

def localPlayer (port : Nat) : Endpoint where
  address := some "127.0.0.1"
  port := port

/-- Three inputs of the client at port 5000, in the order of their numbers, between ticks and an input of another. -/
def inOrder : List (ServerEvent ℚ) :=
  [.input (localPlayer 5000) 1 1, .tick (1 / 64), .input (localPlayer 5001) 7 1, .input (localPlayer 5000) 2 0, .tick (1 / 64), .input (localPlayer 5000) 5 (-3)]

theorem latest_input_wins_in_order :
    ((inputsOf (endpointKey (localPlayer 5000)) inOrder).map (·.1)).Nodup ∧
      LatestWins ((serverMachine pongFloats false).run inOrder).1 (endpointKey (localPlayer 5000))
        (inputsOf (endpointKey (localPlayer 5000)) inOrder) := by
  have hinputs : inputsOf (endpointKey (localPlayer 5000)) inOrder = [(1, 1), (2, 0), (5, -3)] := by decide +kernel
  have hseq : ((inputsOf (endpointKey (localPlayer 5000)) inOrder).map (·.1)).Nodup := by
    rw [hinputs]
    decide
  refine ⟨hseq, (latest_input_wins_iff pongFloats false inOrder (endpointKey (localPlayer 5000)) hseq).2 ?_⟩
  intro front last hlast
  have hcut : [(1, 1), (2, 0)] ++ [(5, -3)] = front ++ [last] := hinputs.symm.trans hlast
  obtain ⟨-, hlast⟩ := List.append_inj' hcut rfl
  rw [hinputs, ← List.singleton_inj.1 hlast]
  decide

/-- Input 2 says up; input 1 says down and comes late. -/
def outOfOrder : List (ServerEvent ℚ) := [.input (localPlayer 5000) 2 (-1), .input (localPlayer 5000) 1 1]

theorem late_input_wins :
    ((inputsOf (endpointKey (localPlayer 5000)) outOfOrder).map (·.1)).Nodup ∧
      ¬ LatestWins ((serverMachine pongFloats false).run outOfOrder).1 (endpointKey (localPlayer 5000))
        (inputsOf (endpointKey (localPlayer 5000)) outOfOrder) := by
  have hinputs : inputsOf (endpointKey (localPlayer 5000)) outOfOrder = [(2, -1), (1, 1)] := by
    decide +kernel
  have hlast : (((serverMachine pongFloats false).run outOfOrder).1.clients[
      endpointKey (localPlayer 5000)]?).map (·.lastClientSeq) = some 1 := by decide +kernel
  rw [hinputs]
  refine ⟨by decide, fun h => ?_⟩
  obtain ⟨client, hc, hseq, -⟩ := h (2, -1) (by simp) (by simp)
  rw [hc, Option.map_some, hseq] at hlast
  cases hlast

end Portfolio.Netcode
