import Portfolio.Lib.Interleaving

/-!
# The web socket of the page

The hook `useWebSocket` (`video-editor/frontend`), from the effect that connects on. Sockets are
known by the order of their creation, timeouts by their ids; what is not in `sockets` or `timeouts`
has no events. `close` only starts the closing handshake, and `onclose` runs at its end.

The cleanup does not take `onclose` away from the socket that it closes, so a component that goes away
with a live socket connects again (`no_reconnect_iff`).
-/

namespace Portfolio.VideoEditor

inductive ReadyState where
  | connecting
  | opened
  | closing
  | closed
  deriving DecidableEq, Repr

/-- `WebSocket.close` -/
def ReadyState.close : ReadyState → ReadyState
  | .connecting | .opened | .closing => .closing
  | .closed => .closed

/-- 1 for a socket that is not closed. -/
def ReadyState.unclosed (state : ReadyState) : Nat := if state = .closed then 0 else 1

inductive WSMessageType where
  | progress
  | complete
  | error
  | ping
  | pong
  deriving DecidableEq, Repr

/-- What `JSON.parse` makes of a text. -/
structure WSMessage (δ : Type) where
  type : WSMessageType
  data : Option δ

/-- The state of the hook; `δ` is what it shows as progress. -/
structure UseWebSocket (δ : Type) where
  sockets : List ReadyState := []
  timeouts : List Nat := []
  nextTimeout : Nat := 1
  ws : Option Nat := none
  reconnectTimeout : Option Nat := none
  connected : Bool := false
  progress : Option δ := none

/-- What the browser does next. `message` has no content if it cannot be parsed, and `throws` tells
whether the constructor of `WebSocket` throws. -/
inductive HookEvent (δ : Type) where
  | opened (socket : Nat)
  | message (socket : Nat) (content : Option (WSMessage δ))
  | closed (socket : Nat)
  | error (socket : Nat)
  | timeout (id : Nat) (throws : Bool)

inductive HookOutput where
  | newWebSocket
  | sendPong (socket : Nat)
  deriving DecidableEq, Repr

namespace UseWebSocket
variable {δ : Type}

def connect (throws : Bool) (s : UseWebSocket δ) : UseWebSocket δ × List HookOutput :=
  if throws then (s, [])
  else ({ s with sockets := s.sockets ++ [.connecting], ws := some s.sockets.length },
    [.newWebSocket])

def onMessage (s : UseWebSocket δ) (socket : Nat) :
    Option (WSMessage δ) → UseWebSocket δ × List HookOutput
  | none => (s, [])
  | some message => match message.type with
    | .progress => ({ s with progress := message.data }, [])
    | .ping => (s, [.sendPong socket])
    | .complete | .error | .pong => (s, [])

def onClose (s : UseWebSocket δ) : UseWebSocket δ :=
  { s with
    connected := false
    timeouts := s.timeouts ++ [s.nextTimeout]
    reconnectTimeout := some s.nextTimeout
    nextTimeout := s.nextTimeout + 1 }

def step (s : UseWebSocket δ) : HookEvent δ → UseWebSocket δ × List HookOutput
  | .opened socket =>
    if s.sockets[socket]? = some .connecting then
      ({ s with sockets := s.sockets.set socket .opened, connected := true }, [])
    else (s, [])
  | .message socket content =>
    if s.sockets[socket]? = some .opened then s.onMessage socket content else (s, [])
  | .closed socket => match s.sockets[socket]? with
    | none | some .closed => (s, [])
    | some _ => ({ s with sockets := s.sockets.set socket .closed }.onClose, [])
  | .error _ => (s, [])
  | .timeout id throws =>
    if id ∈ s.timeouts then { s with timeouts := s.timeouts.erase id }.connect throws else (s, [])

def cleanup (s : UseWebSocket δ) : UseWebSocket δ :=
  { s with
    timeouts := match s.reconnectTimeout with
      | none => s.timeouts
      | some id => s.timeouts.erase id
    sockets := match s.ws with
      | none => s.sockets
      | some socket => s.sockets.modify socket ReadyState.close }

/-- The events while the component is there. -/
def mounted (throws : Bool) : Machine (UseWebSocket δ) (HookEvent δ) HookOutput where
  init := (connect throws {}).1
  step := step

/-- The events after the cleanup. -/
def unmounted (s : UseWebSocket δ) : Machine (UseWebSocket δ) (HookEvent δ) HookOutput where
  init := s.cleanup
  step := step

/-- The sockets that are not closed. -/
def unclosed (s : UseWebSocket δ) : Nat := (s.sockets.map ReadyState.unclosed).sum

/-! ### While the component is there -/

/-- There is one socket that is not closed, or one timeout, or neither of them, and the hook has it in
its reference. -/
structure Mounted (s : UseWebSocket δ) : Prop where
  one : s.unclosed + s.timeouts.length ≤ 1
  ws : ∀ socket state, s.sockets[socket]? = some state → state ≠ .closed → s.ws = some socket
  reconnectTimeout : ∀ id ∈ s.timeouts, s.reconnectTimeout = some id

theorem unclosed_of_ne {state : ReadyState} (h : state ≠ .closed) : state.unclosed = 1 := if_neg h

section Step
variable {s : UseWebSocket δ} {socket : Nat} {state state' : ReadyState}

theorem unclosed_set (h : s.sockets[socket]? = some state) (state' : ReadyState) :
    unclosed { s with sockets := s.sockets.set socket state' } + state.unclosed =
      s.unclosed + state'.unclosed :=
  sum_map_set ReadyState.unclosed h state'

theorem exists_unclosed (h : 0 < s.unclosed) :
    ∃ (socket : Nat) (state : ReadyState), s.sockets[socket]? = some state ∧ state ≠ .closed := by
  by_contra hnone
  push Not at hnone
  have hzero : s.unclosed = 0 := by
    refine sum_map_eq_zero ReadyState.unclosed fun state hstate => ?_
    obtain ⟨socket, hsocket⟩ := List.mem_iff_getElem?.1 hstate
    exact if_pos (hnone socket state hsocket)
  omega

theorem unclosed_eq_zero_iff : s.unclosed = 0 ↔ ∀ state ∈ s.sockets, state = .closed := by
  constructor
  · intro hzero state hstate
    by_contra hne
    obtain ⟨socket, hsocket⟩ := List.mem_iff_getElem?.1 hstate
    have hle := le_sum_map ReadyState.unclosed hsocket
    rw [unclosed_of_ne hne] at hle
    rw [unclosed] at hzero
    omega
  · intro h
    exact sum_map_eq_zero ReadyState.unclosed fun state hstate => if_pos (h state hstate)

/-- A new socket takes the place of what there was. -/
theorem Mounted.connect (hclosed : s.unclosed = 0) (htimeouts : s.timeouts = []) (throws : Bool) :
    Mounted (s.connect throws).1 := by
  have hall := unclosed_eq_zero_iff.1 hclosed
  cases throws with
  | true =>
    refine ⟨?_, fun i state hi hne => absurd (hall state (List.mem_of_getElem? hi)) hne, ?_⟩
    · rw [UseWebSocket.connect, if_pos rfl, hclosed, htimeouts]
      exact Nat.zero_le 1
    · intro id hid
      rw [UseWebSocket.connect, if_pos rfl, htimeouts] at hid
      cases hid
  | false =>
    refine ⟨?_, fun i state hi hne => ?_, fun id hid => ?_⟩
    · show (List.map _ (s.sockets ++ [.connecting])).sum + s.timeouts.length ≤ 1
      rw [sum_map_concat, htimeouts]
      have hzero : (s.sockets.map ReadyState.unclosed).sum = 0 := hclosed
      rw [hzero]
      exact Nat.le_refl 1
    · show some s.sockets.length = some i
      rcases Nat.lt_or_ge i s.sockets.length with hlt | hge
      · have hold : (s.sockets ++ [.connecting])[i]? = some state := hi
        rw [List.getElem?_append_left hlt] at hold
        exact absurd (hall state (List.mem_of_getElem? hold)) hne
      · obtain ⟨hlt, -⟩ := List.getElem?_eq_some_iff.1 hi
        have hlen : (s.sockets ++ [ReadyState.connecting]).length = s.sockets.length + 1 := by
          rw [List.length_append, List.length_singleton]
        have hlt : i < (s.sockets ++ [ReadyState.connecting]).length := hlt
        congr 1
        omega
    · have hid : id ∈ s.timeouts := hid
      rw [htimeouts] at hid
      cases hid

theorem Mounted.onMessage (h : Mounted s) (socket : Nat) (content : Option (WSMessage δ)) :
    Mounted (s.onMessage socket content).1 := by
  rcases content with _ | ⟨type, data⟩
  · exact h
  · cases type with
    | progress => exact ⟨h.one, h.ws, h.reconnectTimeout⟩
    | _ => exact h

theorem Mounted.opened (h : Mounted s) (hsocket : s.sockets[socket]? = some .connecting) :
    Mounted { s with sockets := s.sockets.set socket .opened, connected := true } := by
  refine ⟨?_, fun i state hi hne => ?_, h.reconnectTimeout⟩
  · have hcount := unclosed_set hsocket .opened
    have hone := h.one
    rw [unclosed_of_ne (by decide), unclosed_of_ne (by decide)] at hcount
    have hsame : unclosed { s with sockets := s.sockets.set socket .opened } = s.unclosed := by
      omega
    show unclosed { s with sockets := s.sockets.set socket .opened } + s.timeouts.length ≤ 1
    rw [hsame]
    exact hone
  · have hi : (s.sockets.set socket .opened)[i]? = some state := hi
    rcases eq_or_ne socket i with rfl | hother
    · exact h.ws socket .connecting hsocket (by decide)
    · rw [List.getElem?_set_ne hother] at hi
      exact h.ws i state hi hne

/-- The timeout takes the place of the socket. -/
theorem Mounted.closed (h : Mounted s) (hsocket : s.sockets[socket]? = some state) (hne : state ≠ .closed) :
    Mounted { s with sockets := s.sockets.set socket .closed }.onClose := by
  have hcount := unclosed_set hsocket .closed
  have hone := h.one
  have hzero : ReadyState.closed.unclosed = 0 := rfl
  rw [unclosed_of_ne hne] at hcount
  have hclosed : unclosed { s with sockets := s.sockets.set socket .closed } = 0 := by omega
  have htimeouts : s.timeouts = [] := List.length_eq_zero_iff.1 (by omega)
  have hall := unclosed_eq_zero_iff.1 hclosed
  refine ⟨?_, fun i state hi hne => absurd (hall state (List.mem_of_getElem? hi)) hne, fun id hid => ?_⟩
  · show unclosed { s with sockets := s.sockets.set socket .closed } +
      (s.timeouts ++ [s.nextTimeout]).length ≤ 1
    rw [hclosed, htimeouts]
    exact Nat.le_refl 1
  · have hid : id ∈ s.timeouts ++ [s.nextTimeout] := hid
    rw [htimeouts, List.nil_append, List.mem_singleton] at hid
    exact congrArg some hid.symm

theorem Mounted.step (h : Mounted s) (event : HookEvent δ) : Mounted (s.step event).1 := by
  cases event with
  | opened socket =>
    rw [UseWebSocket.step]
    split
    · next hsocket => exact h.opened hsocket
    · exact h
  | message socket content =>
    rw [UseWebSocket.step]
    split
    · exact h.onMessage socket content
    · exact h
  | closed socket =>
    rw [UseWebSocket.step]
    split
    · exact h
    · exact h
    · next state hne hsocket => exact h.closed hsocket hne
  | error socket => exact h
  | timeout id throws =>
    rw [UseWebSocket.step]
    split
    · rename_i hid
      have hone := h.one
      have hpos := List.length_pos_of_mem hid
      refine Mounted.connect (s := { s with timeouts := s.timeouts.erase id }) ?_ ?_ throws
      · show s.unclosed = 0
        omega
      · refine List.length_eq_zero_iff.1 ?_
        show (s.timeouts.erase id).length = 0
        rw [List.length_erase_of_mem hid]
        omega
    · exact h

end Step

theorem mounted_run (throws : Bool) (events : List (HookEvent δ)) :
    Mounted ((mounted throws).run events).1 :=
  (mounted throws).run_inv (P := fun _ _ s => Mounted s) (Mounted.connect rfl rfl throws)
    (fun _ _ _ event h => h.step event) events

/-! ### After the cleanup -/

/-- Nothing is left that could connect. -/
structure Quiet (s : UseWebSocket δ) : Prop where
  sockets : ∀ state ∈ s.sockets, state = .closed
  timeouts : s.timeouts = []

section After
variable {s : UseWebSocket δ}

theorem Quiet.step (h : Quiet s) (event : HookEvent δ) : s.step event = (s, []) := by
  have hclosed : ∀ (socket : Nat) (state : ReadyState), s.sockets[socket]? = some state → state = .closed :=
    fun socket state hsocket => h.sockets state (List.mem_of_getElem? hsocket)
  cases event with
  | opened socket =>
    rw [UseWebSocket.step, if_neg]
    exact fun hsocket => by cases hclosed socket .connecting hsocket
  | message socket content =>
    rw [UseWebSocket.step, if_neg]
    exact fun hsocket => by cases hclosed socket .opened hsocket
  | closed socket =>
    rw [UseWebSocket.step]
    split
    · rfl
    · rfl
    · rename_i state hne hsocket
      exact absurd (hclosed socket state hsocket) hne
  | error socket => rfl
  | timeout id throws =>
    rw [UseWebSocket.step, if_neg]
    rw [h.timeouts]
    exact List.not_mem_nil

theorem Quiet.run (h : Quiet s.cleanup) (events : List (HookEvent δ)) :
    (unmounted s).run events = (s.cleanup, []) := by
  induction events using List.reverseRecOn with
  | nil => rfl
  | append_singleton events event ih =>
    rw [Machine.run_concat, ih]
    have hstep : (unmounted s).step s.cleanup event = (s.cleanup, []) := h.step event
    rw [hstep]
    rfl

/-- The cleanup clears the timeout that is left. -/
theorem Mounted.quiet_cleanup (h : Mounted s) (hclosed : ∀ state ∈ s.sockets, state = .closed) :
    Quiet s.cleanup := by
  constructor
  · intro state hstate
    rw [cleanup] at hstate
    dsimp only at hstate
    split at hstate
    · exact hclosed state hstate
    · obtain ⟨i, hi⟩ := List.mem_iff_getElem?.1 hstate
      rw [List.getElem?_modify] at hi
      obtain ⟨old, hold, rfl⟩ := Option.map_eq_some_iff.1 hi
      rw [hclosed old (List.mem_of_getElem? hold)]
      split <;> rfl
  · have hone := h.one
    rw [cleanup]
    dsimp only
    rcases List.eq_nil_or_concat s.timeouts with hnil | ⟨rest, id, hrest⟩
    · rw [hnil]
      split <;> rfl
    · have hmem : id ∈ s.timeouts := by
        rw [hrest, List.concat_eq_append]
        exact List.mem_concat_self
      rw [h.reconnectTimeout id hmem]
      refine List.length_eq_zero_iff.1 ?_
      show (s.timeouts.erase id).length = 0
      rw [List.length_erase_of_mem hmem]
      omega

/-- The handshake of a socket that the cleanup closes ends, and the timeout passes. -/
def lateClose (s : UseWebSocket δ) (socket : Nat) : List (HookEvent δ) :=
  [.closed socket, .timeout s.nextTimeout false]

theorem newWebSocket_lateClose {socket : Nat} {state : ReadyState} (hws : s.ws = some socket)
    (hsocket : s.sockets[socket]? = some state) (hne : state ≠ .closed) :
    .newWebSocket ∈ ((unmounted s).run (s.lateClose socket)).2 := by
  have hclosing : s.cleanup.sockets[socket]? = some .closing := by
    rw [cleanup, hws]
    dsimp only
    rw [List.getElem?_modify, hsocket]
    show some (if socket = socket then state.close else state) = _
    rw [if_pos rfl]
    cases state with
    | closed => exact absurd rfl hne
    | _ => rfl
  have hclose : s.cleanup.step (.closed socket) =
      ({ s.cleanup with sockets := s.cleanup.sockets.set socket .closed }.onClose, []) := by
    rw [UseWebSocket.step, hclosing]
  have htimeout : s.nextTimeout ∈
      ({ s.cleanup with sockets := s.cleanup.sockets.set socket .closed }.onClose).timeouts :=
    List.mem_append_right _ (List.mem_singleton.2 rfl)
  have hrun : ((unmounted s).run (s.lateClose socket)).2 = [.newWebSocket] := by
    show (s.cleanup.step (.closed socket)).2 ++
      ((s.cleanup.step (.closed socket)).1.step (.timeout s.nextTimeout false)).2 = _
    rw [hclose, UseWebSocket.step, if_pos htimeout]
    rfl
  rw [hrun]
  exact List.mem_singleton.2 rfl

end After

/-- At most one socket is not closed while the component is there, and after the cleanup no order of
events makes a new one if and only if all sockets have been closed by then. -/
theorem no_reconnect_iff (throws : Bool) (events : List (HookEvent δ)) :
    (∀ pre, pre <+: events → ((mounted throws).run pre).1.unclosed ≤ 1) ∧
      ((∀ later, .newWebSocket ∉ ((unmounted ((mounted throws).run events).1).run later).2) ↔
        ∀ state ∈ ((mounted throws).run events).1.sockets, state = .closed) := by
  have hmounted := mounted_run throws events
  refine ⟨fun pre _ => ?_, fun h => ?_, fun hclosed later => ?_⟩
  · have hone := (mounted_run throws pre).one
    omega
  · rw [← unclosed_eq_zero_iff]
    by_contra hne
    obtain ⟨socket, state, hsocket, hstate⟩ := exists_unclosed (Nat.pos_of_ne_zero hne)
    exact h _ (newWebSocket_lateClose (hmounted.ws socket state hsocket hstate) hsocket hstate)
  · rw [(hmounted.quiet_cleanup hclosed).run later]
    exact List.not_mem_nil

theorem reconnect_after_unmount :
    ¬ ∀ (throws : Bool) (events later : List (HookEvent Unit)),
      .newWebSocket ∉ ((unmounted ((mounted throws).run events).1).run later).2 := by
  intro h
  exact h false [.opened 0] [.closed 0, .timeout 1 false] (by decide)

end UseWebSocket

end Portfolio.VideoEditor
