import Portfolio.Chat.Turns

/-!
# What is said in the chat

`spoken` says what a handler has to say and to whom, in terms of the rooms that sessions have joined.
Every handler says it, through the table of the rooms and its weak pointers.
-/

namespace Portfolio.Chat
open Std WebSocketServer

namespace WebSocketServer

/-! ### What is said -/

/-- An answer to the session whose handler runs. -/
def toSelf (c : Nat) (message : String) : Utterance := ⟨(· == c), message⟩

def toRoom (s : WebSocketServer) (room message : String) : Utterance := ⟨s.inRoom room, message⟩

def toOthers (s : WebSocketServer) (c : Nat) (room message : String) : Utterance :=
  ⟨fun d => d != c && s.inRoom room d, message⟩

def errorTo (c : Nat) (message : String) : Utterance := toSelf c (makePayload "ERROR" [("message", message)])

/-- What a command is answered with, and what the others hear of it. -/
def reply (s : WebSocketServer) (c : Nat) : Command → List Utterance
  | .join room =>
    if room = "" then [errorTo c "Room cannot be empty"]
    else if (s.joinedRooms c).contains room then [errorTo c "Already joined room"]
    else [toSelf c (makePayload "JOINED" [("room", room)]),
      s.toOthers c room (announcement room (s.nickname c ++ " joined the room"))]
  | .leave room =>
    if (s.joinedRooms c).contains room then
      [toSelf c (makePayload "LEFT" [("room", room)]),
        s.toOthers c room (announcement room (s.nickname c ++ " left the room"))]
    else [errorTo c "Not a member of room"]
  | .message room text =>
    if room = "" then [errorTo c "Room cannot be empty"]
    else if (s.joinedRooms c).contains room then
      [s.toRoom room (makePayload "MSG" [("room", room), ("from", s.nickname c), ("text", text)])]
    else [errorTo c "Join room before sending"]
  | .nick name =>
    if name = "" then [errorTo c "Invalid nickname"]
    else if s.isNicknameAvailable name c then
      toSelf c (makePayload "NICK_OK" [("name", name)]) :: (s.joinedRooms c).toList.map fun room =>
        s.toRoom room (announcement room (s.nickname c ++ " is now known as " ++ name))
    else [errorTo c "Nickname already in use"]
  | .listRooms => [toSelf c (makePayload "ROOM_LIST" [("rooms", s.buildRoomList.2)])]
  | .listMembers room =>
    if room = "" then [errorTo c "LIST_MEMBERS requires room"]
    else match (s.buildMemberList room).2 with
      | none => [errorTo c "Room not found"]
      | some members => [toSelf c (makePayload "MEMBER_LIST" [("room", room), ("members", members)])]
  | .error message => [errorTo c message]

/-- What the others hear of a close. -/
def farewell (s : WebSocketServer) (c : Nat) : List Utterance :=
  if s.isOpen c then (s.joinedRooms c).toList.map fun room =>
    s.toOthers c room (announcement room (s.nickname c ++ " left the room"))
  else []

def greeting (c : Nat) (sessionId : String) : List Utterance :=
  [toSelf c (makePayload "INFO" [("message", "Welcome to the WebSocket chat!")]),
    toSelf c (makePayload "INFO" [("message", "Connected as " ++ sessionId)])]

def spoken (s : WebSocketServer) : Event → List Utterance
  | .accepted c true => match s.heap c with
    | some x => if x.read = .accepting then greeting c x.sessionId else []
    | none => []
  | .read c => match s.heap c with
    | none => []
    | some x => match x.read with
      | .completed none => s.farewell c
      | .completed (some payload) => s.reply c (.ofPayload payload)
      | _ => []
  | .written c .failed => if (s.outbox c).pending then s.farewell c else []
  | _ => []

/-- What a step writes to the streams. -/
def written (s : WebSocketServer) : Event → List (Nat × String)
  | .written c .ok => if (s.outbox c).pending then ((s.outbox c).queue.take 1).map (c, ·) else []
  | _ => []

end WebSocketServer

/-! ### The handlers of the commands -/

/-- A handler of the session `c` begins; the sessions of `P` are in the rooms they have joined. -/
structure Start (P Q : Nat → Prop) (s : WebSocketServer) (c : Nat) : Prop where
  turn : Turn P Q s s (Member s.lookups) []
  notAside : ¬ Q c
  isOpen : ∀ d, P d → Open s.cores d
  joined : ∀ room d, P d → (Member s.lookups room d ↔ Joined s.cores room d)

/-- The handler has said `us`, and has come to a state in which the sessions of `P` are in the rooms they
have joined. -/
def Ends (P Q : Nat → Prop) (s t : WebSocketServer) (us : List Utterance) : Prop :=
  ∃ M, Turn P Q s t M us ∧ ∀ room d, P d → (M room d ↔ Joined t.cores room d)

namespace Start
variable {P Q : Nat → Prop} {s t : WebSocketServer} {c : Nat} {us : List Utterance}

theorem inRoom (h : Start P Q s c) {room : String} {d : Nat} (hd : P d) :
    s.inRoom room d = true ↔ Member s.lookups room d := by
  rw [inRoom_iff, h.joined room d hd]
  exact and_iff_right (h.isOpen d hd)

theorem others (h : Start P Q s c) {room : String} {d : Nat} (hd : P d) :
    (d != c && s.inRoom room d) = true ↔ Member s.lookups room d ∧ some d ≠ some c := by
  rw [Bool.and_eq_true, bne_iff_ne, h.inRoom hd, and_comm, ne_eq, ne_eq, Option.some_inj]

theorem ends (h : Start P Q s c) (hcores : t.cores = s.cores) (hturn : Turn P Q s t (Member s.lookups) us) :
    Ends P Q s t us := by
  refine ⟨_, hturn, fun room d hd => ?_⟩
  rw [hcores]
  exact h.joined room d hd

theorem send (h : Start P Q s c) (message : String) :
    Turn P Q s (s.send c message) (Member s.lookups) [toSelf c message] := h.turn.send h.notAside message

theorem sendError (h : Start P Q s c) (message : String) : Ends P Q s (s.sendError c message) [errorTo c message] :=
  h.ends (quiet_send ..).cores (h.send _)

theorem handleJoin (h : Start P Q s c) (room : String) :
    Ends P Q s (s.handleJoin c room) (s.reply c (.join room)) := by
  rw [WebSocketServer.handleJoin, reply]
  by_cases hroom : room = ""
  · rw [if_pos hroom, if_pos hroom]
    exact h.sendError _
  rw [if_neg hroom, if_neg hroom]
  by_cases hjoined : (s.joinedRooms c).contains room = true
  · rw [if_pos hjoined, if_pos hjoined]
    exact h.sendError _
  rw [if_neg hjoined, if_neg hjoined]
  let t := s.modifySession c fun x => { x with joinedRooms := x.joinedRooms.insert room }
  have ht : Changes s t c fun k => { k with joinedRooms := k.joinedRooms.insert room } :=
    changes_modifySession s c fun _ => rfl
  let u := (t.joinRoom c room).send c (makePayload "JOINED" [("room", room)])
  have hu : Changes s u c fun k => { k with joinedRooms := k.joinedRooms.insert room } :=
    (ht.quiet (quiet_joinRoom ..)).quiet (quiet_send ..)
  have hname : u.nickname c = s.nickname c := nickname_of_changes hu fun _ => rfl
  have ht' : Turn P Q s t _ _ := h.turn.modify (fun _ => rfl) fun _ _ => id
  have hturn : Turn P Q s u _ _ := (ht'.joinRoom h.notAside room).send h.notAside _
  show Ends P Q s (u.broadcastToRoom room (announcement room (u.nickname c ++ " joined the room")) (some c)) _
  rw [hname]
  refine ⟨_, hturn.broadcast (p := fun d => d != c && s.inRoom room d) fun d hd => ?_, fun r d hd => ?_⟩
  · rw [h.others hd]
    constructor
    · exact fun hm => ⟨.inl hm.1, hm.2⟩
    · rintro ⟨hm | ⟨-, rfl⟩, hne⟩
      · exact ⟨hm, hne⟩
      · exact absurd rfl hne
  · rw [(quiet_broadcastToRoom ..).cores, hu.cores, joined_change, h.joined r d hd]
    split
    · rename_i hdc
      subst hdc
      obtain ⟨k, hk, -⟩ := h.isOpen d hd
      simp [Joined, hk, TreeSet.mem_insert, or_comm, @eq_comm _ room]
    · rename_i hdc
      simp [hdc]

theorem handleLeave (h : Start P Q s c) (room : String) :
    Ends P Q s (s.handleLeave c room) (s.reply c (.leave room)) := by
  rw [WebSocketServer.handleLeave, reply]
  by_cases hjoined : (s.joinedRooms c).contains room = true
  swap
  · rw [Bool.eq_false_iff.2 hjoined, if_pos (by decide), if_neg Bool.false_ne_true]
    exact h.sendError _
  rw [hjoined, if_neg (by decide), if_pos rfl]
  let t := s.modifySession c fun x => { x with joinedRooms := x.joinedRooms.erase room }
  have ht : Changes s t c fun k => { k with joinedRooms := k.joinedRooms.erase room } :=
    changes_modifySession s c fun _ => rfl
  let u := (t.leaveRoom c room).send c (makePayload "LEFT" [("room", room)])
  have hu : Changes s u c fun k => { k with joinedRooms := k.joinedRooms.erase room } :=
    (ht.quiet (quiet_leaveRoom ..)).quiet (quiet_send ..)
  have hname : u.nickname c = s.nickname c := nickname_of_changes hu fun _ => rfl
  have ht' : Turn P Q s t _ _ := h.turn.modify (fun _ => rfl) fun _ _ => id
  have hturn : Turn P Q s u _ _ := (ht'.leaveRoom c room).send h.notAside _
  show Ends P Q s (u.broadcastToRoom room (announcement room (u.nickname c ++ " left the room")) (some c)) _
  rw [hname]
  refine ⟨_, hturn.broadcast (p := fun d => d != c && s.inRoom room d) fun d hd => ?_, fun r d hd => ?_⟩
  · rw [h.others hd]
    constructor
    · exact fun hm => ⟨⟨hm.1, fun heq => hm.2 (congrArg some heq.2)⟩, hm.2⟩
    · exact fun hm => ⟨hm.1.1, hm.2⟩
  · rw [(quiet_broadcastToRoom ..).cores, hu.cores, joined_change, h.joined r d hd]
    split
    · rename_i hdc
      subst hdc
      obtain ⟨k, hk, -⟩ := h.isOpen d hd
      simp [Joined, hk, TreeSet.mem_erase, and_comm, @eq_comm _ room]
    · rename_i hdc
      simp [hdc]

/-- The sender hears its own message by `send`, the others by the broadcast. -/
theorem handleMessage (h : Start P Q s c) (room text : String) :
    Ends P Q s (s.handleMessage c room text) (s.reply c (.message room text)) := by
  rw [WebSocketServer.handleMessage, reply]
  by_cases hroom : room = ""
  · rw [if_pos hroom, if_pos hroom]
    exact h.sendError _
  rw [if_neg hroom, if_neg hroom]
  by_cases hjoined : (s.joinedRooms c).contains room = true
  swap
  · rw [Bool.eq_false_iff.2 hjoined, if_pos (by decide), if_neg Bool.false_ne_true]
    exact h.sendError _
  rw [hjoined, if_neg (by decide), if_pos rfl]
  refine h.ends ((quiet_send ..).trans (quiet_broadcastToRoom ..)).cores ?_
  refine ((h.send _).broadcast (p := fun d => d != c && s.inRoom room d) fun d hd => h.others hd).congr
    fun d hd => ?_
  rw [heard_append, heard_single, heard_single, heard_single]
  by_cases hdc : d = c
  · subst hdc
    have hin : s.inRoom room d = true := by
      rw [WebSocketServer.inRoom, isOpen_iff.2 (h.isOpen d hd), hjoined]
      rfl
    simp [toSelf, toRoom, hin]
  · have hself : (d == c) = false := beq_eq_false_iff_ne.2 hdc
    simp only [toSelf, toRoom, bne, hself, Bool.not_false, Bool.true_and, Bool.false_eq_true, if_false,
      List.nil_append]
    rfl

theorem handleNick (h : Start P Q s c) (name : String) :
    Ends P Q s (s.handleNick c name) (s.reply c (.nick name)) := by
  rw [WebSocketServer.handleNick, reply]
  by_cases hname : name = ""
  · rw [if_pos hname, if_pos hname]
    exact h.sendError _
  rw [if_neg hname, if_neg hname]
  by_cases havail : s.isNicknameAvailable name c = true
  swap
  · rw [Bool.eq_false_iff.2 havail, if_pos (by decide), if_neg Bool.false_ne_true]
    exact h.sendError _
  rw [havail, if_neg (by decide), if_pos rfl]
  let t := s.modifySession c fun x => { x with nickname := name }
  have ht : Changes s t c fun k => { k with nickname := name } := changes_modifySession s c fun _ => rfl
  let u := t.send c (makePayload "NICK_OK" [("name", name)])
  have hu : Changes s u c fun k => { k with nickname := name } := ht.quiet (quiet_send ..)
  have hrooms : u.joinedRooms c = s.joinedRooms c := joinedRooms_of_changes hu fun _ => rfl
  have ht' : Turn P Q s t _ _ := h.turn.modify (fun _ => rfl) fun _ _ => id
  have hturn : Turn P Q s u _ _ := ht'.send h.notAside _
  show Ends P Q s ((u.joinedRooms c).toList.foldl (fun u room => u.broadcastToRoom room
    (announcement room (s.nickname c ++ " is now known as " ++ name)) none) u) _
  rw [hrooms]
  refine ⟨_, hturn.broadcasts (p := s.inRoom) (fun room d hd => h.inRoom hd) _ _, fun r d hd => ?_⟩
  rw [(quiet_foldl (fun _ _ => quiet_broadcastToRoom ..) _ _).cores, hu.cores, joined_change, h.joined r d hd]
  split
  · rename_i hdc
    subst hdc
    rfl
  · rfl

theorem handleListRooms (h : Start P Q s c) :
    Ends P Q s (s.handleListRooms c) (s.reply c .listRooms) := by
  have hturn : Turn P Q s s.buildRoomList.1 (Member s.lookups) [] := h.turn.sweep rfl fun r => .inr (by
    show (s.rooms.map fun _ => s.cleanup)[r]? = _
    rw [TreeMap.getElem?_map]
    rfl)
  exact h.ends (quiet_handleListRooms s c).cores (hturn.send h.notAside _)

theorem handleListMembers (h : Start P Q s c) (room : String) :
    Ends P Q s (s.handleListMembers c room) (s.reply c (.listMembers room)) := by
  have hcores := (quiet_handleListMembers s c room).cores
  rw [WebSocketServer.handleListMembers, reply] at *
  by_cases hroom : room = ""
  · rw [if_pos hroom, if_pos hroom]
    exact h.sendError _
  rw [if_neg hroom] at hcores
  rw [if_neg hroom, if_neg hroom]
  rw [buildMemberList] at *
  split at hcores
  · rename_i heq
    split at heq
    · cases heq
      exact h.sendError _
    · cases heq
  · rename_i heq
    split at heq
    · cases heq
    · cases heq
      exact h.ends hcores ((h.turn.cleanupRoom room).send h.notAside _)

theorem handleCommand (h : Start P Q s c) (command : Command) :
    Ends P Q s (s.handleCommand c command) (s.reply c command) := by
  cases command with
  | join room => exact h.handleJoin room
  | leave room => exact h.handleLeave room
  | message room text => exact h.handleMessage room text
  | nick name => exact h.handleNick name
  | listRooms => exact h.handleListRooms
  | listMembers room => exact h.handleListMembers room
  | error message => exact h.sendError message

/-- A close of a session that is open, but not afterwards. -/
theorem onClose (h : Start P Q s c) (hc : ¬ P c) : Ends P Q s (s.onClose c) (s.farewell c) := by
  by_cases hopen : s.isOpen c = true
  swap
  · rw [farewell, if_neg hopen]
    rw [onClose_of_not_open (Bool.eq_false_iff.2 hopen)]
    exact h.ends rfl h.turn
  rw [farewell, if_pos hopen]
  let t := s.modifySession c fun x => { x with isOpen := false }
  have ht : Changes s t c fun k => { k with isOpen := false } := changes_modifySession s c fun _ => rfl
  let u := t.modifySession c fun x => { x with joinedRooms := ∅ }
  have hu : Changes s u c fun k => { k with isOpen := false, joinedRooms := ∅ } :=
    ht.change (g := fun k => { k with joinedRooms := ∅ }) (changes_modifySession t c fun _ => rfl)
  have hrooms : t.joinedRooms c = s.joinedRooms c := joinedRooms_of_changes ht fun _ => rfl
  have hname : u.nickname c = s.nickname c := nickname_of_changes hu fun _ => rfl
  have ht' : Turn P Q s t _ _ := h.turn.modify (fun _ => rfl) fun _ _ => id
  have hu' : Turn P Q s u _ _ := ht'.modify (fun _ => rfl) fun _ _ => id
  have hturn := hu'.departures (p := fun room d => d != c && s.inRoom room d) (fun room d hd => by
    rw [h.others hd, ne_eq, ne_eq, Option.some_inj]) hname (s.joinedRooms c).toList
  have heq : s.onClose c = (t.leaveAllRooms c).unregisterSession c := by
    obtain ⟨x, hx⟩ : ∃ x, s.heap c = some x := by
      obtain ⟨k, hk, -⟩ := isOpen_iff.1 hopen
      exact heap_of_core hk
    have hx' : x.isOpen = true := by simpa [WebSocketServer.isOpen, hx] using hopen
    unfold WebSocketServer.onClose
    rw [hx]
    simp only [hx', Bool.not_true, Bool.false_eq_true, if_false]
    rfl
  have hleft : t.leaveAllRooms c = (s.joinedRooms c).toList.foldl (fun s room =>
      (s.leaveRoom c room).broadcastToRoom room (announcement room (s.nickname c ++ " left the room"))
        (some c)) u := by
    unfold leaveAllRooms
    rw [hrooms]
  rw [heq, hleft]
  refine ⟨_, hturn.sweep rfl fun r => .inl rfl, fun room d hd => ?_⟩
  have hdc : d ≠ c := by
    rintro rfl
    exact hc hd
  have hcores : (((s.joinedRooms c).toList.foldl (fun s room =>
      (s.leaveRoom c room).broadcastToRoom room (announcement room (s.nickname c ++ " left the room"))
        (some c)) u).unregisterSession c).cores = u.cores :=
    (quiet_foldl (fun _ _ => (quiet_leaveRoom ..).trans (quiet_broadcastToRoom ..)) _ _).cores
  rw [hcores, hu.cores, joined_change, if_neg hdc, ← h.joined room d hd]
  exact and_iff_left fun hm => hdc hm.2

end Start

end Portfolio.Chat
