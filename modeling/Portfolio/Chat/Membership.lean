import Portfolio.Chat.SessionInv

/-!
# Rooms of the chat server

Membership is kept twice, in `joined_rooms_` of a session and in the members of a room. `RoomsOk` says
that the two agree, in terms of the cores and of what a lookup in `rooms_` gives. It is kept by every
handler but one: a JOIN that is read from a session after its close.
-/

namespace Portfolio.Chat
open Std WebSocketServer

/-! ### The two sides of membership -/

def Joined (cores : Nat → Option Core) (room : String) (c : Nat) : Prop :=
  ∃ k, cores c = some k ∧ room ∈ k.joinedRooms

def Open (cores : Nat → Option Core) (c : Nat) : Prop := ∃ k, cores c = some k ∧ k.isOpen = true

def Member (rooms : String → Option (List Nat)) (room : String) (c : Nat) : Prop :=
  ∃ ms, rooms room = some ms ∧ c ∈ ms

/-- Both sides agree, on open sessions only, and rooms are not empty. -/
structure RoomsOk (cores : Nat → Option Core) (rooms : String → Option (List Nat)) : Prop where
  agree : ∀ room c, Member rooms room c ↔ Joined cores room c
  isOpen : ∀ room c, Joined cores room c → Open cores c
  inhabited : ∀ room ms, rooms room = some ms → ms ≠ []

/-- A room that `c` has left; it is dropped when nobody remains. -/
def without (c : Nat) (room : Option (List Nat)) : Option (List Nat) :=
  (room.map fun ms => ms.filter (· ≠ c)).filter fun ms => !ms.isEmpty

theorem without_eq_some {c : Nat} {room : Option (List Nat)} {ms : List Nat} :
    without c room = some ms ↔ (∃ ms', room = some ms' ∧ ms = ms'.filter (· ≠ c)) ∧ ms ≠ [] := by
  cases room with
  | none => simp [without]
  | some ms' =>
    simp only [without, Option.map_some, Option.filter_eq_some_iff, Option.some.injEq, Bool.not_eq_true',
      List.isEmpty_eq_false_iff]
    constructor
    · rintro ⟨rfl, hne⟩
      exact ⟨⟨ms', rfl, rfl⟩, hne⟩
    · rintro ⟨⟨ms'', rfl, rfl⟩, hne⟩
      exact ⟨rfl, hne⟩

theorem mem_without {c d : Nat} {room : Option (List Nat)} :
    (∃ ms, without c room = some ms ∧ d ∈ ms) ↔ (∃ ms, room = some ms ∧ d ∈ ms) ∧ d ≠ c := by
  constructor
  · rintro ⟨ms, hms, hd⟩
    obtain ⟨⟨ms', rfl, rfl⟩, -⟩ := without_eq_some.1 hms
    obtain ⟨hd, hne⟩ := List.mem_filter.1 hd
    exact ⟨⟨ms', rfl, hd⟩, by simpa using hne⟩
  · rintro ⟨⟨ms, rfl, hd⟩, hne⟩
    have hmem : d ∈ ms.filter (· ≠ c) := List.mem_filter.2 ⟨hd, by simpa using hne⟩
    exact ⟨ms.filter (· ≠ c), without_eq_some.2 ⟨⟨ms, rfl, rfl⟩, List.ne_nil_of_mem hmem⟩, hmem⟩

theorem without_idem (c : Nat) (room : Option (List Nat)) : without c (without c room) = without c room := by
  cases hroom : without c room with
  | none => rfl
  | some ms =>
    obtain ⟨⟨ms', rfl, rfl⟩, hne⟩ := without_eq_some.1 hroom
    refine without_eq_some.2 ⟨⟨_, rfl, ?_⟩, hne⟩
    rw [List.filter_filter]
    simp

/-! ### Changes of one core -/

theorem joined_change {s : WebSocketServer} {c : Nat} {f : Core → Core} (room : String) (d : Nat) :
    Joined (s.change c f) room d ↔
      if d = c then ∃ k, s.cores c = some k ∧ room ∈ (f k).joinedRooms else Joined s.cores room d := by
  unfold Joined
  split
  · rename_i hd
    rw [hd, change_self]
    simp [Option.map_eq_some_iff]
  · rename_i hd
    rw [change_of_ne hd]

theorem open_change {s : WebSocketServer} {c : Nat} {f : Core → Core} (d : Nat) :
    Open (s.change c f) d ↔
      if d = c then ∃ k, s.cores c = some k ∧ (f k).isOpen = true else Open s.cores d := by
  unfold Open
  split
  · rename_i hd
    rw [hd, change_self]
    simp [Option.map_eq_some_iff]
  · rename_i hd
    rw [change_of_ne hd]

namespace RoomsOk
variable {s t : WebSocketServer} {rooms rooms' : String → Option (List Nat)} {c : Nat} {f : Core → Core}

/-- A change that matters neither for the openness nor for the rooms of the session. -/
theorem change (h : RoomsOk s.cores rooms) (hopen : ∀ k, s.cores c = some k → k.isOpen = true → (f k).isOpen = true)
    (hjoined : ∀ k, (f k).joinedRooms = k.joinedRooms) : RoomsOk (s.change c f) rooms := by
  have hj : ∀ room d, Joined (s.change c f) room d ↔ Joined s.cores room d := by
    intro room d
    rw [joined_change]
    split
    · rename_i hd
      simp only [hjoined, hd, Joined]
    · exact Iff.rfl
  refine ⟨fun room d => (h.agree room d).trans (hj room d).symm, fun room d hd => ?_, h.inhabited⟩
  obtain ⟨k, hk, ho⟩ := h.isOpen room d ((hj room d).1 hd)
  rw [open_change]
  split
  · rename_i hdc
    subst hdc
    exact ⟨k, hk, hopen k hk ho⟩
  · exact ⟨k, hk, ho⟩

theorem join (h : RoomsOk s.cores rooms) {k : Core} (hk : s.cores c = some k) (ho : k.isOpen = true)
    {room : String} {ms : List Nat} (hms : ∀ d, d ∈ ms ↔ Member rooms room d ∨ d = c)
    (hopen : ∀ k, (f k).isOpen = k.isOpen) (hjoined : ∀ k r, r ∈ (f k).joinedRooms ↔ r = room ∨ r ∈ k.joinedRooms) :
    RoomsOk (s.change c f) (Function.update rooms room (some ms)) := by
  have hm : ∀ r d, Member (Function.update rooms room (some ms)) r d ↔ Member rooms r d ∨ (r = room ∧ d = c) := by
    intro r d
    unfold Member
    by_cases hr : r = room
    · subst hr
      rw [Function.update_self]
      simp [hms, Member]
    · rw [Function.update_of_ne hr]
      simp [hr]
  have hj : ∀ r d, Joined (s.change c f) r d ↔ Joined s.cores r d ∨ (r = room ∧ d = c) := by
    intro r d
    rw [joined_change]
    split
    · rename_i hd
      subst hd
      simp [Joined, hk, hjoined, or_comm]
    · rename_i hd
      simp [hd]
  refine ⟨fun r d => ?_, fun r d hd => ?_, fun r ms' hr => ?_⟩
  · rw [hm, hj, h.agree]
  · rw [open_change]
    split
    · exact ⟨k, hk, (hopen k).trans ho⟩
    · rename_i hdc
      rcases (hj r d).1 hd with hd | hd
      · exact h.isOpen r d hd
      · exact absurd hd.2 hdc
  · by_cases hrr : r = room
    · subst hrr
      rw [Function.update_self] at hr
      cases hr
      exact List.ne_nil_of_mem ((hms c).2 (.inr rfl))
    · rw [Function.update_of_ne hrr] at hr
      exact h.inhabited r ms' hr

theorem leave (h : RoomsOk s.cores rooms) {room : String} (hopen : ∀ k, (f k).isOpen = k.isOpen)
    (hjoined : ∀ k r, r ∈ (f k).joinedRooms ↔ r ≠ room ∧ r ∈ k.joinedRooms) :
    RoomsOk (s.change c f) (Function.update rooms room (without c (rooms room))) := by
  have hm : ∀ r d, Member (Function.update rooms room (without c (rooms room))) r d ↔
      Member rooms r d ∧ ¬ (r = room ∧ d = c) := by
    intro r d
    unfold Member
    by_cases hr : r = room
    · subst hr
      rw [Function.update_self, mem_without]
      simp
    · rw [Function.update_of_ne hr]
      simp [hr]
  have hj : ∀ r d, Joined (s.change c f) r d ↔ Joined s.cores r d ∧ ¬ (r = room ∧ d = c) := by
    intro r d
    rw [joined_change]
    split
    · rename_i hd
      subst hd
      simp only [hjoined, Joined, and_true]
      constructor
      · rintro ⟨k, hk, hne, hr⟩
        exact ⟨⟨k, hk, hr⟩, hne⟩
      · rintro ⟨⟨k, hk, hr⟩, hne⟩
        exact ⟨k, hk, hne, hr⟩
    · rename_i hd
      simp [hd]
  refine ⟨fun r d => ?_, fun r d hd => ?_, fun r ms' hr => ?_⟩
  · rw [hm, hj, h.agree]
  · obtain ⟨k, hk, ho⟩ := h.isOpen r d ((hj r d).1 hd).1
    rw [open_change]
    split
    · rename_i hdc
      subst hdc
      exact ⟨k, hk, (hopen k).trans ho⟩
    · exact ⟨k, hk, ho⟩
  · by_cases hrr : r = room
    · subst hrr
      rw [Function.update_self] at hr
      exact (without_eq_some.1 hr).2
    · rw [Function.update_of_ne hrr] at hr
      exact h.inhabited r ms' hr

/-- A session that leaves all its rooms and then closes. -/
theorem close (h : RoomsOk s.cores rooms) (hjoined : ∀ k r, r ∉ (f k).joinedRooms)
    (hrooms : ∀ r, rooms' r = without c (rooms r) ∨ (rooms' r = rooms r ∧ ¬ Joined s.cores r c)) :
    RoomsOk (s.change c f) rooms' := by
  have hm : ∀ r d, Member rooms' r d ↔ Member rooms r d ∧ d ≠ c := by
    intro r d
    unfold Member
    rcases hrooms r with hr | ⟨hr, hnot⟩
    · rw [hr, mem_without]
    · rw [hr]
      constructor
      · intro hd
        refine ⟨hd, ?_⟩
        rintro rfl
        exact hnot ((h.agree r d).1 hd)
      · exact And.left
  have hj : ∀ r d, Joined (s.change c f) r d ↔ Joined s.cores r d ∧ d ≠ c := by
    intro r d
    rw [joined_change]
    split
    · rename_i hd
      simp [hjoined, hd]
    · rename_i hd
      simp [hd]
  refine ⟨fun r d => ?_, fun r d hd => ?_, fun r ms hr => ?_⟩
  · rw [hm, hj, h.agree]
  · obtain ⟨hd, hne⟩ := (hj r d).1 hd
    rw [open_change, if_neg hne]
    exact h.isOpen r d hd
  · rcases hrooms r with hr' | ⟨hr', -⟩
    · exact (without_eq_some.1 (hr'.symm.trans hr)).2
    · exact h.inhabited r ms (hr'.symm.trans hr)

end RoomsOk

/-! ### Handlers on the rooms -/

namespace WebSocketServer
variable {s t : WebSocketServer} {c : Nat}

def lookups (s : WebSocketServer) (room : String) : Option (List Nat) := s.rooms[room]?

/-- No member has expired. -/
def MembersBusy (s : WebSocketServer) : Prop :=
  ∀ room d, Member s.lookups room d → ∃ k, s.cores d = some k ∧ k.read ≠ .idle

theorem cleanup_eq (h : MembersBusy s) {room : String} {ms : List Nat} (hms : s.lookups room = some ms) :
    s.cleanup ms = ms := by
  refine List.filter_eq_self.2 fun d hd => ?_
  obtain ⟨k, hk, hbusy⟩ := h room d ⟨ms, hms, hd⟩
  exact lock_of_core hk hbusy

theorem map_cleanup (h : MembersBusy s) (room : String) : (s.lookups room).map s.cleanup = s.lookups room := by
  cases hms : s.lookups room with
  | none => rfl
  | some ms => rw [Option.map_some, cleanup_eq h hms]

theorem lookups_cleanupRoom (h : MembersBusy s) (room : String) : (s.cleanupRoom room).lookups = s.lookups := by
  funext r
  show (s.rooms.modify room s.cleanup)[r]? = s.rooms[r]?
  rw [TreeMap.getElem?_modify]
  split
  · rename_i hr
    rw [Std.compare_eq_iff_eq] at hr
    subst hr
    exact map_cleanup h room
  · rfl

theorem lookups_sends (recipients : List Nat) (message : String) (s : WebSocketServer) :
    (recipients.foldl (fun s d => s.send d message) s).lookups = s.lookups := by
  induction recipients generalizing s with
  | nil => rfl
  | cons d recipients ih => exact ih (s.send d message)

theorem lookups_broadcastToRoom (h : MembersBusy s) (room message : String) (sender : Option Nat) :
    (s.broadcastToRoom room message sender).lookups = s.lookups := by
  unfold broadcastToRoom
  split
  · rfl
  · exact (lookups_sends _ _ _).trans (lookups_cleanupRoom h room)

theorem lookups_joinRoom (h : MembersBusy s) (c : Nat) (room : String) :
    ∃ ms, (∀ d, d ∈ ms ↔ Member s.lookups room d ∨ d = c) ∧
      (s.joinRoom c room).lookups = Function.update s.lookups room (some ms) := by
  refine ⟨s.joinMembers c (s.rooms.getD room []), fun d => ?_, ?_⟩
  · rw [TreeMap.getD_eq_getD_getElem?]
    unfold joinMembers Member
    cases hms : s.lookups room with
    | none =>
      have hms' : s.rooms[room]? = none := hms
      simp [hms', cleanup]
    | some ms =>
      have hms' : s.rooms[room]? = some ms := hms
      rw [hms', Option.getD_some, cleanup_eq h hms]
      by_cases hd : d = c
      · simp [hd]
      · simp [hd]
  · funext r
    show (s.rooms.insert room _)[r]? = _
    rw [TreeMap.getElem?_insert]
    by_cases hr : r = room
    · subst hr
      rw [Function.update_self, if_pos (Std.compare_eq_iff_eq.2 rfl)]
    · rw [Function.update_of_ne hr, if_neg fun heq => hr (Std.compare_eq_iff_eq.1 heq).symm]
      rfl

theorem lookups_leaveRoom (h : MembersBusy s) (c : Nat) (room : String) :
    (s.leaveRoom c room).lookups = Function.update s.lookups room (without c (s.lookups room)) := by
  funext r
  unfold leaveRoom
  split
  · rename_i hnone
    have hnone' : s.lookups room = none := hnone
    by_cases hr : r = room
    · subst hr
      rw [Function.update_self, hnone']
      rfl
    · rw [Function.update_of_ne hr]
  · rename_i ms hms
    have hms' : s.lookups room = some ms := hms
    rw [cleanup_eq h hms', hms']
    dsimp only
    by_cases hr : r = room
    · subst hr
      rw [Function.update_self]
      split
      · rename_i hempty
        show (s.rooms.erase r)[r]? = _
        rw [TreeMap.getElem?_erase_self, without, Option.map_some, Option.filter_some, hempty]
        rfl
      · rename_i hempty
        show (s.rooms.insert r _)[r]? = _
        rw [TreeMap.getElem?_insert_self, without, Option.map_some, Option.filter_some,
          Bool.eq_false_iff.2 hempty]
        rfl
    · have hcmp : compare room r ≠ .eq := fun heq => hr (Std.compare_eq_iff_eq.1 heq).symm
      rw [Function.update_of_ne hr]
      split
      · show (s.rooms.erase room)[r]? = _
        rw [TreeMap.getElem?_erase, if_neg hcmp]
        rfl
      · show (s.rooms.insert room _)[r]? = _
        rw [TreeMap.getElem?_insert, if_neg hcmp]
        rfl

theorem lookups_buildRoomList (h : MembersBusy s) : s.buildRoomList.1.lookups = s.lookups := by
  funext r
  show (s.rooms.map fun _ => s.cleanup)[r]? = s.rooms[r]?
  rw [TreeMap.getElem?_map]
  exact map_cleanup h r

theorem MembersBusy.of_eq (h : MembersBusy s) (hcores : t.cores = s.cores)
    (hrooms : ∀ room d, Member t.lookups room d → Member s.lookups room d) : MembersBusy t := by
  intro room d hd
  rw [hcores]
  exact h room d (hrooms room d hd)

theorem MembersBusy.changes {f : Core → Core} (h : MembersBusy s) (hch : Changes s t c f)
    (hrooms : t.lookups = s.lookups) (hread : ∀ k, (f k).read = k.read) : MembersBusy t := by
  intro room d hd
  rw [hrooms] at hd
  obtain ⟨k, hk, hbusy⟩ := h room d hd
  rw [hch.cores]
  by_cases hdc : d = c
  · subst hdc
    exact ⟨f k, by rw [change_self, hk]; rfl, by rw [hread]; exact hbusy⟩
  · exact ⟨k, by rw [change_of_ne hdc, hk], hbusy⟩

theorem MembersBusy.leaveRoom (h : MembersBusy s) (c : Nat) (room : String) : MembersBusy (s.leaveRoom c room) := by
  refine h.of_eq (quiet_leaveRoom s c room).cores fun r d hd => ?_
  rw [lookups_leaveRoom h] at hd
  by_cases hr : r = room
  · subst hr
    unfold Member at hd
    rw [Function.update_self, mem_without] at hd
    exact hd.1
  · unfold Member at hd
    rwa [Function.update_of_ne hr] at hd

/-- The loop of `leave_all_rooms`. -/
theorem lookups_leaveRooms (text : WebSocketServer → String → String) (c : Nat) (rooms : List String)
    (h : MembersBusy s) :
    (rooms.foldl (fun s room => (s.leaveRoom c room).broadcastToRoom room (text s room) (some c)) s).lookups =
      fun r => if r ∈ rooms then without c (s.lookups r) else s.lookups r := by
  induction rooms generalizing s with
  | nil => simp
  | cons room rooms ih =>
    have hleave := h.leaveRoom c room
    have hlook : ((s.leaveRoom c room).broadcastToRoom room (text s room) (some c)).lookups =
        Function.update s.lookups room (without c (s.lookups room)) :=
      (lookups_broadcastToRoom hleave ..).trans (lookups_leaveRoom h c room)
    have hbusy : MembersBusy ((s.leaveRoom c room).broadcastToRoom room (text s room) (some c)) :=
      hleave.of_eq (quiet_broadcastToRoom ..).cores fun r d hd => by
        rwa [lookups_broadcastToRoom hleave] at hd
    rw [List.foldl_cons, ih hbusy, hlook]
    funext r
    by_cases hr : r = room
    · subst hr
      simp [without_idem]
    · simp [hr]

theorem lookups_onClose (h : MembersBusy s) {k : Core} (hk : s.cores c = some k) (hopen : k.isOpen = true) :
    (s.onClose c).lookups = fun r => if r ∈ k.joinedRooms then without c (s.lookups r) else s.lookups r := by
  obtain ⟨x, hx, rfl⟩ := Option.map_eq_some_iff.1 hk
  have hopen' : x.isOpen = true := hopen
  let t := s.modifySession c fun x => { x with isOpen := false }
  have ht : Changes s t c fun k => { k with isOpen := false } := changes_modifySession s c fun _ => rfl
  let u := t.modifySession c fun x => { x with joinedRooms := ∅ }
  have hu : Changes t u c fun k => { k with joinedRooms := ∅ } := changes_modifySession t c fun _ => rfl
  have hbusy : MembersBusy u := (h.changes ht rfl fun _ => rfl).changes hu rfl fun _ => rfl
  have hjoined : t.joinedRooms c = x.joinedRooms := by
    refine joinedRooms_eq (k := { x.core with isOpen := false }) ?_
    rw [ht.cores, change_self, hk]
    rfl
  have heq : s.onClose c = (t.leaveAllRooms c).unregisterSession c := by
    unfold onClose
    rw [hx]
    simp only [hopen', Bool.not_true, Bool.false_eq_true, if_false]
    rfl
  rw [heq]
  show (t.leaveAllRooms c).lookups = _
  unfold leaveAllRooms
  rw [hjoined]
  refine (lookups_leaveRooms (fun s room => announcement room (s.nickname c ++ " left the room")) c
    x.joinedRooms.toList hbusy).trans ?_
  funext r
  simp only [TreeSet.mem_toList]
  rfl

/-! ### Commands on the rooms -/

/-- The loop of `handle_nick`. -/
theorem lookups_announcements (text : String → String) (rooms : List String) (h : MembersBusy s) :
    (rooms.foldl (fun s room => s.broadcastToRoom room (text room) none) s).lookups = s.lookups := by
  induction rooms generalizing s with
  | nil => rfl
  | cons room rooms ih =>
    have hlook := lookups_broadcastToRoom h room (text room) none
    rw [List.foldl_cons, ih, hlook]
    exact h.of_eq (quiet_broadcastToRoom ..).cores fun r d hd => by rwa [hlook] at hd

theorem handleJoin_spec (h : MembersBusy s) {k : Core} (hk : s.cores c = some k) (hread : k.read ≠ .idle)
    {room : String} (hroom : room ≠ "") (hnot : room ∉ k.joinedRooms) :
    Changes s (s.handleJoin c room) c (fun k => { k with joinedRooms := k.joinedRooms.insert room }) ∧
      ∃ ms, (∀ d, d ∈ ms ↔ Member s.lookups room d ∨ d = c) ∧
        (s.handleJoin c room).lookups = Function.update s.lookups room (some ms) := by
  let t := s.modifySession c fun x => { x with joinedRooms := x.joinedRooms.insert room }
  have ht : Changes s t c fun k => { k with joinedRooms := k.joinedRooms.insert room } :=
    changes_modifySession s c fun _ => rfl
  have hbusy : MembersBusy t := h.changes ht rfl fun _ => rfl
  obtain ⟨ms, hms, hlook⟩ := lookups_joinRoom hbusy c room
  have hcore : t.cores c = some { k with joinedRooms := k.joinedRooms.insert room } := by
    rw [ht.cores, change_self, hk]
    rfl
  let u := (t.joinRoom c room).send c (makePayload "JOINED" [("room", room)])
  have hbusy' : MembersBusy u := by
    intro r d hd
    have hd' : Member (t.joinRoom c room).lookups r d := hd
    rw [hlook] at hd'
    show ∃ k, u.cores d = some k ∧ _
    rw [((quiet_joinRoom t c room).trans (quiet_send _ c _)).cores]
    by_cases hr : r = room
    · subst hr
      unfold Member at hd'
      rw [Function.update_self] at hd'
      obtain ⟨ms', hms', hd'⟩ := hd'
      cases hms'
      rcases (hms d).1 hd' with hd' | rfl
      · exact hbusy r d hd'
      · exact ⟨_, hcore, hread⟩
    · unfold Member at hd'
      rw [Function.update_of_ne hr] at hd'
      exact hbusy r d hd'
  have heq : s.handleJoin c room =
      u.broadcastToRoom room (announcement room (u.nickname c ++ " joined the room")) (some c) := by
    unfold handleJoin
    rw [if_neg hroom, joinedRooms_eq hk, if_neg (by simpa [TreeSet.contains_iff_mem] using hnot)]
  rw [heq]
  exact ⟨((ht.quiet (quiet_joinRoom ..)).quiet (quiet_send ..)).quiet (quiet_broadcastToRoom ..), ms, hms,
    (lookups_broadcastToRoom hbusy' ..).trans hlook⟩

theorem handleLeave_spec (h : MembersBusy s) {k : Core} (hk : s.cores c = some k) {room : String}
    (hjoined : room ∈ k.joinedRooms) :
    Changes s (s.handleLeave c room) c (fun k => { k with joinedRooms := k.joinedRooms.erase room }) ∧
      (s.handleLeave c room).lookups = Function.update s.lookups room (without c (s.lookups room)) := by
  let t := s.modifySession c fun x => { x with joinedRooms := x.joinedRooms.erase room }
  have ht : Changes s t c fun k => { k with joinedRooms := k.joinedRooms.erase room } :=
    changes_modifySession s c fun _ => rfl
  have hbusy : MembersBusy t := h.changes ht rfl fun _ => rfl
  let u := (t.leaveRoom c room).send c (makePayload "LEFT" [("room", room)])
  have hbusy' : MembersBusy u := (hbusy.leaveRoom c room).of_eq (quiet_send ..).cores fun _ _ hd => hd
  have heq : s.handleLeave c room =
      u.broadcastToRoom room (announcement room (u.nickname c ++ " left the room")) (some c) := by
    unfold handleLeave
    rw [joinedRooms_eq hk, if_neg (by simpa [TreeSet.contains_iff_mem] using hjoined)]
  rw [heq]
  exact ⟨((ht.quiet (quiet_leaveRoom ..)).quiet (quiet_send ..)).quiet (quiet_broadcastToRoom ..),
    (lookups_broadcastToRoom hbusy' ..).trans (lookups_leaveRoom hbusy c room)⟩

end WebSocketServer

/-! ### The invariant -/

namespace RoomsOk
variable {s t : WebSocketServer} {c : Nat} {f : Core → Core}

theorem quiet (h : RoomsOk s.cores s.lookups) (hq : Quiet s t) (hrooms : t.lookups = s.lookups) :
    RoomsOk t.cores t.lookups := by
  rw [hq.cores, hrooms]
  exact h

theorem changes (h : RoomsOk s.cores s.lookups) (hch : Changes s t c f) (hrooms : t.lookups = s.lookups)
    (hopen : ∀ k, k.isOpen = true → (f k).isOpen = true) (hjoined : ∀ k, (f k).joinedRooms = k.joinedRooms) :
    RoomsOk t.cores t.lookups := by
  rw [hch.cores, hrooms]
  exact h.change (fun k _ => hopen k) hjoined

theorem membersBusy (hwf : Wf s) (h : RoomsOk s.cores s.lookups) : MembersBusy s := by
  intro room d hd
  obtain ⟨k, hk, ho⟩ := h.isOpen room d ((h.agree room d).1 hd)
  exact ⟨k, hk, (hwf.busy d k hk ho).1⟩

theorem handleJoin (hwf : Wf s) (h : RoomsOk s.cores s.lookups) {k : Core} (hk : s.cores c = some k)
    (hread : k.read ≠ .idle) {room : String} (hopen : room ≠ "" → k.isOpen = true) :
    RoomsOk (s.handleJoin c room).cores (s.handleJoin c room).lookups := by
  by_cases hroom : room = ""
  · have heq : s.handleJoin c room = s.sendError c "Room cannot be empty" := by
      unfold WebSocketServer.handleJoin
      rw [if_pos hroom]
    rw [heq]
    exact h.quiet (quiet_send ..) rfl
  · by_cases hjoined : room ∈ k.joinedRooms
    · have heq : s.handleJoin c room = s.sendError c "Already joined room" := by
        unfold WebSocketServer.handleJoin
        rw [if_neg hroom, joinedRooms_eq hk, if_pos (TreeSet.contains_iff_mem.2 hjoined)]
      rw [heq]
      exact h.quiet (quiet_send ..) rfl
    · obtain ⟨hch, ms, hms, hlook⟩ := handleJoin_spec (h.membersBusy hwf) hk hread hroom hjoined
      rw [hch.cores, hlook]
      refine h.join hk (hopen hroom) hms (fun _ => rfl) fun k r => ?_
      rw [TreeSet.mem_insert, Std.compare_eq_iff_eq, eq_comm]

theorem handleLeave (hwf : Wf s) (h : RoomsOk s.cores s.lookups) {k : Core} (hk : s.cores c = some k)
    (room : String) : RoomsOk (s.handleLeave c room).cores (s.handleLeave c room).lookups := by
  by_cases hjoined : room ∈ k.joinedRooms
  · obtain ⟨hch, hlook⟩ := handleLeave_spec (h.membersBusy hwf) hk hjoined
    rw [hch.cores, hlook]
    refine h.leave (fun _ => rfl) fun k r => ?_
    rw [TreeSet.mem_erase, ne_eq, Std.compare_eq_iff_eq, eq_comm]
  · have heq : s.handleLeave c room = s.sendError c "Not a member of room" := by
      have hcontains : k.joinedRooms.contains room = false :=
        Bool.eq_false_iff.2 fun hc => hjoined (TreeSet.contains_iff_mem.1 hc)
      unfold WebSocketServer.handleLeave
      rw [joinedRooms_eq hk, hcontains]
      rfl
    rw [heq]
    exact h.quiet (quiet_send ..) rfl

theorem onClose (hwf : Wf s) (h : RoomsOk s.cores s.lookups) {k : Core} (hk : s.cores c = some k) :
    RoomsOk (s.onClose c).cores (s.onClose c).lookups := by
  cases ho : k.isOpen with
  | false =>
    rw [onClose_of_closed hk ho]
    exact h
  | true =>
    have hlook := lookups_onClose (h.membersBusy hwf) hk ho
    rw [(closes_onClose hwf hk ho).cores]
    refine h.close (fun k r => TreeSet.not_mem_emptyc) fun r => ?_
    rw [hlook]
    by_cases hr : r ∈ k.joinedRooms
    · exact .inl (if_pos hr)
    · refine .inr ⟨if_neg hr, ?_⟩
      rintro ⟨k', hk', hr'⟩
      rw [hk] at hk'
      cases hk'
      exact hr hr'

theorem handleCommand (hwf : Wf s) (h : RoomsOk s.cores s.lookups) {k : Core} (hk : s.cores c = some k)
    (hread : k.read ≠ .idle) {command : Command}
    (hopen : ∀ room, command = .join room → room ≠ "" → k.isOpen = true) :
    RoomsOk (s.handleCommand c command).cores (s.handleCommand c command).lookups := by
  have hbusy := h.membersBusy hwf
  cases command with
  | join room => exact h.handleJoin hwf hk hread (hopen room rfl)
  | leave room => exact h.handleLeave hwf hk room
  | message room text =>
    refine h.quiet (quiet_handleMessage ..) ?_
    show (s.handleMessage c room text).lookups = _
    unfold handleMessage
    split
    · rfl
    · split
      · rfl
      · exact lookups_broadcastToRoom (hbusy.of_eq (quiet_send ..).cores fun _ _ hd => hd) ..
  | nick name =>
    show RoomsOk (s.handleNick c name).cores (s.handleNick c name).lookups
    have hrooms : (s.handleNick c name).lookups = s.lookups := by
      unfold handleNick
      split
      · rfl
      · split
        · rfl
        · refine lookups_announcements _ _ ?_
          have hch : Changes s (s.modifySession c fun x => { x with nickname := name }) c
              fun k => { k with nickname := name } := changes_modifySession s c fun _ => rfl
          exact (hbusy.changes hch rfl fun _ => rfl).of_eq (quiet_send ..).cores fun _ _ hd => hd
    rcases changes_handleNick s c name with hq | ⟨-, hch⟩
    · exact h.quiet hq hrooms
    · exact h.changes hch hrooms (fun _ => id) fun _ => rfl
  | listRooms => exact h.quiet (quiet_handleListRooms ..) (lookups_buildRoomList hbusy)
  | listMembers room =>
    refine h.quiet (quiet_handleListMembers ..) ?_
    have hlist : (s.buildMemberList room).1.lookups = s.lookups := by
      unfold buildMemberList
      split
      · rfl
      · exact lookups_cleanupRoom hbusy room
    show (s.handleListMembers c room).lookups = _
    unfold handleListMembers
    split
    · rfl
    · split
      · rename_i t heq
        rw [heq] at hlist
        exact hlist
      · rename_i t members heq
        rw [heq] at hlist
        exact hlist
  | error message => exact h.quiet (quiet_send ..) rfl

theorem connect (hwf : Wf s) (h : RoomsOk s.cores s.lookups) : RoomsOk s.connect.cores s.connect.lookups := by
  have hold : ∀ c, c ≠ s.nextSessionId → s.connect.cores c = s.cores c := by
    intro c hc
    rw [cores_connect, Function.update_of_ne hc]
  have hnew : s.connect.cores s.nextSessionId = some (WebSocketSession.new s.nextSessionId).core := by
    rw [cores_connect, Function.update_self]
  have hfresh := hwf.fresh s.nextSessionId (Nat.le_refl _)
  have hj : ∀ room c, Joined s.connect.cores room c ↔ Joined s.cores room c := by
    intro room c
    unfold Joined
    by_cases hc : c = s.nextSessionId
    · subst hc
      rw [hnew, hfresh]
      constructor
      · rintro ⟨k, hk, hroom⟩
        cases hk
        exact absurd hroom TreeSet.not_mem_emptyc
      · rintro ⟨k, hk, -⟩
        cases hk
    · rw [hold c hc]
  refine ⟨fun room c => (h.agree room c).trans (hj room c).symm, fun room c hc => ?_, h.inhabited⟩
  obtain ⟨k, hk, ho⟩ := h.isOpen room c ((hj room c).1 hc)
  refine ⟨k, ?_, ho⟩
  rw [hold c, hk]
  rintro rfl
  rw [hfresh] at hk
  cases hk

end RoomsOk

/-! ### Runs -/

namespace WebSocketServer
variable {s : WebSocketServer} {c : Nat}

/-- Membership is consistent: an open session is in the rooms it has joined, every room has an open
member, and no closed session is in a room. -/
structure Consistent (s : WebSocketServer) : Prop where
  joined : ∀ c x, s.heap c = some x → x.isOpen = true →
    ∀ room : String, (∃ ms, s.rooms[room]? = some ms ∧ c ∈ ms) ↔ room ∈ x.joinedRooms
  inhabited : ∀ (room : String) (ms : List Nat), s.rooms[room]? = some ms →
    ∃ c ∈ ms, ∃ x, s.heap c = some x ∧ x.isOpen = true
  closed : ∀ c, (∀ x, s.heap c = some x → x.isOpen = false) →
    ∀ (room : String) (ms : List Nat), s.rooms[room]? = some ms → c ∉ ms

/-- The handler of a finished read does not find a JOIN (of a room with a name) for a session that has
been closed. -/
def NoLateJoin (s : WebSocketServer) : Event → Prop
  | .read c => ∀ x payload room, s.heap c = some x → x.read = .completed (some payload) →
    Command.ofPayload payload = .join room → room ≠ "" → x.isOpen = true
  | _ => True

theorem consistent_of_roomsOk (h : RoomsOk s.cores s.lookups) : Consistent s := by
  refine ⟨fun c x hx _ room => ?_, fun room ms hms => ?_, fun c hc room ms hms hmem => ?_⟩
  · refine (h.agree room c).trans ⟨?_, fun hroom => ⟨x.core, core_eq hx, hroom⟩⟩
    rintro ⟨k, hk, hroom⟩
    rw [core_eq hx] at hk
    cases hk
    exact hroom
  · obtain ⟨c, hc⟩ := List.exists_mem_of_ne_nil ms (h.inhabited room ms hms)
    obtain ⟨k, hk, ho⟩ := h.isOpen room c ((h.agree room c).1 ⟨ms, hms, hc⟩)
    obtain ⟨x, hx, rfl⟩ := Option.map_eq_some_iff.1 hk
    exact ⟨c, hc, x, hx, ho⟩
  · obtain ⟨k, hk, ho⟩ := h.isOpen room c ((h.agree room c).1 ⟨ms, hms, hmem⟩)
    obtain ⟨x, hx, rfl⟩ := Option.map_eq_some_iff.1 hk
    have hclosed : x.core.isOpen = false := hc x hx
    rw [hclosed] at ho
    cases ho

theorem roomsOk_exec (hwf : Wf s) (h : RoomsOk s.cores s.lookups) {event : Event} (hev : s.NoLateJoin event) :
    RoomsOk (s.exec event).cores (s.exec event).lookups := by
  cases event with
  | connect => exact h.connect hwf
  | accepted c ok =>
    show RoomsOk (s.onAccept c ok).cores (s.onAccept c ok).lookups
    rcases s.onAccept_cases c ok with heq | ⟨k, hk, hread, rfl | ⟨rfl, heq⟩⟩
    · rw [heq]
      exact h
    · have hrooms : (s.onAccept c true).lookups = s.lookups := by
        obtain ⟨x, hx, rfl⟩ := Option.map_eq_some_iff.1 hk
        simp only [onAccept, hx, show x.read = .accepting from hread]
        rfl
      rw [hrooms, (accepts_onAccept hk hread).cores]
      exact h.change (fun _ _ _ => rfl) fun _ => rfl
    · rw [heq]
      exact h.changes (changes_endRead s c) rfl (fun _ => id) fun _ => rfl
  | arrive c result =>
    refine h.changes (f := fun k => if k.read = .reading ∧ (k.isOpen = true ∨ result = none) then
      { k with read := .completed result } else k)
      (changes_modifySession s c fun x => apply_ite WebSocketSession.core _ _ _) rfl (fun k hk => ?_) fun k => ?_
    · split
      · exact hk
      · exact hk
    · split
      · rfl
      · rfl
  | read c =>
    show RoomsOk (s.onRead c).cores (s.onRead c).lookups
    unfold onRead
    split
    · exact h
    rename_i x hx
    split
    · exact (h.onClose hwf (core_eq hx)).changes (changes_endRead _ c) rfl (fun _ => id) fun _ => rfl
    · rename_i payload hread
      have hread' : x.core.read ≠ .idle := by
        show x.read ≠ .idle
        simp [hread]
      exact (h.handleCommand hwf (core_eq hx) hread' fun room hjoin => hev x payload room hx hread hjoin).changes
        (changes_doRead _ c) rfl (fun _ => id) fun _ => rfl
    · exact h
  | runPosted c => exact h.quiet (quiet_modifySession s c core_runPosted) rfl
  | written c result =>
    show RoomsOk (s.onWrite c result).cores (s.onWrite c result).lookups
    unfold onWrite
    split
    · exact h
    rename_i x hx
    split
    · exact h
    split
    · exact h.quiet (quiet_modifySession s c fun _ => rfl) rfl
    · exact h.quiet (quiet_modifySession s c fun _ => rfl) rfl
    · exact (h.onClose hwf (core_eq hx)).quiet (quiet_modifySession _ c fun _ => rfl) rfl

/-- A JOIN of a closed session makes it a member. -/
theorem not_consistent_of_lateJoin (hwf : Wf s) (h : RoomsOk s.cores s.lookups) {x : WebSocketSession}
    {payload room : String} (hx : s.heap c = some x) (hread : x.read = .completed (some payload))
    (hjoin : Command.ofPayload payload = .join room) (hroom : room ≠ "") (hclosed : x.isOpen = false) :
    ¬ Consistent (s.exec (.read c)) := by
  have hk := core_eq hx
  have hbusy : x.core.read ≠ .idle := by
    show x.read ≠ .idle
    simp [hread]
  have hnot : room ∉ x.core.joinedRooms := by
    intro hmem
    obtain ⟨k, hk', ho⟩ := h.isOpen room c ⟨x.core, hk, hmem⟩
    rw [hk] at hk'
    cases hk'
    have hclosed' : x.core.isOpen = false := hclosed
    rw [hclosed'] at ho
    cases ho
  obtain ⟨hch, ms, hms, hlook⟩ := handleJoin_spec (h.membersBusy hwf) hk hbusy hroom hnot
  have heq : s.exec (.read c) = (s.handleJoin c room).doRead c := by
    simp only [exec, onRead, hx, hread, hjoin]
    rfl
  intro hcons
  rw [heq] at hcons
  refine hcons.closed c (fun y hy => ?_) room ms ?_ ((hms c).2 (.inr rfl))
  · have hy' := core_eq hy
    rw [(changes_doRead _ c).cores, change_self, hch.cores, change_self, hk] at hy'
    have := congrArg (Option.map (·.isOpen)) hy'
    simp only [Option.map_some, Option.some.injEq] at this
    exact this.symm.trans hclosed
  · show (s.handleJoin c room).lookups room = _
    rw [hlook, Function.update_self]

end WebSocketServer

theorem roomsOk_run {events : List Event} (h : chatMachine.Along NoLateJoin events) :
    RoomsOk (chatMachine.run events).1.cores (chatMachine.run events).1.lookups := by
  refine (chatMachine.run_inv_along (P := fun _ _ s => Wf s ∧ RoomsOk s.cores s.lookups) ⟨wf_init, ?_⟩
    (fun _ _ s event hs hev => ?_) events h).2
  · have hnone : ∀ room, chatMachine.init.lookups room = none := fun _ => TreeMap.getElem?_emptyc
    refine ⟨fun room c => ?_, nofun, fun room ms hms => ?_⟩
    · unfold Member
      rw [hnone]
      constructor
      · nofun
      · nofun
    · rw [hnone] at hms
      cases hms
  · exact ⟨hs.1.coreStep (coreStep_exec hs.1 event), roomsOk_exec hs.1 hs.2 hev⟩

/-- Membership is consistent in every state of a run if and only if no JOIN is read from a session
that has been closed. -/
theorem membership_consistent_iff (events : List Event) :
    (∀ pre, pre <+: events → Consistent (chatMachine.run pre).1) ↔ chatMachine.Along NoLateJoin events := by
  refine chatMachine.always_iff_along (P := fun run => Consistent run.1)
    (fun _ _ halong => consistent_of_roomsOk (roomsOk_run halong)) fun pre event _ halong hcons => ?_
  rw [Machine.run_concat] at hcons
  cases event with
  | read c =>
    intro x payload room hx hread hjoin hroom
    by_contra hclosed
    exact not_consistent_of_lateJoin (wf_run pre) (roomsOk_run halong) hx hread hjoin hroom
      (Bool.eq_false_iff.2 hclosed) hcons
  | connect => trivial
  | accepted _ _ => trivial
  | arrive _ _ => trivial
  | runPosted _ => trivial
  | written _ _ => trivial

/-- A JOIN has arrived when the write of the welcome message fails; its handler runs after the close. -/
def lateJoinRun : List Event :=
  [.connect, .accepted 1 true, .runPosted 1,
    .arrive 1 (some "\x7b\"cmd\":\"JOIN\",\"room\":\"lobby\"\x7d"), .written 1 .failed, .read 1, .arrive 1 none,
    .read 1, .runPosted 1, .runPosted 1]

/-- The session is closed and gone, and the room stays with it as the only member. -/
theorem closed_session_joins : ¬ Consistent (chatMachine.run lateJoinRun).1 := by
  intro h
  have hroom : (chatMachine.run lateJoinRun).1.rooms["lobby"]? = some [1] := by decide +kernel
  refine h.closed 1 (fun x hx => ?_) "lobby" [1] hroom (by decide)
  have hclosed : ((chatMachine.run lateJoinRun).1.heap 1).all (fun x => !x.isOpen) = true := by decide +kernel
  rw [hx] at hclosed
  simpa using hclosed

end Portfolio.Chat
