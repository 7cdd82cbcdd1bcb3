import Portfolio.Lib.Machine
import Portfolio.Netcode.RoomManager

/-!
# The room registry

Runs of `register_room`, `update_room_players`, `get_available_room` and the passing of time. A room
is a hash of four fields with the deadline of its last registration, as long as no update comes for
a key that is gone: that one makes a hash of one field that never expires.
-/

namespace Portfolio.Netcode.RoomManager

structure Registry where
  redis : Redis := {}
  now : Nat := 0

inductive RegistryEvent where
  | registerRoom (roomId addr : String) (maxPlayers ttlSeconds : Int32)
  | updateRoomPlayers (roomId : String) (playerCount : Int32)
  | getAvailableRoom (rank : String → Nat) (uninit : String → RoomInfo)
  | pass (ns : Nat)

/-- Registrations and the rooms that `get_available_room` returned, with their times. -/
inductive RegistryLog where
  | registered (time : Nat) (roomId addr : String) (ttlSeconds : Int32)
  | returned (time : Nat) (room : RoomInfo)
  deriving DecidableEq

def Registry.exec (s : Registry) : RegistryEvent → Registry × List RegistryLog
  | .registerRoom roomId addr maxPlayers ttlSeconds =>
    ({ s with redis := (RoomManager.registerRoom s.redis s.now roomId addr maxPlayers ttlSeconds).1 },
      [.registered s.now roomId addr ttlSeconds])
  | .updateRoomPlayers roomId playerCount =>
    ({ s with redis := (RoomManager.updateRoomPlayers s.redis s.now roomId playerCount).1 }, [])
  | .getAvailableRoom rank uninit =>
    (s, ((RoomManager.getAvailableRoom s.redis s.now rank uninit).map (.returned s.now)).toList)
  | .pass ns => ({ s with now := s.now + ns }, [])

def registryMachine : Machine Registry RegistryEvent RegistryLog where
  init := {}
  step := Registry.exec

/-- Every room key has a deadline and all the fields of a room. -/
def RoomsComplete (s : Registry) : Prop :=
  ∀ roomId e, s.redis.find s.now ("room:" ++ roomId) = some e → e.deadline.isSome ∧
    ∃ fields, e.value = .hash fields ∧
      ∀ field ∈ ["addr", "max_players", "player_count", "is_active"], field ∈ fields.map Prod.fst

/-- Every room that was returned had been registered with its address less than its ttl before. -/
def ReturnsLive (log : List RegistryLog) : Prop :=
  ∀ pre (time : Nat) room post, log = pre ++ .returned time room :: post →
    ∃ (start : Nat) (ttlSeconds : Int32), .registered start room.roomId room.addr ttlSeconds ∈ pre ∧
      start ≤ time ∧ (time : Int) < start + ttlSeconds.toInt * 10 ^ 9

/-- The texts of a registration have no NUL. -/
def RegistryEvent.NoNul : RegistryEvent → Prop
  | .registerRoom roomId addr _ _ => '\x00' ∉ roomId.toList ∧ '\x00' ∉ addr.toList
  | _ => True

/-- Updates find their key in Redis. -/
def UpdatesLive (s : Registry) : RegistryEvent → Prop
  | .updateRoomPlayers roomId _ => (s.redis.find s.now (roomKey roomId)).isSome = true
  | _ => True

/-! ### The hash of a room -/

def roomFields (addr : String) (maxPlayers playerCount : Int32) : List (String × String) :=
  [("addr", addr), ("max_players", toString maxPlayers.toInt), ("player_count", toString playerCount.toInt),
    ("is_active", "1")]

variable {r : Redis} {now : Nat} {roomId addr : String} {maxPlayers playerCount ttlSeconds : Int32}

theorem roomKey_eq (h : '\x00' ∉ roomId.toList) : roomKey roomId = "room:" ++ roomId := by
  rw [roomKey, cStr_append (by decide), cStr_of_noNul h]

/-- A registration sets all the fields, whether the key is new or holds a room. -/
theorem setFields_roomFields (addr : String) (maxPlayers playerCount : Int32) {old : List (String × String)}
    (hold : old = [] ∨ ∃ a m p, old = roomFields a m p) :
    (roomFields addr maxPlayers playerCount).foldl Redis.setField old = roomFields addr maxPlayers playerCount := by
  rcases hold with rfl | ⟨a, m, p, rfl⟩
  · simp [roomFields, Redis.setField]
  · simp [roomFields, Redis.setField]

theorem setField_playerCount (addr : String) (maxPlayers playerCount count : Int32) :
    [("player_count", toString count.toInt)].foldl Redis.setField (roomFields addr maxPlayers playerCount) =
      roomFields addr maxPlayers count := by
  simp [roomFields, Redis.setField]

theorem stoi_toString (n : Int32) : stoi (toString n.toInt) = some n := by
  have h : sto 32 ((toString n.toInt).toList ++ []) = some n.toInt :=
    sto_toString n.le_toInt n.toInt_lt (by simp)
  rw [List.append_nil] at h
  rw [stoi, h, Option.map_some, Int32.ofInt_toInt]

/-- All the members of a registered room are read back. -/
theorem readFields_roomFields (info : RoomInfo) (addr : String) (haddr : '\x00' ∉ addr.toList)
    (maxPlayers playerCount : Int32) :
    readFields info ((roomFields addr maxPlayers playerCount).flatMap fun field => [field.1, field.2]) =
      some { roomId := info.roomId, addr := addr, playerCount := playerCount, maxPlayers := maxPlayers
             isActive := true } := by
  have hactive : stoi (cStr "1") = some 1 := by decide
  have hfields : cStr "addr" = "addr" ∧ cStr "max_players" = "max_players" ∧
      cStr "player_count" = "player_count" ∧ cStr "is_active" = "is_active" := by decide
  obtain ⟨h1, h2, h3, h4⟩ := hfields
  show readFields info ["addr", addr, "max_players", toString maxPlayers.toInt, "player_count",
    toString playerCount.toInt, "is_active", "1"] = _
  simp only [readFields, readField, h1, h2, h3, h4, cStr_of_noNul haddr, cStr_toString_int, stoi_toString, hactive]
  rfl

/-! ### Every key is a registered room -/

/-- The room under `key`, as the registration at `start` and later updates left it. -/
structure Registered (log : List RegistryLog) (key : String) (e : Redis.Entry) (roomId addr : String)
    (start : Nat) (ttlSeconds : Int32) : Prop where
  key_eq : key = "room:" ++ roomId
  roomId_noNul : '\x00' ∉ roomId.toList
  addr_noNul : '\x00' ∉ addr.toList
  mem : .registered start roomId addr ttlSeconds ∈ log
  fields : ∃ maxPlayers playerCount, e.value = .hash (roomFields addr maxPlayers playerCount)
  deadline : e.deadline = some (Redis.after start ttlSeconds.toInt)

/-- Every key of Redis is a registered room. -/
def AllRegistered (log : List RegistryLog) (s : Registry) : Prop :=
  ∀ key e, s.redis.find s.now key = some e → ∃ roomId addr start ttlSeconds, start ≤ s.now ∧
    Registered log key e roomId addr start ttlSeconds

theorem Registered.mono {log new : List RegistryLog} {key : String} {e : Redis.Entry} {start : Nat}
    (h : Registered log key e roomId addr start ttlSeconds) :
    Registered (log ++ new) key e roomId addr start ttlSeconds :=
  { h with mem := List.mem_append_left _ h.mem }

/-- What `register_room` leaves of a key that was free or held a room. -/
theorem eq_of_find_registerRoom {old : List (String × String)} {deadline : Option Nat}
    (hash : r.IsHash now (roomKey roomId) old deadline) (hold : old = [] ∨ ∃ a m p, old = roomFields a m p)
    {e : Redis.Entry}
    (he : (registerRoom r now roomId addr maxPlayers ttlSeconds).1.find now (roomKey roomId) = some e) :
    e = { value := .hash (roomFields (cStr addr) maxPlayers 0)
          deadline := some (Redis.after now ttlSeconds.toInt) } := by
  have hset := setFields_roomFields (cStr addr) maxPlayers 0 hold
  have hmset : r.hmset now (roomKey roomId) (roomFields (cStr addr) maxPlayers 0) =
      (r.put (roomKey roomId) { value := .hash (roomFields (cStr addr) maxPlayers 0), deadline }, .status) := by
    rw [hash.hmset, hset]
  have hput : (r.put (roomKey roomId) { value := .hash (roomFields (cStr addr) maxPlayers 0), deadline }).find now
      (roomKey roomId) = some { value := .hash (roomFields (cStr addr) maxPlayers 0), deadline } :=
    Redis.find_put_self (hash.isLive _)
  have hfst : (registerRoom r now roomId addr maxPlayers ttlSeconds).1 =
      ((r.hmset now (roomKey roomId) (roomFields (cStr addr) maxPlayers 0)).1.expire now (roomKey roomId)
        ttlSeconds.toInt).1 := by
    have hlist : [("addr", cStr addr), ("max_players", toString maxPlayers.toInt), ("player_count", "0"),
        ("is_active", "1")] = roomFields (cStr addr) maxPlayers 0 := rfl
    simp only [registerRoom, hlist, hmset]
    rfl
  rw [hfst, hmset, Redis.expire, hput] at he
  dsimp only at he
  split at he
  · rw [Redis.find_erase_self] at he
    cases he
  · exact Redis.eq_of_find_put he

theorem find_registerRoom_of_ne {key : String} (h : key ≠ roomKey roomId) :
    (registerRoom r now roomId addr maxPlayers ttlSeconds).1.find now key = r.find now key := by
  simp only [registerRoom]
  split
  · rw [Redis.hmset_fst, Redis.find_hset_of_ne h]
  · rw [Redis.find_expire_of_ne h, Redis.hmset_fst, Redis.find_hset_of_ne h]

/-- Under a key that is free or a registered room there is a hash of a room, if any. -/
theorem AllRegistered.isHash {log : List RegistryLog} {s : Registry} (h : AllRegistered log s) (key : String) :
    ∃ old deadline, s.redis.IsHash s.now key old deadline ∧ (old = [] ∨ ∃ a m p, old = roomFields a m p) := by
  cases hfind : s.redis.find s.now key with
  | none => exact ⟨[], none, .inl ⟨hfind, rfl, rfl⟩, .inl rfl⟩
  | some e =>
    obtain ⟨roomId, addr, start, ttlSeconds, -, hreg⟩ := h key e hfind
    obtain ⟨maxPlayers, playerCount, hvalue⟩ := hreg.fields
    refine ⟨roomFields addr maxPlayers playerCount, e.deadline, .inr ?_, .inr ⟨_, _, _, rfl⟩⟩
    rw [hfind, ← hvalue]

theorem AllRegistered.registerRoom {log : List RegistryLog} {s : Registry} (h : AllRegistered log s)
    (hid : '\x00' ∉ roomId.toList) (haddr : '\x00' ∉ addr.toList) :
    AllRegistered (log ++ [.registered s.now roomId addr ttlSeconds])
      { s with redis := (RoomManager.registerRoom s.redis s.now roomId addr maxPlayers ttlSeconds).1 } := by
  intro key e he
  by_cases hkey : key = roomKey roomId
  · subst hkey
    obtain ⟨old, deadline, hash, hold⟩ := h.isHash (roomKey roomId)
    obtain rfl := eq_of_find_registerRoom hash hold he
    refine ⟨roomId, addr, s.now, ttlSeconds, Nat.le_refl _, roomKey_eq hid, hid, haddr, by simp,
      ⟨maxPlayers, 0, ?_⟩, rfl⟩
    rw [cStr_of_noNul haddr]
  · rw [find_registerRoom_of_ne hkey] at he
    obtain ⟨roomId, addr, start, ttlSeconds, hle, hreg⟩ := h key e he
    exact ⟨roomId, addr, start, ttlSeconds, hle, hreg.mono⟩

theorem AllRegistered.updateRoomPlayers {log : List RegistryLog} {s : Registry} (h : AllRegistered log s)
    (hlive : (s.redis.find s.now (roomKey roomId)).isSome = true) (count : Int32) :
    AllRegistered log { s with redis := (RoomManager.updateRoomPlayers s.redis s.now roomId count).1 } := by
  obtain ⟨old, hold⟩ := Option.isSome_iff_exists.1 hlive
  obtain ⟨id, addr, start, ttlSeconds, hle, hreg⟩ := h _ _ hold
  obtain ⟨maxPlayers, playerCount, hvalue⟩ := hreg.fields
  have hash : s.redis.IsHash s.now (roomKey roomId) (roomFields addr maxPlayers playerCount) old.deadline := by
    refine .inr ?_
    rw [hold, ← hvalue]
  intro key e he
  by_cases hkey : key = roomKey roomId
  · subst hkey
    have hput : (RoomManager.updateRoomPlayers s.redis s.now roomId count).1 = s.redis.put (roomKey roomId)
        { value := .hash (roomFields addr maxPlayers count), deadline := old.deadline } := by
      show (s.redis.hset _ _ _).1 = _
      rw [hash.hset_fst, setField_playerCount]
    dsimp only at he
    rw [hput] at he
    obtain rfl := Redis.eq_of_find_put he
    exact ⟨id, addr, start, ttlSeconds, hle, { hreg with fields := ⟨maxPlayers, count, rfl⟩ }⟩
  · exact h key e ((Redis.find_hset_of_ne hkey).symm.trans he)

theorem AllRegistered.exec {log : List RegistryLog} {s : Registry} (h : AllRegistered log s)
    {event : RegistryEvent} (hnul : event.NoNul) (hlive : UpdatesLive s event) :
    AllRegistered (log ++ (s.exec event).2) (s.exec event).1 := by
  cases event with
  | registerRoom roomId addr maxPlayers ttlSeconds => exact h.registerRoom hnul.1 hnul.2
  | updateRoomPlayers roomId playerCount =>
    rw [show (s.exec (.updateRoomPlayers roomId playerCount)).2 = [] from rfl, List.append_nil]
    exact h.updateRoomPlayers hlive playerCount
  | getAvailableRoom rank uninit =>
    intro key e he
    obtain ⟨roomId, addr, start, ttlSeconds, hle, hreg⟩ := h key e he
    exact ⟨roomId, addr, start, ttlSeconds, hle, hreg.mono⟩
  | pass ns =>
    intro key e he
    obtain ⟨roomId, addr, start, ttlSeconds, hle, hreg⟩ := h key e (Redis.find_of_le (Nat.le_add_right ..) he)
    exact ⟨roomId, addr, start, ttlSeconds, Nat.le_add_right_of_le hle, hreg.mono⟩

theorem roomsComplete_of_allRegistered {log : List RegistryLog} {s : Registry} (h : AllRegistered log s) :
    RoomsComplete s := by
  intro roomId e he
  obtain ⟨_, addr, start, ttlSeconds, -, hreg⟩ := h _ e he
  obtain ⟨maxPlayers, playerCount, hvalue⟩ := hreg.fields
  exact ⟨by rw [hreg.deadline]; rfl, _, hvalue, by simp [roomFields]⟩

/-! ### What `get_available_room` returns -/

theorem getRoom_of_registered {log : List RegistryLog} {key : String} {e : Redis.Entry} {start : Nat}
    (hfind : r.find now key = some e) (hreg : Registered log key e roomId addr start ttlSeconds)
    (uninit : RoomInfo) {room : RoomInfo} (h : getRoom r now uninit roomId = some room) :
    room.roomId = roomId ∧ room.addr = addr := by
  obtain ⟨maxPlayers, playerCount, hvalue⟩ := hreg.fields
  have hall : r.hgetall now (roomKey roomId) =
      .array ((roomFields addr maxPlayers playerCount).flatMap fun field => [field.1, field.2]) := by
    rw [roomKey_eq hreg.roomId_noNul, ← hreg.key_eq, Redis.hgetall, hfind]
    cases e
    cases hvalue
    rfl
  rw [getRoom, hall] at h
  dsimp only at h
  rw [if_neg (by simp [roomFields]), readFields_roomFields _ addr hreg.addr_noNul] at h
  cases h
  exact ⟨rfl, rfl⟩

theorem registered_of_getAvailableRoom {log : List RegistryLog} {s : Registry} (h : AllRegistered log s)
    {rank : String → Nat} {uninit : String → RoomInfo} {room : RoomInfo}
    (hroom : getAvailableRoom s.redis s.now rank uninit = some room) :
    ∃ (start : Nat) (ttlSeconds : Int32), .registered start room.roomId room.addr ttlSeconds ∈ log ∧
      start ≤ s.now ∧ (s.now : Int) < start + ttlSeconds.toInt * 10 ^ 9 := by
  obtain ⟨elements, hkeys⟩ : ∃ elements, s.redis.keys s.now "room:" rank = .array elements := ⟨_, rfl⟩
  rw [getAvailableRoom, hkeys] at hroom
  obtain ⟨key, hmem, hkey⟩ := List.exists_of_findSome?_eq_some hroom
  obtain ⟨e, hfind⟩ := Option.isSome_iff_exists.1 ((Redis.mem_keys hkeys).1 hmem).2
  obtain ⟨roomId, addr, start, ttlSeconds, hle, hreg⟩ := h key e hfind
  have hid : String.ofList ((cStr key).toList.drop 5) = roomId := by
    rw [hreg.key_eq, cStr_append (by decide), cStr_of_noNul hreg.roomId_noNul, String.toList_append]
    exact String.ofList_toList
  split at hkey
  · cases hkey
  · rw [hid] at hkey
    obtain ⟨rfl, rfl⟩ := getRoom_of_registered hfind hreg _ (Option.filter_eq_some_iff.1 hkey).1
    refine ⟨start, ttlSeconds, hreg.mem, hle, ?_⟩
    have hlive := (Redis.find_eq_some.1 hfind).2
    rw [show e = { value := e.value, deadline := some (Redis.after start ttlSeconds.toInt) } by rw [← hreg.deadline],
      Redis.isLive_iff, Redis.after] at hlive
    omega

/-! ### Runs -/

theorem ReturnsLive.append {log new : List RegistryLog} (h : ReturnsLive log)
    (hnew : ∀ pre (time : Nat) room post, new = pre ++ .returned time room :: post →
      ∃ (start : Nat) (ttlSeconds : Int32), .registered start room.roomId room.addr ttlSeconds ∈ log ++ pre ∧
        start ≤ time ∧ (time : Int) < start + ttlSeconds.toInt * 10 ^ 9) :
    ReturnsLive (log ++ new) := by
  intro pre time room post heq
  rcases List.append_eq_append_iff.1 heq with ⟨mid, rfl, hmid⟩ | ⟨mid, rfl, hmid⟩
  · exact hnew mid time room post hmid
  · cases mid with
    | nil =>
      simp only [List.nil_append] at hmid
      simpa using hnew [] time room post hmid.symm
    | cons l mid =>
      cases hmid
      exact h pre time room mid rfl

theorem Registry.returned_mem {s : Registry} {event : RegistryEvent} {time : Nat} {room : RoomInfo}
    (h : .returned time room ∈ (s.exec event).2) :
    ∃ rank uninit, time = s.now ∧ getAvailableRoom s.redis s.now rank uninit = some room := by
  cases event with
  | registerRoom roomId addr maxPlayers ttlSeconds => simp [Registry.exec] at h
  | updateRoomPlayers roomId playerCount => simp [Registry.exec] at h
  | pass ns => simp [Registry.exec] at h
  | getAvailableRoom rank uninit =>
    obtain ⟨_, hroom, heq⟩ := Option.map_eq_some_iff.1 (Option.mem_toList.1 h)
    cases heq
    exact ⟨rank, uninit, rfl, hroom⟩

theorem registry_run {events : List RegistryEvent} (hnul : ∀ event ∈ events, event.NoNul)
    (hlive : registryMachine.Along UpdatesLive events) :
    ReturnsLive (registryMachine.run events).2 ∧
      AllRegistered (registryMachine.run events).2 (registryMachine.run events).1 := by
  induction events using List.reverseRecOn with
  | nil =>
    refine ⟨fun pre time room post h => ?_, fun key e he => ?_⟩
    · simp at h
    · have hnone : Redis.find {} 0 key = none := by simp [Redis.find]
      cases hnone.symm.trans he
  | append_singleton events event ih =>
    obtain ⟨hlive, hevent⟩ := registryMachine.along_concat.1 hlive
    obtain ⟨hret, hall⟩ := ih (fun e he => hnul e (by simp [he])) hlive
    rw [Machine.run_concat]
    refine ⟨hret.append fun pre time room post heq => ?_, hall.exec (hnul event (by simp)) hevent⟩
    have hmem : .returned time room ∈ ((registryMachine.run events).1.exec event).2 :=
      heq.symm ▸ List.mem_append_right pre List.mem_cons_self
    obtain ⟨rank, uninit, rfl, hroom⟩ := Registry.returned_mem hmem
    obtain ⟨start, ttlSeconds, hmem, hle, hlt⟩ := registered_of_getAvailableRoom hall hroom
    exact ⟨start, ttlSeconds, List.mem_append_left _ hmem, hle, hlt⟩

/-- The registry lists only live rooms, all through a run, if and only if every update finds its key. -/
theorem registry_live_iff (events : List RegistryEvent) (hnul : ∀ event ∈ events, event.NoNul) :
    (∀ pre, pre <+: events → RoomsComplete (registryMachine.run pre).1 ∧ ReturnsLive (registryMachine.run pre).2) ↔
      registryMachine.Along UpdatesLive events := by
  refine registryMachine.always_iff_along (P := fun run => RoomsComplete run.1 ∧ ReturnsLive run.2)
    (fun pre hpre hlive => ?_) fun pre event hpre hlive hok => ?_
  · obtain ⟨hret, hall⟩ := registry_run (fun e he => hnul e (hpre.subset he)) hlive
    exact ⟨roomsComplete_of_allRegistered hall, hret⟩
  · rw [Machine.run_concat] at hok
    cases event with
    | updateRoomPlayers roomId playerCount =>
      by_contra hgone
      -- the update makes a key without a deadline
      have hnone := Option.not_isSome_iff_eq_none.1 hgone
      have hash : (registryMachine.run pre).1.redis.IsHash (registryMachine.run pre).1.now (roomKey roomId) [] none :=
        .inl ⟨hnone, rfl, rfl⟩
      have hput : ((registryMachine.run pre).1.redis.hset (registryMachine.run pre).1.now (roomKey roomId)
          [("player_count", toString playerCount.toInt)]).1 = _ := hash.hset_fst
      have hkey : roomKey roomId = "room:" ++ cStr roomId := cStr_append (by decide) roomId
      have hcomplete := hok.1 (cStr roomId)
        { value := .hash [("player_count", toString playerCount.toInt)] } (by
          show ((registryMachine.run pre).1.redis.hset _ _ _).1.find _ _ = _
          rw [hput, ← hkey]
          exact Redis.find_put_self rfl)
      cases hcomplete.1
    | registerRoom _ _ _ _ => trivial
    | getAvailableRoom _ _ => trivial
    | pass _ => trivial

theorem registry_live_register :
    (∀ pre, pre <+: [RegistryEvent.registerRoom "a" "host:1" 2 60, .updateRoomPlayers "a" 1] →
      RoomsComplete (registryMachine.run pre).1 ∧ ReturnsLive (registryMachine.run pre).2) ↔
      registryMachine.Along UpdatesLive [.registerRoom "a" "host:1" 2 60, .updateRoomPlayers "a" 1] :=
  registry_live_iff _ (by simp [RegistryEvent.NoNul])

/-- A room is registered, its key expires and its player count is updated. -/
def lateUpdateRun : List RegistryEvent :=
  [.registerRoom "a" "host:1" 2 60, .pass (60 * 10 ^ 9), .updateRoomPlayers "a" 1]

/-- A key without a deadline is there again. -/
theorem late_update_revives_key : ¬ RoomsComplete (registryMachine.run lateUpdateRun).1 := by
  intro h
  have hfind : (registryMachine.run lateUpdateRun).1.redis.find (registryMachine.run lateUpdateRun).1.now
      ("room:" ++ "a") = some { value := .hash [("player_count", "1")] } := by decide +kernel
  cases (h "a" _ hfind).1

end Portfolio.Netcode.RoomManager
