import Portfolio.Netcode.RoomRegistry
import Portfolio.Netcode.Sessions

/-!
# Checkpoints

The checkpoints of a room in Redis, with the commands of any room managers in any order. The two commands of
`register_room` can have others between them: an `EXPIRE` would meet a checkpoint that was stored meanwhile,
under a room id that ends in ":checkpoint". Apart from that nothing changes a checkpoint before its deadline,
or prolongs it: `get_checkpoint` returns the last one that was stored.
-/

namespace Portfolio.Netcode
namespace RoomManager

/-- Redis with the calls of every room manager that uses it, and the clock. `expiring` are the rooms whose
registration has yet to send its `EXPIRE`. -/
structure RoomStore where
  redis : Redis := {}
  now : SystemTime
  expiring : List (String × Int32) := []

/-- `call` is the first command of a call, `expire` the second of a registration. -/
inductive StoreEvent where
  | call (call : Call)
  | expire (i : Nat)
  | clock (time : SystemTime)

/-- The calls are shown with their times. The clock does not go back. -/
def RoomStore.exec (s : RoomStore) : StoreEvent → RoomStore × List (SystemTime × Call)
  | .call (.registerRoom roomId addr maxPlayers ttlSeconds) =>
    let (redis, ok) := beginRegister s.redis s.now.ns roomId addr maxPlayers
    ({ s with
        redis := redis
        expiring := if ok then s.expiring ++ [(roomId, ttlSeconds)] else s.expiring },
      [(s.now, .registerRoom roomId addr maxPlayers ttlSeconds)])
  | .call call => ({ s with redis := call.exec s.redis s.now }, [(s.now, call)])
  | .expire i => match s.expiring[i]? with
    | none => (s, [])
    | some (roomId, ttlSeconds) =>
      ({ s with
          redis := (s.redis.expire s.now.ns (roomKey roomId) ttlSeconds.toInt).1
          expiring := s.expiring.eraseIdx i }, [])
  | .clock time => (if s.now.ns ≤ time.ns then { s with now := time } else s, [])

def storeMachine (start : SystemTime) : Machine RoomStore StoreEvent (SystemTime × Call) where
  init := { now := start }
  step := RoomStore.exec

/-- The deadline and the snapshot of a call that stores a checkpoint under `key`. -/
def stored (key : String) : SystemTime × Call → Option (Nat × List UInt8)
  | (time, .storeCheckpoint roomId snapshot ttlSeconds) =>
    if checkpointKey roomId = key ∧ 0 < ttlSeconds.toInt then
      some (Redis.after time.ns ttlSeconds.toInt, snapshot)
    else none
  | _ => none

/-- No registration of a room under `key` has yet to send its `EXPIRE`. -/
def RoomStore.Settled (s : RoomStore) (key : String) : Prop := ∀ room ∈ s.expiring, roomKey room.1 ≠ key

instance (s : RoomStore) (key : String) : Decidable (s.Settled key) :=
  inferInstanceAs (Decidable (∀ room ∈ s.expiring, roomKey room.1 ≠ key))

/-- No checkpoint is stored under `key` while a room is registered under it. -/
def RoomStore.Apart (key : String) (s : RoomStore) : StoreEvent → Prop
  | .call (.storeCheckpoint roomId _ _) => checkpointKey roomId = key → s.Settled key
  | _ => True

instance (key : String) (s : RoomStore) (event : StoreEvent) : Decidable (s.Apart key event) :=
  match event with
  | .call (.storeCheckpoint roomId _ _) => inferInstanceAs (Decidable (checkpointKey roomId = key → s.Settled key))
  | .call (.registerRoom _ _ _ _) | .call (.updateRoomPlayers _ _) | .call (.createSession _ _ _)
  | .call (.deleteSession _) | .expire _ | .clock _ => isTrue trivial

def latestStored (key : String) (calls : List (SystemTime × Call)) : Option (Nat × List UInt8) :=
  (calls.filterMap (stored key)).getLast?

/-! ### What is under the key -/

/-- Under `key` is the checkpoint `latest`; once that is gone, nothing or a hash. -/
inductive Kept (r : Redis) (now : Nat) (key : String) : Option (Nat × List UInt8) → Prop where
  | live {deadline : Nat} {snapshot : List UInt8}
    (hfind : r.find now key = some { value := .string (bytesToText snapshot), deadline := some deadline }) :
    Kept r now key (some (deadline, snapshot))
  | gone {latest : Option (Nat × List UInt8)} (hover : ∀ checkpoint ∈ latest, checkpoint.1 ≤ now)
    (hhash : ∀ e, r.find now key = some e → ∃ fields, e.value = .hash fields) : Kept r now key latest

variable {r : Redis} {now : Nat} {key : String} {latest : Option (Nat × List UInt8)}

theorem text_bytesToText (snapshot : List UInt8) :
    (bytesToText snapshot).toList.map (fun c => UInt8.ofNat c.toNat) = snapshot := by
  rw [bytesToText, String.toList_ofList, List.map_map]
  refine (List.map_congr_left fun b _ => ?_).trans (List.map_id snapshot)
  have hvalid : b.toNat.isValidChar := .inl (by have := b.toNat_lt; omega)
  show UInt8.ofNat (Char.ofNat b.toNat).toNat = b
  rw [Char.ofNat, dif_pos hvalid]
  exact UInt8.ofNat_toNat

theorem Kept.getCheckpoint {roomId : String} (h : Kept r now (checkpointKey roomId) latest) :
    RoomManager.getCheckpoint r now roomId = (latest.filter (now < ·.1)).map Prod.snd := by
  unfold RoomManager.getCheckpoint Redis.get
  cases h with
  | @live deadline snapshot hfind =>
    have hlive : now < deadline := Redis.isLive_iff.1 (Redis.find_eq_some.1 hfind).2
    rw [hfind]
    dsimp only
    rw [text_bytesToText, Option.filter_some_pos (by simpa using hlive)]
    rfl
  | gone hover hhash =>
    have hnone : latest.filter (now < ·.1) = none :=
      Option.filter_eq_none_iff.2 fun checkpoint hmem => by simpa using hover checkpoint hmem
    rw [hnone]
    cases hfind : r.find now (checkpointKey roomId) with
    | none => rfl
    | some e =>
      obtain ⟨value, deadline⟩ := e
      obtain ⟨fields, rfl⟩ := hhash _ hfind
      rfl

theorem find_of_getCheckpoint {roomId : String} (h : (getCheckpoint r now roomId).isSome = true) :
    ∃ text deadline, r.find now (checkpointKey roomId) = some { value := .string text, deadline } := by
  unfold getCheckpoint Redis.get at h
  cases hfind : r.find now (checkpointKey roomId) with
  | none =>
    rw [hfind] at h
    cases h
  | some e =>
    obtain ⟨text | fields, deadline⟩ := e
    · exact ⟨text, deadline, rfl⟩
    · rw [hfind] at h
      cases h

/-! ### Calls -/

theorem hash_hset {fields : List (String × String)}
    (hhash : ∀ e, r.find now key = some e → ∃ fields, e.value = .hash fields) :
    ∀ e, (r.hset now key fields).1.find now key = some e → ∃ fields, e.value = .hash fields := by
  intro e he
  unfold Redis.hset at he
  split at he
  · obtain rfl := Redis.eq_of_find_put he
    exact ⟨_, rfl⟩
  · obtain rfl := Redis.eq_of_find_put he
    exact ⟨_, rfl⟩
  · exact hhash e he

theorem hash_expire {seconds : Int} (hhash : ∀ e, r.find now key = some e → ∃ fields, e.value = .hash fields) :
    ∀ e, (r.expire now key seconds).1.find now key = some e → ∃ fields, e.value = .hash fields := by
  intro e he
  unfold Redis.expire at he
  split at he
  · exact hhash e he
  · next old hold =>
    split at he
    · rw [Redis.find_erase_self] at he
      cases he
    · obtain rfl := Redis.eq_of_find_put he
      exact hhash old hold

/-- A hash command on a string fails. -/
theorem hset_string {text : String} {deadline : Option Nat} {fields : List (String × String)}
    (hfind : r.find now key = some { value := .string text, deadline }) :
    r.hset now key fields = (r, .error) := by
  unfold Redis.hset
  rw [hfind]

/-- Undisturbed, the two commands do what `register_room` does. -/
theorem registerRoom_eq (r : Redis) (now : Nat) (roomId addr : String) (maxPlayers ttlSeconds : Int32) :
    registerRoom r now roomId addr maxPlayers ttlSeconds =
      if (beginRegister r now roomId addr maxPlayers).2 then
        let (r, reply) := (beginRegister r now roomId addr maxPlayers).1.expire now (roomKey roomId) ttlSeconds.toInt
        (r, reply ≠ .error)
      else ((beginRegister r now roomId addr maxPlayers).1, false) := by
  unfold registerRoom beginRegister
  dsimp only
  split
  · next herror => rw [if_neg fun hok => absurd herror (of_decide_eq_true hok)]
  · next hok => rw [if_pos (decide_eq_true hok)]

theorem beginRegister_string {roomId addr text : String} {maxPlayers : Int32} {deadline : Option Nat}
    (hfind : r.find now (roomKey roomId) = some { value := .string text, deadline }) :
    beginRegister r now roomId addr maxPlayers = (r, false) := by
  simp [beginRegister, Redis.hmset, hset_string hfind]

theorem registerRoom_string {roomId addr text : String} {maxPlayers ttlSeconds : Int32} {deadline : Option Nat}
    (hfind : r.find now (roomKey roomId) = some { value := .string text, deadline }) :
    registerRoom r now roomId addr maxPlayers ttlSeconds = (r, false) := by
  rw [registerRoom_eq, beginRegister_string hfind]
  rfl

theorem updateRoomPlayers_string {roomId text : String} {playerCount : Int32} {deadline : Option Nat}
    (hfind : r.find now (roomKey roomId) = some { value := .string text, deadline }) :
    updateRoomPlayers r now roomId playerCount = (r, false) := by
  simp [updateRoomPlayers, hset_string hfind]

theorem Kept.congr {r' : Redis} (h : Kept r now key latest) (hfind : r'.find now key = r.find now key) :
    Kept r' now key latest := by
  cases h with
  | live h => exact .live (hfind.trans h)
  | gone hover hhash => exact .gone hover fun e he => hhash e (hfind.symm.trans he)

theorem Kept.clock {later : Nat} (h : Kept r now key latest) (hle : now ≤ later) : Kept r later key latest := by
  cases h with
  | @live deadline snapshot hfind =>
    rcases Nat.lt_or_ge later deadline with hlt | hge
    · exact .live (Redis.find_eq_some.2 ⟨(Redis.find_eq_some.1 hfind).1, Redis.isLive_iff.2 hlt⟩)
    · refine .gone (fun checkpoint hmem => ?_) fun e he => ?_
      · cases hmem
        exact hge
      · -- it would be the checkpoint, which is over
        cases (Redis.find_of_le hle he).symm.trans hfind
        exact absurd (Redis.isLive_iff.1 (Redis.find_eq_some.1 he).2) (Nat.not_lt.2 hge)
  | gone hover hhash =>
    exact .gone (fun checkpoint hmem => (hover checkpoint hmem).trans hle) fun e he => hhash e (Redis.find_of_le hle he)

theorem Kept.beginRegister (h : Kept r now key latest) (roomId addr : String) (maxPlayers : Int32) :
    Kept (RoomManager.beginRegister r now roomId addr maxPlayers).1 now key latest := by
  have hset : (RoomManager.beginRegister r now roomId addr maxPlayers).1 = (r.hset now (roomKey roomId)
      [("addr", cStr addr), ("max_players", toString maxPlayers.toInt), ("player_count", "0"),
        ("is_active", "1")]).1 := Redis.hmset_fst _
  by_cases hkey : key = roomKey roomId
  · subst hkey
    cases h with
    | live hfind =>
      rw [beginRegister_string hfind]
      exact .live hfind
    | gone hover hhash =>
      rw [hset]
      exact .gone hover (hash_hset hhash)
  · rw [hset]
    exact h.congr (Redis.find_hset_of_ne hkey)

theorem Kept.updateRoomPlayers (h : Kept r now key latest) (roomId : String) (playerCount : Int32) :
    Kept (RoomManager.updateRoomPlayers r now roomId playerCount).1 now key latest := by
  by_cases hkey : key = roomKey roomId
  · subst hkey
    cases h with
    | live hfind =>
      rw [updateRoomPlayers_string hfind]
      exact .live hfind
    | gone hover hhash => exact .gone hover (hash_hset hhash)
  · exact h.congr (Redis.find_hset_of_ne hkey)

theorem Kept.storeCheckpoint {time : SystemTime} (h : Kept r time.ns key latest) (roomId : String)
    (snapshot : List UInt8) (ttlSeconds : Int32) :
    Kept (RoomManager.storeCheckpoint r time.ns roomId snapshot ttlSeconds).1 time.ns key
      ((stored key (time, .storeCheckpoint roomId snapshot ttlSeconds)).or latest) := by
  by_cases hkey : checkpointKey roomId = key
  · subst hkey
    by_cases httl : 0 < ttlSeconds.toInt
    · have hstored : stored (checkpointKey roomId) (time, .storeCheckpoint roomId snapshot ttlSeconds) =
          some (Redis.after time.ns ttlSeconds.toInt, snapshot) := if_pos ⟨rfl, httl⟩
      have hlive : time.ns < Redis.after time.ns ttlSeconds.toInt := by
        unfold Redis.after
        omega
      rw [hstored, Option.some_or]
      refine .live ?_
      show (r.setex _ _ _ _).1.find _ _ = _
      rw [Redis.setex, if_neg (by omega)]
      exact Redis.find_put_self (Redis.isLive_iff.2 hlive)
    · have hstored : stored (checkpointKey roomId) (time, .storeCheckpoint roomId snapshot ttlSeconds) = none :=
        if_neg fun h => httl h.2
      rw [hstored, Option.none_or]
      refine h.congr ?_
      show (r.setex _ _ _ _).1.find _ _ = _
      rw [Redis.setex, if_pos (by omega)]
  · have hstored : stored key (time, .storeCheckpoint roomId snapshot ttlSeconds) = none :=
      if_neg fun h => hkey h.1
    rw [hstored, Option.none_or]
    exact h.congr (Redis.find_setex_of_ne (Ne.symm hkey))

theorem checkpointKey_ne_sessionKey (roomId token : String) : checkpointKey roomId ≠ sessionKey token := by
  rw [checkpointKey, String.append_assoc]
  exact (sessionKey_ne_roomKey token _).symm

theorem latestStored_concat (calls : List (SystemTime × Call)) (call : SystemTime × Call) :
    latestStored key (calls ++ [call]) = (stored key call).or (latestStored key calls) := by
  rw [latestStored, List.filterMap_append, List.getLast?_append]
  cases h : stored key call with
  | none => rw [List.filterMap_cons_none h]; rfl
  | some checkpoint => rw [List.filterMap_cons_some h]; rfl

/-! ### Commands in any order -/

/-- Under `key` is the checkpoint `latest`, or once that is gone nothing or a hash; and no checkpoint as long as
a registration under `key` has yet to send its `EXPIRE`. -/
structure RoomStore.Holds (s : RoomStore) (key : String) (latest : Option (Nat × List UInt8)) : Prop where
  kept : Kept s.redis s.now.ns key latest
  hash : ¬ s.Settled key → ∀ e, s.redis.find s.now.ns key = some e → ∃ fields, e.value = .hash fields

namespace RoomStore.Holds
variable {s : RoomStore}

theorem registerRoom (h : s.Holds key latest) (roomId addr : String) (maxPlayers ttlSeconds : Int32) :
    (s.exec (.call (.registerRoom roomId addr maxPlayers ttlSeconds))).1.Holds key latest := by
  refine ⟨h.kept.beginRegister roomId addr maxPlayers, ?_⟩
  show ¬ Settled { s with
      redis := (beginRegister s.redis s.now.ns roomId addr maxPlayers).1
      expiring := if (beginRegister s.redis s.now.ns roomId addr maxPlayers).2 then
        s.expiring ++ [(roomId, ttlSeconds)] else s.expiring } key → ∀ e,
    (beginRegister s.redis s.now.ns roomId addr maxPlayers).1.find s.now.ns key = some e → _
  have hset : (beginRegister s.redis s.now.ns roomId addr maxPlayers).1 = (s.redis.hset s.now.ns (roomKey roomId)
      [("addr", cStr addr), ("max_players", toString maxPlayers.toInt), ("player_count", "0"),
        ("is_active", "1")]).1 := Redis.hmset_fst _
  by_cases hkey : key = roomKey roomId
  · subst hkey
    intro hopen
    cases hfind : s.redis.find s.now.ns (roomKey roomId) with
    | none =>
      rw [hset]
      refine hash_hset fun e he => ?_
      rw [hfind] at he
      cases he
    | some old =>
      obtain ⟨text | fields, deadline⟩ := old
      · -- the command fails, so no `EXPIRE` is to come
        rw [beginRegister_string hfind] at hopen ⊢
        exact h.hash hopen
      · rw [hset]
        refine hash_hset fun e he => ?_
        rw [hfind] at he
        obtain rfl := Option.some.inj he
        exact ⟨fields, rfl⟩
  · intro hopen
    rw [hset, Redis.find_hset_of_ne hkey]
    refine h.hash fun hsettled => hopen fun room hroom => ?_
    have hroom : room ∈ if (beginRegister s.redis s.now.ns roomId addr maxPlayers).2 then
        s.expiring ++ [(roomId, ttlSeconds)] else s.expiring := hroom
    split at hroom
    · rcases List.mem_append.1 hroom with hold | hnew
      · exact hsettled room hold
      · rw [List.mem_singleton.1 hnew]
        exact Ne.symm hkey
    · exact hsettled room hroom

theorem call (h : s.Holds key latest) (hkey : ∀ token, key ≠ sessionKey token) {call : Call}
    (hapart : s.Apart key (.call call)) :
    (s.exec (.call call)).1.Holds key ((stored key (s.now, call)).or latest) := by
  cases call with
  | registerRoom roomId addr maxPlayers ttlSeconds => exact h.registerRoom roomId addr maxPlayers ttlSeconds
  | updateRoomPlayers roomId playerCount =>
    refine ⟨h.kept.updateRoomPlayers roomId playerCount, fun hopen => ?_⟩
    by_cases hroom : key = roomKey roomId
    · subst hroom
      exact hash_hset (h.hash hopen)
    · show ∀ e, (s.redis.hset _ _ _).1.find s.now.ns key = some e → _
      rw [Redis.find_hset_of_ne hroom]
      exact h.hash hopen
  | createSession playerId token ttlSeconds =>
    have hfind : (Call.exec s.redis s.now (.createSession playerId token ttlSeconds)).find s.now.ns key =
        s.redis.find s.now.ns key := Redis.find_setex_of_ne (hkey token)
    exact ⟨h.kept.congr hfind, fun hopen e he => h.hash hopen e (hfind.symm.trans he)⟩
  | deleteSession token =>
    have hfind : (Call.exec s.redis s.now (.deleteSession token)).find s.now.ns key =
        s.redis.find s.now.ns key := Redis.find_erase_of_ne (hkey token)
    exact ⟨h.kept.congr hfind, fun hopen e he => h.hash hopen e (hfind.symm.trans he)⟩
  | storeCheckpoint roomId snapshot ttlSeconds =>
    refine ⟨h.kept.storeCheckpoint roomId snapshot ttlSeconds, fun hopen => ?_⟩
    by_cases hroom : checkpointKey roomId = key
    · exact absurd (hapart hroom) hopen
    · show ∀ e, (s.redis.setex _ _ _ _).1.find s.now.ns key = some e → _
      rw [Redis.find_setex_of_ne (Ne.symm hroom)]
      exact h.hash hopen

/-- The `EXPIRE` meets no checkpoint. -/
theorem expire (h : s.Holds key latest) (i : Nat) : (s.exec (.expire i)).1.Holds key latest := by
  unfold RoomStore.exec
  dsimp only
  split
  · exact h
  · next roomId ttlSeconds hroom =>
    have hopen : ¬ Settled { s with
        redis := (s.redis.expire s.now.ns (roomKey roomId) ttlSeconds.toInt).1
        expiring := s.expiring.eraseIdx i } key → ¬ s.Settled key := fun hopen hsettled =>
      hopen fun room hmem => hsettled room (List.mem_of_mem_eraseIdx hmem)
    by_cases hkey : key = roomKey roomId
    · subst hkey
      have hhash := h.hash fun hsettled => hsettled _ (List.mem_of_getElem? hroom) rfl
      refine ⟨?_, fun _ => hash_expire hhash⟩
      cases h.kept with
      | live hfind =>
        obtain ⟨fields, hfields⟩ := hhash _ hfind
        cases hfields
      | gone hover => exact .gone hover (hash_expire hhash)
    · have hfind : (s.redis.expire s.now.ns (roomKey roomId) ttlSeconds.toInt).1.find s.now.ns key =
          s.redis.find s.now.ns key := Redis.find_expire_of_ne hkey
      exact ⟨h.kept.congr hfind, fun hno e he => h.hash (hopen hno) e (hfind.symm.trans he)⟩

theorem clock (h : s.Holds key latest) (time : SystemTime) : (s.exec (.clock time)).1.Holds key latest := by
  show Holds (if s.now.ns ≤ time.ns then { s with now := time } else s) key latest
  split
  · next hle => exact ⟨h.kept.clock hle, fun hopen e he => h.hash hopen e (Redis.find_of_le hle he)⟩
  · exact h

end RoomStore.Holds

theorem holds_init (start : SystemTime) (key : String) : RoomStore.Holds { now := start } key none := by
  have hnone : Redis.find {} start.ns key = none := by simp [Redis.find]
  refine ⟨.gone (fun checkpoint hmem => ?_) fun e he => ?_, fun _ e he => ?_⟩
  · cases hmem
  · cases hnone.symm.trans he
  · cases hnone.symm.trans he

theorem holds_run {start : SystemTime} {events : List StoreEvent} {roomId : String}
    (hapart : (storeMachine start).Along (RoomStore.Apart (checkpointKey roomId)) events) :
    ((storeMachine start).run events).1.Holds (checkpointKey roomId)
      (latestStored (checkpointKey roomId) ((storeMachine start).run events).2) := by
  refine (storeMachine start).run_inv_along (G := RoomStore.Apart (checkpointKey roomId))
    (P := fun _ calls s => s.Holds (checkpointKey roomId) (latestStored (checkpointKey roomId) calls))
    (holds_init start _) (fun _ calls s event h hapart => ?_) events hapart
  cases event with
  | call call =>
    have hshown : (s.exec (.call call)).2 = [(s.now, call)] := by
      cases call <;> rfl
    show (s.exec (.call call)).1.Holds _ (latestStored _ (calls ++ (s.exec (.call call)).2))
    rw [hshown, latestStored_concat]
    exact h.call (checkpointKey_ne_sessionKey roomId) hapart
  | expire i =>
    have hshown : (s.exec (.expire i)).2 = [] := by
      unfold RoomStore.exec
      dsimp only
      split <;> rfl
    show (s.exec (.expire i)).1.Holds _ (latestStored _ (calls ++ (s.exec (.expire i)).2))
    rw [hshown, List.append_nil]
    exact h.expire i
  | clock time =>
    show (s.exec (.clock time)).1.Holds _ (latestStored _ (calls ++ []))
    rw [List.append_nil]
    exact h.clock time

/-- In every order of the commands in which no checkpoint of the room is stored between the two commands of a
registration under its key, `get_checkpoint` returns the last one until its time is over. -/
theorem checkpoint_kept (start : SystemTime) (events : List StoreEvent) (roomId : String)
    (hapart : (storeMachine start).Along (RoomStore.Apart (checkpointKey roomId)) events) :
    let run := (storeMachine start).run events
    getCheckpoint run.1.redis run.1.now.ns roomId =
        ((latestStored (checkpointKey roomId) run.2).filter (run.1.now.ns < ·.1)).map Prod.snd ∧
      ((getCheckpoint run.1.redis run.1.now.ns roomId).isSome = true →
        ∀ other addr maxPlayers ttlSeconds playerCount, roomKey other = checkpointKey roomId →
          registerRoom run.1.redis run.1.now.ns other addr maxPlayers ttlSeconds = (run.1.redis, false) ∧
            updateRoomPlayers run.1.redis run.1.now.ns other playerCount = (run.1.redis, false)) := by
  have h := (holds_run hapart).kept
  refine ⟨h.getCheckpoint, fun hsome other addr maxPlayers ttlSeconds playerCount hkey => ?_⟩
  obtain ⟨text, deadline, hfind⟩ := find_of_getCheckpoint hsome
  rw [← hkey] at hfind
  exact ⟨registerRoom_string hfind, updateRoomPlayers_string hfind⟩

/-- A room takes the key of a checkpoint before it is stored, and tries to take it afterwards. -/
def contested : List StoreEvent :=
  [.call (.registerRoom "a:checkpoint" "host:1" 2 1), .expire 0, .clock ⟨2 * 10 ^ 9, by decide⟩,
    .call (.storeCheckpoint "a" [7, 8] 30), .call (.registerRoom "a:checkpoint" "host:1" 2 1), .expire 0,
    .clock ⟨31 * 10 ^ 9, by decide⟩]

theorem checkpoint_kept_contested :
    let s := ((storeMachine ⟨0, by decide⟩).run contested).1
    getCheckpoint s.redis s.now.ns "a" = some [7, 8] ∧
      registerRoom s.redis s.now.ns "a:checkpoint" "host:1" 2 1 = (s.redis, false) := by
  have hapart : (storeMachine ⟨0, by decide⟩).Along (RoomStore.Apart (checkpointKey "a")) contested :=
    (Machine.along_iff_forall_lt _).2 (by decide +kernel)
  obtain ⟨hget, hfail⟩ := checkpoint_kept ⟨0, by decide⟩ contested "a" hapart
  have hstored : getCheckpoint ((storeMachine ⟨0, by decide⟩).run contested).1.redis
      ((storeMachine ⟨0, by decide⟩).run contested).1.now.ns "a" = some [7, 8] := by
    rw [hget]
    decide +kernel
  exact ⟨hstored, (hfail (by rw [hstored]; rfl) "a:checkpoint" "host:1" 2 1 0 (by decide +kernel)).1⟩

/-- Without that the checkpoint can be gone before its time. -/
example : let s := ((storeMachine ⟨0, by decide⟩).run [.call (.registerRoom "a:checkpoint" "host:1" 2 1),
      .call (.storeCheckpoint "a" [7, 8] 30), .expire 0, .clock ⟨2 * 10 ^ 9, by decide⟩]).1
    getCheckpoint s.redis s.now.ns "a" = none := by decide +kernel

end RoomManager
end Portfolio.Netcode
