import Portfolio.Netcode.RoomManager

/-!
# Sessions identify their player

The value of a session is "player_id:expires", and `get_session` splits it at the first colon. The
split is the right one exactly for player ids without a colon; one with a colon is read as another
player.
-/

namespace Portfolio.Netcode.RoomManager
open Redis (Reply)

/-- Not a `create_session` or `delete_session` for the token `t`. -/
def Call.Spares (t : String) : Call → Prop
  | .createSession _ token _ => cStr token ≠ t
  | .deleteSession token => cStr token ≠ t
  | _ => True

/-! ### Keys -/

theorem sessionKey_eq (token : String) : sessionKey token = "session:" ++ cStr token :=
  cStr_append (by decide) token

theorem sessionKey_ne {token t : String} (ht : '\x00' ∉ t.toList) (h : cStr token ≠ t) :
    sessionKey t ≠ sessionKey token := by
  intro heq
  rw [sessionKey_eq, sessionKey_eq, cStr_of_noNul ht, String.append_right_inj] at heq
  exact h heq.symm

theorem sessionKey_ne_roomKey (token rest : String) : sessionKey token ≠ cStr ("room:" ++ rest) := by
  intro heq
  rw [sessionKey_eq, cStr_append (by decide)] at heq
  have hhead := congrArg (fun s => s.toList.head?) heq
  simp at hhead

/-! ### The stored value -/

/-- Other calls leave the session of `t` alone. -/
theorem Call.find_exec {t : String} (ht : '\x00' ∉ t.toList) {call : Call} (h : call.Spares t) (r : Redis)
    (time : SystemTime) (now : Nat) :
    (call.exec r time).find now (sessionKey t) = r.find now (sessionKey t) := by
  cases call with
  | registerRoom roomId addr maxPlayers ttlSeconds =>
    have hkey : sessionKey t ≠ roomKey roomId := sessionKey_ne_roomKey t roomId
    simp only [exec, RoomManager.registerRoom]
    split
    · rw [Redis.hmset_fst, Redis.find_hset_of_ne hkey]
    · rw [Redis.find_expire_of_ne hkey, Redis.hmset_fst, Redis.find_hset_of_ne hkey]
  | updateRoomPlayers roomId playerCount => exact Redis.find_hset_of_ne (sessionKey_ne_roomKey t roomId)
  | createSession playerId token ttlSeconds => exact Redis.find_setex_of_ne (sessionKey_ne ht h)
  | deleteSession token => exact Redis.find_erase_of_ne (sessionKey_ne ht h)
  | storeCheckpoint roomId snapshot ttlSeconds =>
    refine Redis.find_setex_of_ne ?_
    rw [checkpointKey, String.append_assoc]
    exact sessionKey_ne_roomKey t (roomId ++ ":checkpoint")

theorem find_execCalls {t : String} (ht : '\x00' ∉ t.toList) (r : Redis) (now : Nat)
    {calls : List (SystemTime × Call)} (h : ∀ call ∈ calls, call.2.Spares t) :
    (execCalls r calls).find now (sessionKey t) = r.find now (sessionKey t) := by
  induction calls generalizing r with
  | nil => rfl
  | cons call calls ih =>
    show (execCalls (call.2.exec r call.1) calls).find now (sessionKey t) = _
    rw [ih _ fun c hc => h c (by simp [hc]), Call.find_exec ht (h call (by simp))]

/-- The time at which a session ends, in seconds. -/
def expiry (created : SystemTime) (ttlSeconds : Int32) : Int :=
  (created.ns / 10 ^ 9 : Nat) + ttlSeconds.toInt

theorem tdiv_expires (created : SystemTime) {ttlSeconds : Int32} (h : 0 < ttlSeconds.toInt) :
    ((created.ns : Int) + ttlSeconds.toInt * 10 ^ 9).tdiv (10 ^ 9) = expiry created ttlSeconds := by
  rw [Int.tdiv_eq_ediv_of_nonneg (by omega), expiry]
  omega

theorem get_createSession {p t : String} {ttl : Int32} {created now : SystemTime}
    (hp : '\x00' ∉ p.toList) (httl : 0 < ttl.toInt) (hnow : (now.ns : Int) < created.ns + ttl.toInt * 10 ^ 9)
    (r : Redis) : (createSession r created p t ttl).1.get now.ns (sessionKey t) =
      .string (p ++ ":" ++ toString (expiry created ttl)) := by
  have hfind : (createSession r created p t ttl).1.find now.ns (sessionKey t) =
      some { value := .string (p ++ ":" ++ toString (expiry created ttl))
             deadline := some (Redis.after created.ns ttl.toInt) } := by
    have hpc : '\x00' ∉ (p ++ ":").toList := by simp [hp]
    simp only [createSession, Redis.setex, if_neg (not_le.2 httl), tdiv_expires created httl]
    rw [cStr_append hpc, cStr_toString_int]
    refine Redis.find_put_self (Redis.isLive_iff.2 ?_)
    rw [Redis.after]
    omega
  rw [Redis.get, hfind]

/-! ### Reading it back -/

theorem noColon_of_parseSession {token : String} {value : List Char} {info : SessionInfo}
    (h : parseSession token value = some info) : ':' ∉ info.playerId.toList := by
  unfold parseSession at h
  split at h
  · obtain ⟨expires, -, rfl⟩ := Option.map_eq_some_iff.1 h
    intro hmem
    rw [String.toList_ofList] at hmem
    simpa using List.mem_takeWhile_imp hmem
  · cases h

theorem parseSession_append {token p : String} {expires : Int} (hp : ':' ∉ p.toList)
    (hlow : -2 ^ 63 ≤ expires) (hhigh : expires < 2 ^ 63) :
    parseSession token (p ++ ":" ++ toString expires).toList =
      some { playerId := p, token := token, expires := expires } := by
  have hall : ∀ c ∈ p.toList, decide (c ≠ ':') = true := by
    intro c hc
    simp only [ne_eq, decide_eq_true_eq]
    rintro rfl
    exact hp hc
  have hlist : (p ++ ":" ++ toString expires).toList = p.toList ++ ':' :: (toString expires).toList := by
    simp [String.toList_append]
  have hread : sto 64 (toString expires).toList = some expires := by
    have h : sto 64 ((toString expires).toList ++ []) = some expires := sto_toString hlow hhigh (by simp)
    rwa [List.append_nil] at h
  rw [parseSession, hlist, List.dropWhile_append_of_pos hall, List.takeWhile_append_of_pos hall,
    List.dropWhile_cons_of_neg (by decide), List.takeWhile_cons_of_neg (by decide), List.append_nil]
  show (sto 64 (toString expires).toList).map _ = _
  rw [hread, Option.map_some, String.ofList_toList]

/-- A session names its player and its expiry if and only if there is no colon in the player id. -/
theorem session_identifies_player_iff (r : Redis) (p t : String) (ttl : Int32) (created now : SystemTime)
    (calls : List (SystemTime × Call)) (hp : '\x00' ∉ p.toList) (ht : '\x00' ∉ t.toList) (httl : 0 < ttl.toInt)
    (hcalls : ∀ call ∈ calls, call.2.Spares t) (hnow : (now.ns : Int) < created.ns + ttl.toInt * 10 ^ 9) :
    (∃ info, getSession (execCalls (createSession r created p t ttl).1 calls) now t = some info ∧
      info.playerId = p ∧ info.expires = expiry created ttl) ↔ ':' ∉ p.toList := by
  have hget : (execCalls (createSession r created p t ttl).1 calls).get now.ns (sessionKey t) =
      .string (p ++ ":" ++ toString (expiry created ttl)) := by
    rw [← get_createSession hp httl hnow r]
    unfold Redis.get
    rw [find_execCalls ht _ _ hcalls]
  have hnul : '\x00' ∉ (p ++ ":").toList := by simp [hp]
  have hsession : getSession (execCalls (createSession r created p t ttl).1 calls) now t =
      (parseSession t (p ++ ":" ++ toString (expiry created ttl)).toList).filter fun info =>
        ((now.ns / 10 ^ 9 : Nat) : Int) ≤ info.expires := by
    simp only [getSession, hget]
    rw [cStr_append hnul, cStr_toString_int]
  rw [hsession]
  constructor
  · rintro ⟨info, hinfo, rfl, -⟩
    exact noColon_of_parseSession (Option.filter_eq_some_iff.1 hinfo).1
  · intro hcolon
    have hbound := created.inRange
    have hlt := ttl.toInt_lt
    refine ⟨{ playerId := p, token := t, expires := expiry created ttl }, ?_, rfl, rfl⟩
    rw [parseSession_append hcolon (by unfold expiry; omega) (by unfold expiry; omega), Option.filter_eq_some_iff]
    refine ⟨rfl, decide_eq_true ?_⟩
    show _ ≤ expiry created ttl
    unfold expiry
    omega

theorem session_identifies_alice :
    (∃ info, getSession (execCalls (createSession {} ⟨0, by decide⟩ "alice" "t" 60).1
      [(⟨1, by decide⟩, .createSession "bob" "u" 60)]) ⟨59, by decide⟩ "t" = some info ∧
      info.playerId = "alice" ∧ info.expires = expiry ⟨0, by decide⟩ 60) ↔ ':' ∉ "alice".toList :=
  session_identifies_player_iff {} "alice" "t" 60 ⟨0, by decide⟩ ⟨59, by decide⟩ _ (by decide) (by decide)
    (by decide) (by simp [Call.Spares, cStr]) (by decide)

/-- A player id with a colon is read as that of another player, with an expiry of his choice. -/
theorem colon_identifies_bob :
    getSession (createSession {} ⟨0, by decide⟩ "bob:9000000000" "t" 60).1 ⟨0, by decide⟩ "t" =
      some { playerId := "bob", token := "t", expires := 9000000000 } ∧
    ¬ ∃ info, getSession (createSession {} ⟨0, by decide⟩ "bob:9000000000" "t" 60).1 ⟨0, by decide⟩ "t" = some info ∧
      info.playerId = "bob:9000000000" ∧ info.expires = expiry ⟨0, by decide⟩ 60 := by
  have hget : getSession (createSession {} ⟨0, by decide⟩ "bob:9000000000" "t" 60).1 ⟨0, by decide⟩ "t" =
      some { playerId := "bob", token := "t", expires := 9000000000 } := by decide +kernel
  refine ⟨hget, ?_⟩
  rintro ⟨info, hinfo, hplayer, -⟩
  rw [hget] at hinfo
  cases hinfo
  exact absurd hplayer (by decide)

end Portfolio.Netcode.RoomManager
