import Portfolio.Sagaline.ConcurrentLogins

/-!
# One refresh token at a time

Two logins of a user that overlap do not see each other's tokens and leave two valid ones; two
logins in one second make the same token, and the second one fails. `single_device_of_apart` shows
that nothing else is in the way: if the logins of each user keep apart, none fails or waits, and
there is never more than one token that is not revoked.
-/

namespace Portfolio.Sagaline

/-! ### What a login knows -/

/-- The snapshot has all the rows of the user, and only tokens of the user. -/
def Covers (s : LoginState) (user : User) (snapshot : List Token) : Prop :=
  (∀ t ∈ snapshot, t.owner = some user.id) ∧ ∀ t ∈ s.rows, t.userId = user.id → t.token ∈ snapshot

/-- The row that a login is about to insert. -/
structure NewRow (s : LoginState) (user : User) (row : RefreshToken) : Prop where
  userId : row.userId = user.id
  owner : row.token.owner = some user.id
  unique : ∀ t ∈ s.rows, t.token ≠ row.token

def Login.Holds (s : LoginState) : Login → Prop
  | .checked _ | .succeeded => True
  | .revoking user snapshot => Covers s user snapshot
  | .saving user snapshot row | .committing user snapshot row =>
      Covers s user snapshot ∧ NewRow s user row
  | .failed => False

/-- The rows that a login has locked. -/
def Login.locks : Login → List Token
  | .saving _ snapshot _ | .committing _ snapshot _ => snapshot
  | _ => []

def Login.inserted : Login → Option Token
  | .committing _ _ row => some row.token
  | _ => none

def Login.runs (userId : Nat) (login : Login) : Nat := if login.running = some userId then 1 else 0

structure LoginInv (s : Threads LoginState Login) : Prop where
  stored : Stored s.shared.rows
  holds : ∀ login ∈ s.calls, login.Holds s.shared
  apart : ∀ userId, (s.calls.map (Login.runs userId)).sum ≤ 1
  locked : ∀ t ∈ s.shared.locked, ∃ login ∈ s.calls, t ∈ login.locks
  uncommitted : ∀ t ∈ s.shared.uncommitted, ∃ login ∈ s.calls, login.inserted = some t

/-- A lock is held by a login that runs for the owner of the row. -/
theorem Login.Holds.running_of_locks {s : LoginState} {login : Login} (h : login.Holds s)
    {t : Token}
    (ht : t ∈ login.locks) : login.running = t.owner := by
  cases login with
  | saving user snapshot row => exact (h.1.1 t ht).symm
  | committing user snapshot row => exact (h.1.1 t ht).symm
  | _ => exact absurd ht List.not_mem_nil

theorem Login.Holds.running_of_inserted {s : LoginState} {login : Login} (h : login.Holds s)
    {t : Token} (ht : login.inserted = some t) : login.running = t.owner := by
  cases login with
  | committing user snapshot row =>
    obtain rfl := Option.some.inj ht
    exact h.2.owner.symm
  | _ => cases ht

theorem Login.Holds.congr {s s' : LoginState} {login : Login} (h : login.Holds s)
    (hrows : s'.rows = s.rows) : login.Holds s' := by
  cases login with
  | revoking user snapshot => exact ⟨h.1, by rw [hrows]; exact h.2⟩
  | saving user snapshot row =>
    exact ⟨⟨h.1.1, by rw [hrows]; exact h.1.2⟩, h.2.userId,
      h.2.owner, by rw [hrows]; exact h.2.unique⟩
  | committing user snapshot row =>
    exact ⟨⟨h.1.1, by rw [hrows]; exact h.1.2⟩, h.2.userId,
      h.2.owner, by rw [hrows]; exact h.2.unique⟩
  | failed => exact h
  | _ => trivial

namespace LoginInv
variable {s : Threads LoginState Login} {i : Nat} {login : Login}

/-- Only one login runs for a user. -/
theorem eq_of_running (h : LoginInv s) (hi : s.calls[i]? = some login) {other : Login}
    (hother : other ∈ s.calls) {userId : Nat} (hrun : login.running = some userId)
    (hrun' : other.running = some userId) : other = login := by
  obtain ⟨j, hj⟩ := List.mem_iff_getElem?.1 hother
  obtain rfl : i = j := eq_of_sum_map_le_one _ (h.apart userId) hi hj
    (by simp [Login.runs, hrun]) (by simp [Login.runs, hrun'])
  exact Option.some.inj (hj.symm.trans hi)

/-- `revokeAllByUser` does not wait. -/
theorem not_locked (h : LoginInv s) {user : User} {snapshot : List Token}
    (hi : s.calls[i]? = some (.revoking user snapshot)) :
    snapshot.any (· ∈ s.shared.locked) = false := by
  rw [List.any_eq_false]
  intro t ht
  simp only [decide_eq_true_eq]
  intro hlocked
  obtain ⟨other, hother, hlock⟩ := h.locked t hlocked
  have howner := (h.holds _ (List.mem_of_getElem? hi)).1 t ht
  have hrun := (h.holds other hother).running_of_locks hlock
  rw [howner] at hrun
  rw [h.eq_of_running hi hother rfl hrun] at hlock
  exact absurd hlock List.not_mem_nil

/-- `save` neither fails nor waits. -/
theorem not_taken (h : LoginInv s) {user : User} {snapshot : List Token} {row : RefreshToken}
    (hi : s.calls[i]? = some (.saving user snapshot row)) :
    s.shared.rows.any (·.token = row.token) = false ∧ row.token ∉ s.shared.uncommitted := by
  obtain ⟨-, hrow⟩ := h.holds _ (List.mem_of_getElem? hi)
  refine ⟨by simpa using hrow.unique, fun hmem => ?_⟩
  obtain ⟨other, hother, hins⟩ := h.uncommitted _ hmem
  have hrun := (h.holds other hother).running_of_inserted hins
  rw [hrow.owner] at hrun
  rw [h.eq_of_running hi hother rfl hrun] at hins
  cases hins

/-! ### Steps -/

theorem apart_set (h : LoginInv s) (hi : s.calls[i]? = some login) {login' : Login}
    (hrun : ∀ userId, login'.running = some userId →
      login.running = some userId ∨ ∀ other ∈ s.calls, other.running ≠ some userId) (userId : Nat) :
    ((s.calls.set i login').map (Login.runs userId)).sum ≤ 1 :=
  sum_map_set_le_one (P := fun l : Login => l.running = some userId) hi (h.apart userId)
    (hrun userId)

/-- A step that leaves the committed rows as they are. -/
theorem step_of_rows_eq (h : LoginInv s) (hi : s.calls[i]? = some login) {s' : LoginState}
    {login' : Login} (hrows : s'.rows = s.shared.rows) (hholds : login'.Holds s')
    (hrun : ∀ userId, login'.running = some userId →
      login.running = some userId ∨ ∀ other ∈ s.calls, other.running ≠ some userId)
    (hlocks : ∀ t ∈ login.locks, t ∈ login'.locks)
    (hlocked : ∀ t ∈ s'.locked, t ∈ s.shared.locked ∨ t ∈ login'.locks)
    (hinserted : login.inserted = none)
    (huncommitted : ∀ t ∈ s'.uncommitted, t ∈ s.shared.uncommitted ∨ login'.inserted = some t) :
    LoginInv ⟨s', s.calls.set i login'⟩ := by
  have hmem : login' ∈ s.calls.set i login' :=
    List.mem_set (List.getElem?_eq_some_iff.1 hi).1 _
  constructor
  · exact hrows ▸ h.stored
  · intro k hk
    rcases List.mem_or_eq_of_mem_set hk with hk | rfl
    · exact (h.holds k hk).congr hrows
    · exact hholds
  · exact h.apart_set hi hrun
  · intro t ht
    rcases hlocked t ht with ht | ht
    · obtain ⟨k, hk, hlock⟩ := h.locked t ht
      by_cases hkl : k = login
      · exact ⟨login', hmem, hlocks t (hkl ▸ hlock)⟩
      · exact ⟨k, mem_set_of_ne hi hk hkl, hlock⟩
    · exact ⟨login', hmem, ht⟩
  · intro t ht
    rcases huncommitted t ht with ht | ht
    · obtain ⟨k, hk, hins⟩ := h.uncommitted t ht
      refine ⟨k, mem_set_of_ne hi hk ?_, hins⟩
      rintro rfl
      rw [hinserted] at hins
      cases hins
    · exact ⟨login', hmem, ht⟩

/-- What the commit of one user means for the login of another. -/
theorem holds_commit (h : LoginInv s) {user : User} {snapshot : List Token} {row : RefreshToken}
    (hi : s.calls[i]? = some (.committing user snapshot row)) {j : Nat} (hne : j ≠ i)
    (hj : s.calls[j]? = some login) : login.Holds (s.shared.commit snapshot row) := by
  obtain ⟨-, hrow⟩ := h.holds _ (List.mem_of_getElem? hi)
  have hlogin := h.holds _ (List.mem_of_getElem? hj)
  have hother : login.running ≠ some user.id := fun hrun =>
    hne (eq_of_sum_map_le_one _ (h.apart user.id) hj hi (by simp [Login.runs, hrun])
      (by simp [Login.runs, Login.running]))
  -- a row after the commit is a row of before, up to its flag, or the new one
  have hrows : ∀ t ∈ (s.shared.commit snapshot row).rows,
      (∃ old ∈ s.shared.rows, old.token = t.token ∧ old.userId = t.userId) ∨ t = row := by
    intro t ht
    rcases List.mem_append.1 ht with ht | ht
    · obtain ⟨old, hold, rfl⟩ := List.mem_map.1 ht
      exact .inl ⟨old, hold, by split <;> rfl, by split <;> rfl⟩
    · exact .inr (List.mem_singleton.1 ht)
  have hcovers : ∀ {u : User} {snap : List Token}, u.id ≠ user.id → Covers s.shared u snap →
      Covers (s.shared.commit snapshot row) u snap := by
    intro u snap hu hc
    refine ⟨hc.1, fun t ht hid => ?_⟩
    rcases hrows t ht with ⟨old, hold, htoken, huser⟩ | rfl
    · exact htoken ▸ hc.2 old hold (huser.trans hid)
    · exact absurd (hid.symm.trans hrow.userId) hu
  have hnew : ∀ {u : User} {r : RefreshToken}, u.id ≠ user.id → NewRow s.shared u r →
      NewRow (s.shared.commit snapshot row) u r := by
    intro u r hu hr
    refine ⟨hr.userId, hr.owner, fun t ht hsame => ?_⟩
    rcases hrows t ht with ⟨old, hold, htoken, -⟩ | rfl
    · exact hr.unique old hold (htoken.trans hsame)
    · have := hrow.owner
      rw [hsame, hr.owner] at this
      exact hu (Option.some.inj this)
  cases login with
  | revoking u snap => exact hcovers (fun hu => hother (by simp [Login.running, hu])) hlogin
  | saving u snap r =>
    have hu : u.id ≠ user.id := fun hu => hother (by simp [Login.running, hu])
    exact ⟨hcovers hu hlogin.1, hnew hu hlogin.2⟩
  | committing u snap r =>
    have hu : u.id ≠ user.id := fun hu => hother (by simp [Login.running, hu])
    exact ⟨hcovers hu hlogin.1, hnew hu hlogin.2⟩
  | failed => exact hlogin
  | _ => trivial

theorem commit (h : LoginInv s) {user : User} {snapshot : List Token} {row : RefreshToken}
    (hi : s.calls[i]? = some (.committing user snapshot row)) :
    LoginInv ⟨s.shared.commit snapshot row, s.calls.set i .succeeded⟩ := by
  obtain ⟨hcovers, hrow⟩ := h.holds _ (List.mem_of_getElem? hi)
  constructor
  · refine (h.stored.revoke (·.token ∈ snapshot)).concat (hrow.owner.trans (by rw [hrow.userId])) ?_
    intro t ht hid
    obtain ⟨old, hold, rfl⟩ := List.mem_map.1 ht
    split
    · rfl
    · rename_i hnot
      rw [if_neg hnot, hrow.userId] at hid
      exact absurd (hcovers.2 old hold hid) hnot
  · intro k hk
    rcases exists_of_mem_set hk with rfl | ⟨j, hne, hj⟩
    · trivial
    · exact h.holds_commit hi hne hj
  · refine h.apart_set hi fun userId hr => ?_
    cases hr
  · intro t ht
    simp only [LoginState.commit, LoginState.unlock, List.mem_filter, decide_eq_true_eq] at ht
    obtain ⟨k, hk, hlock⟩ := h.locked t ht.1
    refine ⟨k, mem_set_of_ne hi hk ?_, hlock⟩
    rintro rfl
    exact ht.2 hlock
  · intro t ht
    simp only [LoginState.commit, List.mem_filter, decide_eq_true_eq] at ht
    obtain ⟨k, hk, hins⟩ := h.uncommitted t ht.1
    refine ⟨k, mem_set_of_ne hi hk ?_, hins⟩
    rintro rfl
    exact ht.2 (Option.some.inj hins).symm

theorem next {p : JwtTokenProvider} {elapsed : Nat} (h : LoginInv s) (hi : s.calls[i]? = some login)
    (hapart : Apart p s login elapsed) :
    LoginInv ⟨(loginNext p elapsed s.shared login).1,
      s.calls.set i (loginNext p elapsed s.shared login).2⟩ := by
  have hlogin := h.holds _ (List.mem_of_getElem? hi)
  cases login with
  | checked user =>
    refine h.step_of_rows_eq hi rfl ⟨?_, ?_⟩ ?_ (fun _ ht => ht) (fun _ => .inl) rfl (fun _ => .inl)
    · intro t ht
      obtain ⟨row, hrow, rfl⟩ := List.mem_map.1 ht
      obtain ⟨hmem, hid⟩ := List.mem_filter.1 hrow
      rw [h.stored.owner row hmem, of_decide_eq_true hid]
    · intro t ht hid
      exact List.mem_map_of_mem (List.mem_filter.2 ⟨ht, by simpa using hid⟩)
    · intro userId hr
      obtain rfl := Option.some.inj hr
      exact .inr hapart
  | revoking user snapshot =>
    simp only [loginNext, h.not_locked hi, Bool.false_eq_true, if_false]
    refine h.step_of_rows_eq hi rfl ⟨hlogin, rfl, rfl, hapart⟩ (fun _ => .inl)
      (fun _ ht => absurd ht List.not_mem_nil) (fun t ht => ?_) rfl (fun _ => .inl)
    exact List.mem_append.1 ht
  | saving user snapshot row =>
    obtain ⟨htaken, hwaits⟩ := h.not_taken hi
    simp only [loginNext, htaken, hwaits, Bool.false_eq_true, if_false]
    refine h.step_of_rows_eq hi rfl ⟨hlogin.1, hlogin.2.userId, hlogin.2.owner, hlogin.2.unique⟩
      (fun _ => .inl) (fun _ ht => ht) (fun _ => .inl) rfl (fun t ht => ?_)
    rcases List.mem_append.1 ht with ht | ht
    · exact .inl ht
    · exact .inr (by rw [List.mem_singleton.1 ht]; rfl)
  | committing user snapshot row =>
    have hc := h.commit hi
    exact ⟨hc.stored, fun k hk => (hc.holds k hk).congr rfl, hc.apart, hc.locked, hc.uncommitted⟩
  | succeeded =>
    exact h.step_of_rows_eq hi rfl trivial (fun _ => .inl) (fun _ ht => ht) (fun _ => .inl) rfl
      (fun _ => .inl)
  | failed => exact hlogin.elim

end LoginInv

/-! ### Runs -/

/-- The statements that a login has before it. -/
def Login.rank : Login → Nat
  | .checked _ => 4
  | .revoking .. => 3
  | .saving .. => 2
  | .committing .. => 1
  | .succeeded | .failed => 0

section Runs
variable (p : JwtTokenProvider) (encoder : PasswordEncoder)

/-- Logins over what the service has left in the table. -/
def afterRequests (now : Nat) (requests : List Request) : LoginState :=
  { now := ((service p encoder now).run requests).1.now
    rows := ((service p encoder now).run requests).1.db.refreshTokens }

def loginMachine (now : Nat) (requests : List Request) :
    Machine (Threads LoginState Login) (Sched User Nat) Unit :=
  (logins p).machine (afterRequests p encoder now requests)

variable {p encoder} {now : Nat} {requests : List Request}

theorem loginInv_run (acts : List (Sched User Nat))
    (h : (loginMachine p encoder now requests).Along (OfCall (Apart p)) acts) :
    LoginInv ((loginMachine p encoder now requests).run acts).1 := by
  refine (logins p).machine_inv (I := LoginInv) ?_ ?_ ?_ acts h
  · refine ⟨service_stored requests, ?_, fun _ => Nat.zero_le _, ?_, ?_⟩
    · exact fun _ hk => absurd hk List.not_mem_nil
    · exact fun _ ht => absurd ht List.not_mem_nil
    · exact fun _ ht => absurd ht List.not_mem_nil
  · intro s user hs
    refine ⟨hs.stored, fun k hk => ?_, fun userId => ?_, fun t ht => ?_, fun t ht => ?_⟩
    · rcases List.mem_append.1 hk with hk | hk
      · exact hs.holds k hk
      · obtain rfl := List.mem_singleton.1 hk
        trivial
    · rw [sum_map_concat]
      exact hs.apart userId
    · obtain ⟨k, hk, hlock⟩ := hs.locked t ht
      exact ⟨k, List.mem_append_left _ hk, hlock⟩
    · obtain ⟨k, hk, hins⟩ := hs.uncommitted t ht
      exact ⟨k, List.mem_append_left _ hk, hins⟩
  · intro s i login elapsed hs hi hapart
    exact hs.next hi hapart

theorem rank_loginNext {s : Threads LoginState Login} (h : LoginInv s) {i : Nat} {login : Login}
    (hi : s.calls[i]? = some login) (elapsed : Nat) :
    (loginNext p elapsed s.shared login).2.rank = login.rank - 1 := by
  cases login with
  | revoking user snapshot =>
    simp only [loginNext, h.not_locked hi, Bool.false_eq_true, if_false]
    rfl
  | saving user snapshot row =>
    obtain ⟨htaken, hwaits⟩ := h.not_taken hi
    simp only [loginNext, htaken, hwaits, Bool.false_eq_true, if_false]
    rfl
  | _ => rfl

/-- If the logins of each user keep apart: no login fails, every login succeeds within its four
statements, and no user ends up with two valid refresh tokens. -/
theorem single_device_of_apart (acts : List (Sched User Nat))
    (h : (loginMachine p encoder now requests).Along (OfCall (Apart p)) acts) :
    SingleDevice ((loginMachine p encoder now requests).run acts).1 ∧
      ∀ (i : Nat) login, ((loginMachine p encoder now requests).run acts).1.calls[i]? = some login →
        4 ≤ (logins p).stepsOf (afterRequests p encoder now requests) i acts →
          login = .succeeded := by
  have hinv := loginInv_run acts h
  have hfailed : Login.failed ∉ ((loginMachine p encoder now requests).run acts).1.calls :=
    fun hmem => hinv.holds _ hmem
  refine ⟨⟨hfailed, fun userId _ => ?_⟩, fun i login hi hsteps => ?_⟩
  · refine Nat.le_trans ?_ (hinv.stored.single userId)
    rw [LoginState.valid, ← List.countP_eq_length_filter]
    refine List.countP_mono_left fun t _ ht => ?_
    simp only [RefreshToken.isValid, Bool.and_eq_true] at ht ⊢
    exact ⟨ht.1, ht.2.1⟩
  · have hrank := (logins p).rank_stepsOf (I := LoginInv) (fun acts h => loginInv_run acts h)
      (fun _ => Nat.le_refl 4) (fun s i k elapsed hs hi _ => rank_loginNext hs hi elapsed) acts h i
      login hi
    have hzero : login.rank = 0 := by omega
    cases login with
    | succeeded => rfl
    | failed => exact absurd (List.mem_of_getElem? hi) hfailed
    | _ => cases hzero

end Runs

/-! ### Logins that do not keep apart -/

def kim : User :=
  { id := 1, email := "kim@shop.kr", passwordHash := "$2a$password1", name := "Kim" }

/-- The password is never asked for again after the checks of a login. -/
def noEncoder : PasswordEncoder := ⟨fun _ _ => "", fun _ _ => false⟩

/-- Both logins revoke before either has committed; their tokens are of different seconds. -/
def overlapping : List (Sched User Nat) :=
  [.call kim, .call kim, .step 0 0, .step 1 0, .step 0 0, .step 0 0, .step 0 0,
   .step 1 1000, .step 1 0, .step 1 0]

/-- One login after the other, in one second. -/
def sameSecond : List (Sched User Nat) :=
  [.call kim, .step 0 0, .step 0 0, .step 0 0, .step 0 0,
   .call kim, .step 1 10, .step 1 10, .step 1 10]

theorem logins_not_single_device :
    (¬ ∀ (p : JwtTokenProvider) (encoder : PasswordEncoder) (now : Nat) (requests : List Request)
      (acts : List (Sched User Nat)),
      .failed ∉ ((loginMachine p encoder now requests).run acts).1.calls) ∧
    ¬ ∀ (p : JwtTokenProvider) (encoder : PasswordEncoder) (now : Nat) (requests : List Request)
      (acts : List (Sched User Nat)) (userId : Nat),
      (∀ login ∈ ((loginMachine p encoder now requests).run acts).1.calls,
        login.inProgress ≠ some userId) →
      (((loginMachine p encoder now requests).run acts).1.shared.valid userId).length ≤ 1 := by
  constructor
  · intro h
    have := h {} noEncoder 0 [] sameSecond
    revert this
    decide +kernel
  · intro h
    have := h {} noEncoder 0 [] overlapping 1
    revert this
    decide +kernel

/-- Two logins of different seconds, one after the other. -/
def inTurn : List (Sched User Nat) :=
  [.call kim, .call kim, .step 0 0, .step 0 0, .step 0 0, .step 0 0,
   .step 1 1000, .step 1 0, .step 1 0, .step 1 0]

theorem single_device_in_turn :
    (loginMachine {} noEncoder 0 []).Along (OfCall (Apart {})) inTurn ∧
      SingleDevice ((loginMachine {} noEncoder 0 []).run inTurn).1 := by
  have h : (loginMachine {} noEncoder 0 []).Along (OfCall (Apart {})) inTurn := by
    rw [Machine.along_iff_forall_lt]
    decide +kernel
  exact ⟨h, (single_device_of_apart inTurn h).1⟩

end Portfolio.Sagaline
