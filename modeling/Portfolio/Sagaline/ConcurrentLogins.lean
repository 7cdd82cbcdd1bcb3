import Portfolio.Lib.Interleaving
import Portfolio.Sagaline.UserService

/-!
# Logins at the same time

The statements of `createRefreshToken` (`e-commerce`) when any number of logins run at once, each in
a read committed transaction. `revokeAllByUser` sees the rows that are committed when it begins, and
waits for the locks of other transactions on them; `save` waits for an uncommitted row with the same
token and fails for a committed one. Each step may come some milliseconds after the one before.
-/

namespace Portfolio.Sagaline

/-- The committed rows of `refresh_tokens`, and what the transactions under way hold. -/
structure LoginState where
  now : Nat
  rows : List RefreshToken
  /-- Rows with an uncommitted update. -/
  locked : List Token := []
  /-- Tokens of uncommitted rows. -/
  uncommitted : List Token := []

/-- A login of a user who is active and has given the right password. `snapshot` has the rows that
`revokeAllByUser` found. -/
inductive Login where
  | checked (user : User)
  | revoking (user : User) (snapshot : List Token)
  | saving (user : User) (snapshot : List Token) (row : RefreshToken)
  | committing (user : User) (snapshot : List Token) (row : RefreshToken)
  | succeeded
  | failed
  deriving DecidableEq

namespace LoginState

def unlock (s : LoginState) (snapshot : List Token) : LoginState :=
  { s with locked := s.locked.filter (· ∉ snapshot) }

def commit (s : LoginState) (snapshot : List Token) (row : RefreshToken) : LoginState :=
  { s.unlock snapshot with
    rows := (s.rows.map fun t => if t.token ∈ snapshot then { t with revoked := true } else t) ++
      [row]
    uncommitted := s.uncommitted.filter (· ≠ row.token) }

end LoginState

section Steps
variable (p : JwtTokenProvider)

/-- The next statement of a login, after `elapsed` milliseconds. -/
def loginNext (elapsed : Nat) (s : LoginState) (login : Login) : LoginState × Login :=
  let s := { s with now := s.now + elapsed }
  match login with
  | .checked user => (s, .revoking user ((s.rows.filter (·.userId = user.id)).map (·.token)))
  | .revoking user snapshot =>
    if snapshot.any (· ∈ s.locked) then (s, login)
    else ({ s with locked := s.locked ++ snapshot },
      .saving user snapshot (newRefreshToken p s.now user))
  | .saving user snapshot row =>
    if s.rows.any (·.token = row.token) then (s.unlock snapshot, .failed)
    else if row.token ∈ s.uncommitted then (s, login)
    else ({ s with uncommitted := s.uncommitted ++ [row.token] }, .committing user snapshot row)
  | .committing _ snapshot row => (s.commit snapshot row, .succeeded)
  | .succeeded => (s, .succeeded)
  | .failed => (s, .failed)

def logins : Protocol LoginState User Login Nat where
  start user := .checked user
  next := loginNext p

end Steps

/-- The user of a login between its `revokeAllByUser` and its commit. -/
def Login.running : Login → Option Nat
  | .revoking user _ | .saving user _ _ | .committing user _ _ => some user.id
  | .checked _ | .succeeded | .failed => none

/-- The user of a login in progress. -/
def Login.inProgress : Login → Option Nat
  | .checked user | .revoking user _ | .saving user _ _ | .committing user _ _ => some user.id
  | .succeeded | .failed => none

/-- The refresh tokens of a user that are neither revoked nor expired. -/
def LoginState.valid (s : LoginState) (userId : Nat) : List RefreshToken :=
  s.rows.filter fun t => t.userId = userId && t.isValid s.now

/-- No login has failed, and a user with no login in progress has at most one valid token. -/
def SingleDevice (s : Threads LoginState Login) : Prop :=
  .failed ∉ s.calls ∧
    ∀ userId, (∀ login ∈ s.calls, login.inProgress ≠ some userId) →
      (s.shared.valid userId).length ≤ 1

/-- A login begins to revoke while no other login of the user is between its revocation and its
commit, and makes its token in a second in which no token of the user was made. -/
def Apart (p : JwtTokenProvider) (s : Threads LoginState Login) (login : Login) (elapsed : Nat) :
    Prop :=
  match login with
  | .checked user => ∀ other ∈ s.calls, other.running ≠ some user.id
  | .revoking user _ => ∀ t ∈ s.shared.rows,
      t.token ≠ p.createRefreshToken (s.shared.now + elapsed) user.email user.id
  | _ => True

instance (p : JwtTokenProvider) (s : Threads LoginState Login) (login : Login) (elapsed : Nat) :
    Decidable (Apart p s login elapsed) :=
  match login with
  | .checked user => inferInstanceAs (Decidable (∀ other ∈ s.calls, other.running ≠ some user.id))
  | .revoking user _ => inferInstanceAs (Decidable (∀ t ∈ s.shared.rows,
      t.token ≠ p.createRefreshToken (s.shared.now + elapsed) user.email user.id))
  | .saving .. | .committing .. | .succeeded | .failed => isTrue trivial

/-! ### The table between logins -/

def Token.owner : Token → Option Nat
  | .signed claims => some claims.userId
  | .other _ => none

/-- Every row has a token of its user, and each user has at most one that is not revoked. -/
structure Stored (rows : List RefreshToken) : Prop where
  owner : ∀ t ∈ rows, t.token.owner = some t.userId
  single : ∀ userId, rows.countP (fun t => t.userId = userId && !t.revoked) ≤ 1

namespace Stored
variable {p : JwtTokenProvider} {encoder : PasswordEncoder} {now : Nat} {rows : List RefreshToken}

theorem sublist {rows' : List RefreshToken} (h : Stored rows) (hsub : rows'.Sublist rows) :
    Stored rows' where
  owner t ht := h.owner t (hsub.subset ht)
  single userId := Nat.le_trans hsub.countP_le (h.single userId)

theorem revoke (h : Stored rows) (φ : RefreshToken → Prop) [DecidablePred φ] :
    Stored (rows.map fun t => if φ t then { t with revoked := true } else t) where
  owner t ht := by
    obtain ⟨old, hold, rfl⟩ := List.mem_map.1 ht
    have := h.owner old hold
    split <;> exact this
  single userId := by
    refine Nat.le_trans ?_ (h.single userId)
    rw [List.countP_map]
    refine List.countP_mono_left fun t _ ht => ?_
    simp only [Function.comp] at ht
    split at ht
    · simp at ht
    · exact ht

/-- A new token of a user whose other tokens are all revoked. -/
theorem concat {row : RefreshToken} (h : Stored rows) (howner : row.token.owner = some row.userId)
    (hrevoked : ∀ t ∈ rows, t.userId = row.userId → t.revoked = true) : Stored (rows ++ [row]) where
  owner t ht := by
    rcases List.mem_append.1 ht with ht | ht
    · exact h.owner t ht
    · obtain rfl := List.mem_singleton.1 ht
      exact howner
  single userId := by
    rw [List.countP_append]
    by_cases hid : row.userId = userId
    · subst hid
      have hnone : rows.countP (fun t => t.userId = row.userId && !t.revoked) = 0 := by
        rw [List.countP_eq_zero]
        intro t ht
        by_cases hu : t.userId = row.userId
        · simp [hrevoked t ht hu]
        · simp [hu]
      have := List.countP_le_length (p := fun t => decide (t.userId = row.userId) && !t.revoked)
        (l := [row])
      simp only [List.length_singleton] at this
      omega
    · have := h.single userId
      simpa [hid] using this

theorem createRefreshToken {db db' : Database} {user : User} {t : RefreshToken}
    (h : Stored db.refreshTokens) (hc : createRefreshToken p now db user = .ok (db', t)) :
    Stored db'.refreshTokens := by
  obtain ⟨rfl, rfl⟩ := createRefreshToken_ok hc
  refine concat (h.revoke (·.userId = user.id)) rfl fun t ht hid => ?_
  obtain ⟨old, -, rfl⟩ := List.mem_map.1 ht
  split
  · rfl
  · rename_i hne
    rw [if_neg hne] at hid
    exact absurd hid hne

theorem onAuthenticationSuccess {db : Database} (h : Stored db.refreshTokens)
    (account : Option KakaoAccount) :
    Stored (onAuthenticationSuccess p now db account).1.refreshTokens := by
  match account with
  | none => exact h
  | some ⟨email, none⟩ => exact h
  | some ⟨email, some nickname⟩ =>
    unfold Sagaline.onAuthenticationSuccess
    dsimp only
    cases hu : findOrCreateUser db email nickname with
    | error e => exact h
    | ok r =>
      obtain ⟨db₁, user⟩ := r
      have h₁ : Stored db₁.refreshTokens := by
        rcases findOrCreateUser_ok hu with ⟨rfl, -⟩ | ⟨rfl, -⟩ <;> exact h
      dsimp only
      cases hc : Sagaline.createRefreshToken p now db₁ user with
      | error e => exact h₁
      | ok r => exact h₁.createRefreshToken hc

theorem handle {db : Database} (h : Stored db.refreshTokens) (request : Request) :
    Stored (handle p encoder now db request).1.refreshTokens := by
  cases request with
  | register request salt =>
    cases hr : register p encoder now salt db request with
    | error e => simpa only [Sagaline.handle, hr] using h
    | ok r =>
      obtain ⟨db', response⟩ := r
      obtain ⟨user, hgrant, -⟩ := register_grant hr
      generalize response.issued.refresh = refresh at hgrant
      cases hgrant with
      | register _ _ hc =>
        have h' : Stored (db.insertUser user).refreshTokens := h
        simpa only [Sagaline.handle, hr] using h'.createRefreshToken hc
  | login request =>
    cases hr : login p encoder now db request with
    | error e => simpa only [Sagaline.handle, hr] using h
    | ok r =>
      obtain ⟨db', response⟩ := r
      obtain ⟨user, hgrant, -⟩ := login_grant hr
      generalize response.issued.refresh = refresh at hgrant
      cases hgrant with
      | login _ _ hc => simpa only [Sagaline.handle, hr] using Stored.createRefreshToken h hc
  | refresh token =>
    cases hr : refreshAccessToken p now db token <;> simpa only [Sagaline.handle, hr] using h
  | oauth2 account =>
    have hdb : Stored (Sagaline.onAuthenticationSuccess p now db account).1.refreshTokens :=
      h.onAuthenticationSuccess account
    rcases hr : Sagaline.onAuthenticationSuccess p now db account with ⟨db', e | r⟩
    · rw [hr] at hdb
      simpa only [Sagaline.handle, hr] using hdb
    · rw [hr] at hdb
      simpa only [Sagaline.handle, hr] using hdb
  | revokeToken token => exact h.revoke (·.token = token)
  | revokeAllUserTokens userId => exact h.revoke (·.userId = userId)
  | cleanupExpiredTokens => exact h.sublist List.filter_sublist
  | setActive userId isActive => exact h
  | api authorization => exact h
  | wait ms => exact h

end Stored

theorem service_stored {p : JwtTokenProvider} {encoder : PasswordEncoder} {now : Nat}
    (requests : List Request) : Stored ((service p encoder now).run requests).1.db.refreshTokens :=
  (service p encoder now).run_inv (P := fun _ _ s => Stored s.db.refreshTokens)
    ⟨fun _ h => absurd h List.not_mem_nil, fun _ => Nat.zero_le _⟩
    (fun _ _ _ request h => h.handle request) requests

end Portfolio.Sagaline
