import Portfolio.Lib.Transactional
import Portfolio.Sagaline.UserService

/-!
# Refresh tokens that have expired

`UserService.refreshAccessToken` and the methods of `RefreshTokenService` that it calls
(`e-commerce`), with the transactions they run in. `verifyExpiration` deletes an expired row and
throws within the transaction of its caller, so the row is still there afterwards
(`expired_token_stays`).
-/

namespace Portfolio.Sagaline
open Transaction

/-- `refreshTokenRepository.delete` -/
def Database.deleteToken (db : Database) (token : Token) : Database :=
  { db with refreshTokens := db.refreshTokens.filter (·.token ≠ token) }

section Service
variable (unexpected : AuthError) (p : JwtTokenProvider) (now : Nat)

namespace RefreshTokenService

def findByToken (token : Token) : Transaction Database AuthError (Option RefreshToken) :=
  transactional unexpected (read (·.findByToken token))

def verifyExpiration (token : RefreshToken) : Transaction Database AuthError RefreshToken :=
  transactional unexpected do
    if token.isExpired now then
      write (·.deleteToken token.token)
      throw (.runtime "Refresh token has expired. Please login again.")
    else return token

end RefreshTokenService

def UserService.refreshAccessToken (refreshTokenString : Token) :
    Transaction Database AuthError AuthResponse :=
  transactional unexpected do
    if !validateRefreshToken now refreshTokenString then
      throw (.illegalArgument "Invalid refresh token")
    else
      match ← RefreshTokenService.findByToken unexpected refreshTokenString with
      | none => throw (.illegalArgument "Refresh token not found")
      | some refreshToken =>
        let refreshToken ← RefreshTokenService.verifyExpiration unexpected now refreshToken
        if !refreshToken.isValid now then
          throw (.illegalArgument "Refresh token has been revoked")
        else
          match ← read (·.findById refreshToken.userId) with
          | none => throw .nullPointer
          | some user => return {
              accessToken := p.createToken now user.email user.id user.roles
              refreshToken := refreshTokenString
              tokenType := "Bearer"
              expiresIn := p.validityInMilliseconds / 1000
              user := toDTO user }

/-! ### What the methods do -/

variable {unexpected p now} {db : Database} {c : Connection Database}

theorem findByToken_joined (unexpected : AuthError) {s : Database} (hbegun : c.begun = some s) (token : Token) :
    RefreshTokenService.findByToken unexpected token c = (.ok (c.store.findByToken token), c) :=
  transactional_joined_ok hbegun rfl

theorem verifyExpiration_joined_ok (unexpected : AuthError) {s : Database} {t : RefreshToken} (hbegun : c.begun = some s)
    (h : t.isExpired now = false) :
    RefreshTokenService.verifyExpiration unexpected now t c = (.ok t, c) := by
  refine transactional_joined_ok hbegun ?_
  rw [h]
  rfl

/-- The row is deleted, in a transaction that is doomed. -/
theorem verifyExpiration_joined_error {s : Database} {t : RefreshToken} (hbegun : c.begun = some s)
    (h : t.isExpired now = true) :
    RefreshTokenService.verifyExpiration unexpected now t c =
      (.error (.runtime "Refresh token has expired. Please login again."),
        { c with store := c.store.deleteToken t.token, rollbackOnly := true }) := by
  refine transactional_joined_error hbegun (d := { c with store := c.store.deleteToken t.token }) ?_
  rw [h]
  rfl

/-- The method never changes the database, and answers as if it had not tried. -/
theorem refreshAccessToken_eq (token : Token) :
    UserService.refreshAccessToken unexpected p now token { store := db } =
      (refreshAccessToken p now db token, { store := db }) := by
  rw [UserService.refreshAccessToken, refreshAccessToken]
  cases hvalidate : validateRefreshToken now token with
  | false => exact transactional_error (d := { store := db, begun := some db }) rfl
  | true =>
    simp only [Bool.not_true, Bool.false_eq_true, if_false]
    have hfound := findByToken_joined unexpected
      (c := { store := db, begun := some db }) rfl token
    cases hfind : db.findByToken token with
    | none =>
      refine transactional_error (d := { store := db, begun := some db }) ?_
      rw [bind_ok hfound, hfind]
      rfl
    | some t =>
      dsimp only
      rw [verifyExpiration]
      cases hexpired : t.isExpired now with
      | true =>
        refine transactional_error (d := {
          store := db.deleteToken t.token, begun := some db, rollbackOnly := true }) ?_
        rw [bind_ok hfound, hfind]
        exact bind_error (verifyExpiration_joined_error rfl hexpired)
      | false =>
        have hverify := verifyExpiration_joined_ok unexpected
          (c := { store := db, begun := some db }) rfl hexpired
        simp only [Bool.false_eq_true, if_false]
        cases hvalid : t.isValid now with
        | false =>
          refine transactional_error (d := { store := db, begun := some db }) ?_
          rw [bind_ok hfound, hfind]
          dsimp only
          rw [bind_ok hverify, hvalid]
          rfl
        | true =>
          simp only [Bool.not_true, Bool.false_eq_true, if_false]
          cases huser : db.findById t.userId with
          | none =>
            refine transactional_error (d := { store := db, begun := some db }) ?_
            rw [bind_ok hfound, hfind]
            dsimp only
            rw [bind_ok hverify, hvalid]
            simp only [Bool.not_true, Bool.false_eq_true, if_false]
            rw [bind_ok read_apply, huser]
            rfl
          | some user =>
            refine transactional_ok (d := { store := db, begun := some db }) ?_ rfl
            rw [bind_ok hfound, hfind]
            dsimp only
            rw [bind_ok hverify, hvalid]
            simp only [Bool.not_true, Bool.false_eq_true, if_false]
            rw [bind_ok read_apply, huser]
            rfl

/-! ### The row of an expired token -/

/-- The row of the token is gone, and everything else is as before. -/
structure RowRemoved (db db' : Database) (token : Token) : Prop where
  gone : db'.findByToken token = none
  users : db'.users = db.users
  nextUserId : db'.nextUserId = db.nextUserId
  others : db'.refreshTokens.filter (·.token ≠ token) = db.refreshTokens.filter (·.token ≠ token)

/-- An expired token is rejected, and its row stays. -/
theorem expired_token_stays (unexpected : AuthError) (p : JwtTokenProvider) (now : Nat)
    (db : Database) (claims : Claims) (t : RefreshToken)
    (hfind : db.findByToken (.signed claims) = some t) (hexpired : t.isExpired now = true) :
    ∃ error db', UserService.refreshAccessToken unexpected p now (.signed claims) { store := db } =
        (.error error, { store := db' }) ∧ db' = db ∧ ¬ RowRemoved db db' (.signed claims) := by
  have hrejected : ∃ error, refreshAccessToken p now db (.signed claims) = .error error := by
    cases hanswer : refreshAccessToken p now db (.signed claims) with
    | error error => exact ⟨error, rfl⟩
    | ok response =>
      obtain ⟨t', -, -, hfind', hvalid, -⟩ := refreshAccessToken_ok_iff.1 hanswer
      obtain rfl := Option.some.inj (hfind.symm.trans hfind')
      rw [RefreshToken.isValid, hexpired, Bool.not_true, Bool.and_false] at hvalid
      cases hvalid
  obtain ⟨error, herror⟩ := hrejected
  refine ⟨error, db, by rw [refreshAccessToken_eq, herror], rfl, fun hremoved => ?_⟩
  have hgone := hremoved.gone
  rw [hfind] at hgone
  cases hgone

end Service

/-- A session that was opened at time 0. -/
def sessionClaims : Claims where
  subject := "kim@sagaline.com"
  userId := 1
  tokenType := some "refresh"
  issuedAt := 0
  expiration := 604800

/-- The row of the session, which expires at the given time. -/
def sessionRow (expiresAt : Nat) : Database where
  refreshTokens := [{ token := .signed sessionClaims, userId := 1, expiresAt }]

/-- A week later. -/
theorem expired_token_stays_session :
    ∃ error db', UserService.refreshAccessToken .nullPointer {} 604800001 (.signed sessionClaims)
        { store := sessionRow 604800000 } = (.error error, { store := db' }) ∧
      db' = sessionRow 604800000 ∧
      ¬ RowRemoved (sessionRow 604800000) db' (.signed sessionClaims) :=
  expired_token_stays .nullPointer {} 604800001 (sessionRow 604800000) sessionClaims
    ⟨.signed sessionClaims, 1, 604800000, false⟩ (by decide) (by decide)

/-- A row that expires before its token: it is deleted, and the exception takes that back. -/
theorem deleted_row_restored :
    ¬ ∀ (unexpected : AuthError) (p : JwtTokenProvider) (now : Nat) (db : Database) (claims : Claims)
        (t : RefreshToken), db.findByToken (.signed claims) = some t → t.isExpired now = true →
      ∃ error db', UserService.refreshAccessToken unexpected p now (.signed claims) { store := db } =
        (.error error, { store := db' }) ∧ RowRemoved db db' (.signed claims) := by
  intro h
  obtain ⟨error, db', hanswer, hremoved⟩ := h .nullPointer {} 2000 (sessionRow 1000) sessionClaims
    ⟨.signed sessionClaims, 1, 1000, false⟩ (by decide) (by decide)
  rw [refreshAccessToken_eq] at hanswer
  obtain rfl := congrArg Connection.store (congrArg Prod.snd hanswer)
  have hgone := hremoved.gone
  revert hgone
  decide

end Portfolio.Sagaline
