import Portfolio.Lib.Machine
import Portfolio.Sagaline.JwtTokenProvider

/-!
# Users and their refresh tokens

`UserService`, `RefreshTokenService` and `OAuth2LoginSuccessHandler` (`e-commerce`), with requests
handled one after another. A method that throws is rolled back; the handler is not one transaction,
so the user it creates stays. Rows of `refresh_tokens` are known by their token, which is unique.
The password encoder is a parameter, and `salt` what it draws.
-/

namespace Portfolio.Sagaline

structure User where
  id : Nat
  email : String
  passwordHash : String
  name : String
  phoneNumber : Option String := none
  isActive : Bool := true
  isEmailVerified : Bool := false
  roles : List UserRole := []
  deriving DecidableEq, Repr

structure RefreshToken where
  token : Token
  userId : Nat
  expiresAt : Nat
  revoked : Bool := false
  deriving DecidableEq, Repr

namespace RefreshToken

def isExpired (now : Nat) (t : RefreshToken) : Bool := t.expiresAt < now

def isValid (now : Nat) (t : RefreshToken) : Bool := !t.revoked && !t.isExpired now

end RefreshToken

structure Database where
  users : List User := []
  refreshTokens : List RefreshToken := []
  nextUserId : Nat := 1
  deriving DecidableEq, Repr

inductive AuthError where
  | illegalArgument (message : String)
  | illegalState (message : String)
  | runtime (message : String)
  | nullPointer
  /-- A value that a `NOT NULL` or `UNIQUE` column does not take. -/
  | dataIntegrityViolation
  deriving DecidableEq, Repr

structure PasswordEncoder where
  encode : String → String → String
  matchesHash : String → String → Bool

/-- An encoder that accepts what it has encoded. -/
def markingEncoder : PasswordEncoder where
  encode salt password := salt ++ password
  matchesHash password hash := hash = "$2a$" ++ password

structure RegisterRequest where
  email : String
  password : String
  name : String
  phoneNumber : Option String := none
  deriving DecidableEq, Repr

structure LoginRequest where
  email : String
  password : String
  deriving DecidableEq, Repr

structure UserDTO where
  id : Nat
  email : String
  name : String
  phoneNumber : Option String
  roles : List UserRole
  isActive : Bool
  deriving DecidableEq, Repr

structure AuthResponse where
  accessToken : Token
  refreshToken : Token
  tokenType : String
  expiresIn : Nat
  user : UserDTO
  deriving DecidableEq, Repr

/-- The `kakao_account` attribute; the fields are `null` if Kakao does not send them. -/
structure KakaoAccount where
  email : Option String
  profile : Option (Option String)
  deriving DecidableEq, Repr

def toDTO (user : User) : UserDTO :=
  ⟨user.id, user.email, user.name, user.phoneNumber, user.roles, user.isActive⟩

namespace Database

def findByEmail (db : Database) (email : String) : Option User := db.users.find? (·.email = email)

def findById (db : Database) (id : Nat) : Option User := db.users.find? (·.id = id)

def findByToken (db : Database) (token : Token) : Option RefreshToken :=
  db.refreshTokens.find? (·.token = token)

def revokeAllByUser (db : Database) (userId : Nat) : Database :=
  { db with refreshTokens := db.refreshTokens.map fun t =>
      if t.userId = userId then { t with revoked := true } else t }

def revokeToken (db : Database) (token : Token) : Database :=
  { db with refreshTokens := db.refreshTokens.map fun t =>
      if t.token = token then { t with revoked := true } else t }

def deleteExpiredTokens (db : Database) (now : Nat) : Database :=
  { db with refreshTokens := db.refreshTokens.filter (!·.isExpired now) }

def setActive (db : Database) (userId : Nat) (isActive : Bool) : Database :=
  { db with users := db.users.map fun u => if u.id = userId then { u with isActive } else u }

/-- `save` of a new user with the default role. -/
def insertUser (db : Database) (user : User) : Database :=
  { db with users := db.users ++ [user], nextUserId := db.nextUserId + 1 }

end Database

section Service
variable (p : JwtTokenProvider) (encoder : PasswordEncoder)

/-! ### `RefreshTokenService` -/

def newRefreshToken (now : Nat) (user : User) : RefreshToken :=
  { token := p.createRefreshToken now user.email user.id
    userId := user.id
    expiresAt := now + p.refreshValidityInMilliseconds / 1000 * 1000 }

def createRefreshToken (now : Nat) (db : Database) (user : User) :
    Except AuthError (Database × RefreshToken) :=
  let db := db.revokeAllByUser user.id
  let refreshToken := newRefreshToken p now user
  if (db.findByToken refreshToken.token).isSome then .error .dataIntegrityViolation
  else .ok ({ db with refreshTokens := db.refreshTokens ++ [refreshToken] }, refreshToken)

def validateRefreshToken (now : Nat) (token : Token) : Bool :=
  validateToken now token && isRefreshToken now token

/-- `verifyExpiration`. It deletes the row too, which the exception takes back. -/
def verifyExpiration (now : Nat) (t : RefreshToken) : Except AuthError RefreshToken :=
  if t.isExpired now then .error (.runtime "Refresh token has expired. Please login again.")
  else .ok t

/-! ### `UserService` -/

/-- The end of `register` and `login`. -/
def respond (now : Nat) (db : Database) (user : User) :
    Except AuthError (Database × AuthResponse) :=
  (createRefreshToken p now db user).map fun (db, refreshToken) =>
    (db, { accessToken := p.createToken now user.email user.id user.roles
           refreshToken := refreshToken.token
           tokenType := "Bearer"
           expiresIn := p.validityInMilliseconds / 1000
           user := toDTO user })

def register (now : Nat) (salt : String) (db : Database) (request : RegisterRequest) :
    Except AuthError (Database × AuthResponse) :=
  if (db.findByEmail request.email).isSome then .error (.illegalArgument "Email already registered")
  else
    let user : User :=
      { id := db.nextUserId, email := request.email
        passwordHash := encoder.encode salt request.password
        name := request.name, phoneNumber := request.phoneNumber, roles := [.user] }
    respond p now (db.insertUser user) user

def login (now : Nat) (db : Database) (request : LoginRequest) :
    Except AuthError (Database × AuthResponse) :=
  match db.findByEmail request.email with
  | none => .error (.illegalArgument "Invalid email or password")
  | some user =>
    if !encoder.matchesHash request.password user.passwordHash then
      .error (.illegalArgument "Invalid email or password")
    else if !user.isActive then .error (.illegalState "Account is deactivated")
    else respond p now db user

def refreshAccessToken (now : Nat) (db : Database) (token : Token) :
    Except AuthError AuthResponse :=
  if !validateRefreshToken now token then .error (.illegalArgument "Invalid refresh token")
  else match db.findByToken token with
    | none => .error (.illegalArgument "Refresh token not found")
    | some refreshToken => match verifyExpiration now refreshToken with
      | .error e => .error e
      | .ok refreshToken =>
        if !refreshToken.isValid now then .error (.illegalArgument "Refresh token has been revoked")
        else match db.findById refreshToken.userId with
          | none => .error .nullPointer
          | some user => .ok
            { accessToken := p.createToken now user.email user.id user.roles
              refreshToken := token
              tokenType := "Bearer"
              expiresIn := p.validityInMilliseconds / 1000
              user := toDTO user }

/-! ### `OAuth2LoginSuccessHandler` -/

/-- `findByEmail` or `createUser`. -/
def findOrCreateUser (db : Database) (email nickname : Option String) :
    Except AuthError (Database × User) :=
  match email.bind db.findByEmail, email, nickname with
  | some user, _, _ => .ok (db, user)
  | none, some email, some name =>
    let user : User := { id := db.nextUserId, email, passwordHash := "", name,
                         isEmailVerified := true, roles := [.user] }
    .ok (db.insertUser user, user)
  | none, _, _ => .error .dataIntegrityViolation

/-- `onAuthenticationSuccess`: the database afterwards, and the user with the two tokens of the
redirect. -/
def onAuthenticationSuccess (now : Nat) (db : Database) (account : Option KakaoAccount) :
    Database × Except AuthError (User × Token × Token) :=
  match account with
  | none => (db, .error .nullPointer)
  | some account => match account.profile with
    | none => (db, .error .nullPointer)
    | some nickname => match findOrCreateUser db account.email nickname with
      | .error e => (db, .error e)
      | .ok (db, user) => match createRefreshToken p now db user with
        | .error e => (db, .error e)
        | .ok (db', refreshToken) =>
          (db', .ok (user, p.createToken now user.email user.id user.roles,
          refreshToken.token))

/-! ### Requests -/

inductive Request where
  | register (request : RegisterRequest) (salt : String)
  | login (request : LoginRequest)
  | refresh (token : Token)
  | oauth2 (account : Option KakaoAccount)
  | revokeToken (token : Token)
  | revokeAllUserTokens (userId : Nat)
  | cleanupExpiredTokens
  | setActive (userId : Nat) (isActive : Bool)
  | api (authorization : Option Authorization)
  | wait (milliseconds : Nat)
  deriving DecidableEq, Repr

/-- The tokens that a request hands out. -/
structure Issued where
  userId : Nat
  access : Token
  refresh : Option Token := none
  deriving DecidableEq, Repr

def AuthResponse.issued (response : AuthResponse) : Issued :=
  ⟨response.user.id, response.accessToken, some response.refreshToken⟩

/-- The database after a request, and the tokens that the client gets. -/
def handle (now : Nat) (db : Database) : Request → Database × Option Issued
  | .register request salt => match register p encoder now salt db request with
    | .error _ => (db, none)
    | .ok (db, response) => (db, some response.issued)
  | .login request => match login p encoder now db request with
    | .error _ => (db, none)
    | .ok (db, response) => (db, some response.issued)
  | .refresh token => match refreshAccessToken p now db token with
    | .error _ => (db, none)
    | .ok response => (db, some { response.issued with refresh := none })
  | .oauth2 account => match onAuthenticationSuccess p now db account with
    | (db, .error _) => (db, none)
    | (db, .ok (user, access, refresh)) => (db, some ⟨user.id, access, some refresh⟩)
  | .revokeToken token => (db.revokeToken token, none)
  | .revokeAllUserTokens userId => (db.revokeAllByUser userId, none)
  | .cleanupExpiredTokens => (db.deleteExpiredTokens now, none)
  | .setActive userId isActive => (db.setActive userId isActive, none)
  | .api _ | .wait _ => (db, none)

/-- The service at a time, with the tokens handed out so far. -/
structure Server where
  now : Nat := 0
  db : Database := {}
  access : List Token := []
  refresh : List Token := []

/-- The time that passes before the next request. -/
def Request.elapsed : Request → Nat
  | .wait ms => ms
  | _ => 0

def serve (s : Server) (request : Request) : Server :=
  { now := s.now + request.elapsed
    db := (handle p encoder s.now s.db request).1
    access := s.access ++ (handle p encoder s.now s.db request).2.toList.map (·.access)
    refresh := s.refresh ++ (handle p encoder s.now s.db request).2.toList.filterMap (·.refresh) }

/-- Requests one after another, from the start of the service. -/
def service (now : Nat) : Machine Server Request Unit where
  init := { now }
  step s request := (serve p encoder s request, [])

/-! ### How tokens come about -/

variable {p encoder}

/-- Revoking does not touch the tokens themselves. -/
theorem findByToken_revokeAllByUser (db : Database) (userId : Nat) (token : Token) :
    ((db.revokeAllByUser userId).findByToken token).isSome = (db.findByToken token).isSome := by
  simp only [Database.findByToken, Database.revokeAllByUser, List.find?_map, Option.isSome_map]
  congr 2
  funext t
  simp only [Function.comp]
  split <;> rfl

theorem createRefreshToken_ok_iff {now : Nat} {db : Database} {user : User} :
    (∃ r, createRefreshToken p now db user = .ok r) ↔
      db.findByToken (p.createRefreshToken now user.email user.id) = none := by
  unfold createRefreshToken
  dsimp only
  rw [findByToken_revokeAllByUser, newRefreshToken]
  cases db.findByToken (p.createRefreshToken now user.email user.id) <;> simp

theorem createRefreshToken_ok {now : Nat} {db db' : Database} {user : User} {t : RefreshToken}
    (h : createRefreshToken p now db user = .ok (db', t)) :
    t = newRefreshToken p now user ∧
      db' = { db with refreshTokens := (db.revokeAllByUser user.id).refreshTokens ++ [t] } := by
  unfold createRefreshToken at h
  dsimp only at h
  split at h
  · cases h
  · cases h
    exact ⟨rfl, rfl⟩

theorem respond_ok {now : Nat} {db db' : Database} {user : User} {response : AuthResponse}
    (h : respond p now db user = .ok (db', response)) :
    ∃ t, createRefreshToken p now db user = .ok (db', t) ∧
      response.issued = ⟨user.id, p.createToken now user.email user.id user.roles,
        some t.token⟩ := by
  unfold respond at h
  cases hc : createRefreshToken p now db user with
  | error e =>
    rw [hc] at h
    cases h
  | ok r =>
    rw [hc] at h
    cases h
    exact ⟨r.2, rfl, rfl⟩

variable (p)

/-- The ways in which a request gets an access token for `user`: a new session of a user who has
just been created or who is in the database, or a stored refresh token. -/
inductive Grant (now : Nat) (db : Database) (user : User) : Request → Database → Option Token → Prop
  | register {request : RegisterRequest} {salt : String} {db' : Database} {t : RefreshToken}
      (hid : user.id = db.nextUserId) (hactive : user.isActive = true)
      (h : createRefreshToken p now (db.insertUser user) user = .ok (db', t)) :
      Grant now db user (.register request salt) db' (some t.token)
  | login {request : LoginRequest} {db' : Database} {t : RefreshToken}
      (hfind : db.findByEmail request.email = some user) (hactive : user.isActive = true)
      (h : createRefreshToken p now db user = .ok (db', t)) :
      Grant now db user (.login request) db' (some t.token)
  | oauth2 {email : String} {nickname : Option String} {db' : Database} {t : RefreshToken}
      (hfind : db.findByEmail email = some user)
      (h : createRefreshToken p now db user = .ok (db', t)) :
      Grant now db user (.oauth2 (some ⟨some email, some nickname⟩)) db' (some t.token)
  | oauth2New {account : Option KakaoAccount} {db' : Database} {t : RefreshToken}
      (hid : user.id = db.nextUserId) (hactive : user.isActive = true)
      (h : createRefreshToken p now (db.insertUser user) user = .ok (db', t)) :
      Grant now db user (.oauth2 account) db' (some t.token)
  | refresh {token : Token} {t : RefreshToken} (hvalidate : validateRefreshToken now token = true)
      (hfind : db.findByToken token = some t) (hvalid : t.isValid now = true)
      (huser : db.findById t.userId = some user) :
      Grant now db user (.refresh token) db none

variable {p}

theorem login_grant {now : Nat} {db db' : Database} {request : LoginRequest}
    {response : AuthResponse}
    (h : login p encoder now db request = .ok (db', response)) :
    ∃ user, Grant p now db user (.login request) db' response.issued.refresh ∧
      response.issued.userId = user.id ∧
      response.issued.access = p.createToken now user.email user.id user.roles := by
  unfold login at h
  cases hfind : db.findByEmail request.email with
  | none =>
    rw [hfind] at h
    cases h
  | some user =>
    rw [hfind] at h
    dsimp only at h
    split at h
    · cases h
    · split at h
      · cases h
      · rename_i hactive
        obtain ⟨t, hc, hissued⟩ := respond_ok h
        rw [hissued]
        exact ⟨user, .login hfind (by simpa using hactive) hc, rfl, rfl⟩

theorem register_grant {now : Nat} {salt : String} {db db' : Database} {request : RegisterRequest}
    {response : AuthResponse} (h : register p encoder now salt db request = .ok (db', response)) :
    ∃ user, Grant p now db user (.register request salt) db' response.issued.refresh ∧
      response.issued.userId = user.id ∧
      response.issued.access = p.createToken now user.email user.id user.roles := by
  unfold register at h
  split at h
  · cases h
  · obtain ⟨t, hc, hissued⟩ := respond_ok h
    rw [hissued]
    exact ⟨_, .register rfl rfl hc, rfl, rfl⟩

/-- When a stored refresh token gives an access token. -/
theorem refreshAccessToken_ok_iff {now : Nat} {db : Database} {token : Token}
    {response : AuthResponse} :
    refreshAccessToken p now db token = .ok response ↔
      ∃ t user, validateRefreshToken now token = true ∧ db.findByToken token = some t ∧
        t.isValid now = true ∧ db.findById t.userId = some user ∧
        response = { accessToken := p.createToken now user.email user.id user.roles
                     refreshToken := token
                     tokenType := "Bearer"
                     expiresIn := p.validityInMilliseconds / 1000
                     user := toDTO user } := by
  unfold refreshAccessToken
  cases hv : validateRefreshToken now token with
  | false => simp
  | true =>
    cases hf : db.findByToken token with
    | none => simp
    | some t =>
      unfold verifyExpiration
      cases hx : t.isExpired now with
      | true => simp [RefreshToken.isValid, hx]
      | false =>
        cases hvalid : t.isValid now with
        | false => simp [hx, hvalid]
        | true =>
          cases hu : db.findById t.userId with
          | none => simp [hx, hvalid, hu]
          | some user =>
            simp only [hx, hvalid, hu, Bool.not_true, Bool.false_eq_true, if_false, Except.ok.injEq,
              Option.some.injEq, true_and]
            constructor
            · rintro rfl
              exact ⟨t, user, rfl, hvalid, hu, rfl⟩
            · rintro ⟨t', user', rfl, -, hu', rfl⟩
              rw [hu] at hu'
              cases hu'
              rfl

theorem findOrCreateUser_ok {db db' : Database} {email nickname : Option String} {user : User}
    (h : findOrCreateUser db email nickname = .ok (db', user)) :
    (db' = db ∧ ∃ e, email = some e ∧ db.findByEmail e = some user) ∨
      (db' = db.insertUser user ∧ user.id = db.nextUserId ∧ user.isActive = true) := by
  unfold findOrCreateUser at h
  split at h
  · rename_i hfind
    cases h
    exact .inl ⟨rfl, Option.bind_eq_some_iff.1 hfind⟩
  · cases h
    exact .inr ⟨rfl, rfl, rfl⟩
  · cases h

theorem onAuthenticationSuccess_grant {now : Nat} {db db' : Database}
    {account : Option KakaoAccount}
    {user : User} {access refresh : Token}
    (h : onAuthenticationSuccess p now db account = (db', .ok (user, access, refresh))) :
    Grant p now db user (.oauth2 account) db' (some refresh) ∧
      access = p.createToken now user.email user.id user.roles := by
  match account, h with
  | none, h => cases h
  | some ⟨email, none⟩, h => cases h
  | some ⟨email, some nickname⟩, h =>
    unfold onAuthenticationSuccess at h
    dsimp only at h
    cases hu : findOrCreateUser db email nickname with
    | error e =>
      rw [hu] at h
      cases h
    | ok r =>
      obtain ⟨db₁, u⟩ := r
      rw [hu] at h
      dsimp only at h
      cases hc : createRefreshToken p now db₁ u with
      | error e =>
        rw [hc] at h
        cases h
      | ok r =>
        rw [hc] at h
        cases h
        rcases findOrCreateUser_ok hu with ⟨rfl, e, rfl, hfind⟩ | ⟨rfl, hid, hactive⟩
        · exact ⟨.oauth2 hfind hc, rfl⟩
        · exact ⟨.oauth2New hid hactive hc, rfl⟩

/-- Every access token comes from a `Grant`. -/
theorem handle_grant {now : Nat} {db : Database} {request : Request} {issued : Issued}
    (h : (handle p encoder now db request).2 = some issued) :
    ∃ user, Grant p now db user request (handle p encoder now db request).1 issued.refresh ∧
      issued.userId = user.id ∧
      issued.access = p.createToken now user.email user.id user.roles := by
  cases request with
  | register request salt =>
    unfold handle at h ⊢
    dsimp only at h ⊢
    cases hr : register p encoder now salt db request with
    | error e =>
      rw [hr] at h
      cases h
    | ok r =>
      rw [hr] at h
      cases h
      exact register_grant hr
  | login request =>
    unfold handle at h ⊢
    dsimp only at h ⊢
    cases hr : login p encoder now db request with
    | error e =>
      rw [hr] at h
      cases h
    | ok r =>
      rw [hr] at h
      cases h
      exact login_grant hr
  | refresh token =>
    unfold handle at h ⊢
    dsimp only at h ⊢
    cases hr : refreshAccessToken p now db token with
    | error e =>
      rw [hr] at h
      cases h
    | ok r =>
      rw [hr] at h
      cases h
      obtain ⟨t, user, hvalidate, hfind, hvalid, huser, rfl⟩ := refreshAccessToken_ok_iff.1 hr
      exact ⟨user, .refresh hvalidate hfind hvalid huser, rfl, rfl⟩
  | oauth2 account =>
    unfold handle at h ⊢
    dsimp only at h ⊢
    obtain ⟨db', hr⟩ | ⟨db', user, access, refresh, hr⟩ :
        (∃ db' e, onAuthenticationSuccess p now db account = (db', .error e)) ∨
        ∃ db' user access refresh,
          onAuthenticationSuccess p now db account = (db', .ok (user, access, refresh)) := by
      rcases onAuthenticationSuccess p now db account with ⟨db', e | ⟨user, access, refresh⟩⟩
      · exact .inl ⟨db', e, rfl⟩
      · exact .inr ⟨db', user, access, refresh, rfl⟩
    · obtain ⟨e, hr⟩ := hr
      rw [hr] at h
      cases h
    · rw [hr] at h
      cases h
      obtain ⟨hgrant, rfl⟩ := onAuthenticationSuccess_grant hr
      rw [hr]
      exact ⟨user, hgrant, rfl, rfl⟩
  | _ => cases h

end Service
end Portfolio.Sagaline
