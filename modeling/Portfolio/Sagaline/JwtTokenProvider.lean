import Mathlib.Tactic.Common

/-!
# Signed tokens

`JwtTokenProvider` and `JwtAuthenticationFilter` (`e-commerce`). A text that a client presents is
the compact form of claims signed with the secret key, or does not verify: `Token` keeps just that.
Clocks are in milliseconds, the times in a token in whole seconds.
-/

namespace Portfolio.Sagaline

inductive UserRole where
  | user
  | admin
  | seller
  deriving DecidableEq, Repr

/-- The payload. Refresh tokens have no `roles`, access tokens have no `tokenType`. -/
structure Claims where
  subject : String
  userId : Nat
  roles : Option (List UserRole) := none
  tokenType : Option String := none
  issuedAt : Nat
  expiration : Nat
  deriving DecidableEq, Repr

inductive Token where
  | signed (claims : Claims)
  | other (text : String)
  deriving DecidableEq, Repr

structure JwtTokenProvider where
  validityInMilliseconds : Nat := 900000
  refreshValidityInMilliseconds : Nat := 604800000

namespace JwtTokenProvider
variable (p : JwtTokenProvider)

def createToken (now : Nat) (email : String) (userId : Nat) (roles : List UserRole) : Token :=
  .signed { subject := email, userId, roles := some roles, issuedAt := now / 1000,
            expiration := (now + p.validityInMilliseconds) / 1000 }

def createRefreshToken (now : Nat) (email : String) (userId : Nat) : Token :=
  .signed { subject := email, userId, tokenType := some "refresh", issuedAt := now / 1000,
            expiration := (now + p.refreshValidityInMilliseconds) / 1000 }

end JwtTokenProvider

def Claims.isExpired (now : Nat) (claims : Claims) : Bool := claims.expiration * 1000 < now

/-- `parseSignedClaims`, which throws for a bad signature and for a token that has expired. -/
def parseSignedClaims (now : Nat) : Token → Option Claims
  | .signed claims => if claims.isExpired now then none else some claims
  | .other _ => none

def validateToken (now : Nat) (token : Token) : Bool := (parseSignedClaims now token).isSome

def getUserIdFromToken (now : Nat) (token : Token) : Option Nat :=
  (parseSignedClaims now token).map (·.userId)

def isRefreshToken (now : Nat) (token : Token) : Bool :=
  (parseSignedClaims now token).any (·.tokenType = some "refresh")

/-! ### The filter -/

/-- The value of the `Authorization` header: what `startsWith` looks at, and the rest. -/
structure Authorization where
  scheme : String
  credentials : Token
  deriving DecidableEq, Repr

def getTokenFromRequest : Option Authorization → Option Token
  | some header => if header.scheme = "Bearer " then some header.credentials else none
  | none => none

/-- `doFilterInternal`: the principal of the request, if it is authenticated. -/
def doFilterInternal (now : Nat) (authorization : Option Authorization) : Option Nat :=
  match getTokenFromRequest authorization with
  | some token => if validateToken now token then getUserIdFromToken now token else none
  | none => none

/-! ### What they accept -/

theorem parseSignedClaims_eq_some {now : Nat} {token : Token} {claims : Claims} :
    parseSignedClaims now token = some claims ↔
      token = .signed claims ∧ now ≤ claims.expiration * 1000 := by
  cases token with
  | other text => simp [parseSignedClaims]
  | signed c =>
    simp only [parseSignedClaims, Claims.isExpired, decide_eq_true_eq, Token.signed.injEq]
    constructor
    · intro h
      split at h
      · cases h
      · cases h
        exact ⟨rfl, by omega⟩
    · rintro ⟨rfl, h⟩
      rw [if_neg (by omega)]

theorem isRefreshToken_iff {now : Nat} {token : Token} :
    isRefreshToken now token = true ↔
      ∃ claims, parseSignedClaims now token = some claims ∧ claims.tokenType = some "refresh" := by
  simp [isRefreshToken, Option.any_eq_true_iff_get, Option.eq_some_iff_get_eq]

/-- A request is authenticated by any token that verifies and has not expired. -/
theorem doFilterInternal_eq_some {now : Nat} {authorization : Option Authorization} {userId : Nat} :
    doFilterInternal now authorization = some userId ↔
      ∃ claims, getTokenFromRequest authorization = some (.signed claims) ∧
        now ≤ claims.expiration * 1000 ∧ claims.userId = userId := by
  unfold doFilterInternal
  cases getTokenFromRequest authorization with
  | none => simp
  | some token =>
    simp only [Option.some.injEq]
    constructor
    · intro h
      obtain ⟨-, h⟩ := Option.ite_none_right_eq_some.1 h
      obtain ⟨claims, hparse, huser⟩ := Option.map_eq_some_iff.1 h
      obtain ⟨rfl, hexp⟩ := parseSignedClaims_eq_some.1 hparse
      exact ⟨claims, rfl, hexp, huser⟩
    · rintro ⟨claims, rfl, hexp, rfl⟩
      simp [validateToken, getUserIdFromToken, parseSignedClaims_eq_some.2 ⟨rfl, hexp⟩]

end Portfolio.Sagaline
