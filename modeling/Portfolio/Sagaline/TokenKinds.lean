import Portfolio.Sagaline.UserService

/-!
# Refresh tokens as bearer tokens

The two kinds of tokens are signed with one key, and the filter takes whatever `validateToken`
takes: it does not ask for the kind as `validateRefreshToken` does. So a refresh token opens the API
until it expires, revoked or not. `access_only_iff` shows that nothing else goes wrong: without such
requests only unexpired access tokens authenticate, and a revocation ends with the last of them.
-/

namespace Portfolio.Sagaline
open Machine

/-- No one but the service can sign: a signed token that is presented has been handed out. -/
def Unforged (s : Server) : Request → Prop
  | .api authorization => ∀ claims, getTokenFromRequest authorization = some (.signed claims) →
      .signed claims ∈ s.access ∨ .signed claims ∈ s.refresh
  | .refresh token => ∀ claims, token = .signed claims →
      .signed claims ∈ s.access ∨ .signed claims ∈ s.refresh
  | _ => True

/-- A request is authenticated only with an access token that has not expired. -/
def AccessOnly (s : Server) : Request → Prop
  | .api authorization => ∀ userId, doFilterInternal s.now authorization = some userId →
      ∃ claims, getTokenFromRequest authorization = some (.signed claims) ∧
        .signed claims ∈ s.access ∧ .signed claims ∉ s.refresh ∧ claims.isExpired s.now = false
  | _ => True

/-- The bearer token is not a refresh token that would still pass `validateRefreshToken`. -/
def NoRefreshBearer (s : Server) : Request → Prop
  | .api authorization => ∀ token, getTokenFromRequest authorization = some token →
      isRefreshToken s.now token = false
  | _ => True

def Revoked (s : Server) (userId : Nat) : Prop :=
  ∀ t ∈ s.db.refreshTokens, t.userId = userId → t.revoked = true

section Runs
variable (p : JwtTokenProvider) (encoder : PasswordEncoder) (now : Nat)

/-- While the refresh tokens of a user stay revoked, no request is authenticated as the user once
the access tokens handed out before the revocation have expired. -/
def RevocationEffective (requests : List Request) : Prop :=
  ∀ userId pre post authorization rest, requests = pre ++ post ++ .api authorization :: rest →
    (∀ mid, mid <+: post → Revoked ((service p encoder now).run (pre ++ mid)).1 userId) →
    (∀ claims, .signed claims ∈ ((service p encoder now).run pre).1.access →
      claims.userId = userId →
      claims.isExpired ((service p encoder now).run (pre ++ post)).1.now = true) →
    doFilterInternal ((service p encoder now).run (pre ++ post)).1.now authorization ≠ some userId

variable {p encoder now}

/-! ### Grants -/

/-- A grant goes with a refresh token of its user that is not revoked. -/
theorem Grant.unrevoked {db db' : Database} {user : User} {request : Request}
    {refresh : Option Token}
    (h : Grant p now db user request db' refresh) :
    (∃ t ∈ db.refreshTokens, t.userId = user.id ∧ t.revoked = false) ∨
      ∃ t ∈ db'.refreshTokens, t.userId = user.id ∧ t.revoked = false := by
  have hsession : ∀ {db₁ t}, createRefreshToken p now db₁ user = .ok (db', t) →
      ∃ t ∈ db'.refreshTokens, t.userId = user.id ∧ t.revoked = false := by
    intro db₁ t hc
    obtain ⟨rfl, rfl⟩ := createRefreshToken_ok hc
    exact ⟨_, List.mem_append_right _ (List.mem_singleton_self _), rfl, rfl⟩
  cases h with
  | register _ _ hc => exact .inr (hsession hc)
  | login _ _ hc => exact .inr (hsession hc)
  | oauth2 _ hc => exact .inr (hsession hc)
  | oauth2New _ _ hc => exact .inr (hsession hc)
  | @refresh _ t _ hfind hvalid huser =>
    refine .inl ⟨t, List.mem_of_find?_eq_some hfind, ?_, ?_⟩
    · have := List.find?_some huser
      simpa [eq_comm] using this
    · simp only [RefreshToken.isValid, Bool.and_eq_true, Bool.not_eq_true'] at hvalid
      exact hvalid.1

theorem Grant.refresh_kind {db db' : Database} {user : User} {request : Request} {refresh : Token}
    (h : Grant p now db user request db' (some refresh)) :
    ∃ claims, refresh = .signed claims ∧ claims.tokenType = some "refresh" := by
  have hsession : ∀ {db₁ t}, createRefreshToken p now db₁ user = .ok (db', t) →
      ∃ claims, t.token = .signed claims ∧ claims.tokenType = some "refresh" := by
    intro db₁ t hc
    obtain ⟨rfl, -⟩ := createRefreshToken_ok hc
    exact ⟨_, rfl, rfl⟩
  cases h with
  | register _ _ hc => exact hsession hc
  | login _ _ hc => exact hsession hc
  | oauth2 _ hc => exact hsession hc
  | oauth2New _ _ hc => exact hsession hc

/-! ### Steps -/

/-- The kind of a token is in its claims. -/
structure Kinds (s : Server) : Prop where
  access : ∀ claims, .signed claims ∈ s.access → claims.tokenType = none
  refresh : ∀ claims, .signed claims ∈ s.refresh → claims.tokenType = some "refresh"

theorem Kinds.serve {s : Server} (h : Kinds s) (request : Request) :
    Kinds (serve p encoder s request) := by
  cases hi : (handle p encoder s.now s.db request).2 with
  | none => exact ⟨by simpa [Sagaline.serve, hi] using h.access, by
      simpa [Sagaline.serve, hi] using h.refresh⟩
  | some issued =>
    obtain ⟨user, hgrant, -, haccess⟩ := handle_grant hi
    constructor
    · intro claims hmem
      simp only [Sagaline.serve, hi, Option.toList_some, List.map_cons, List.map_nil,
        List.mem_append, List.mem_singleton] at hmem
      rcases hmem with hmem | hnew
      · exact h.access claims hmem
      · rw [haccess] at hnew
        cases hnew
        rfl
    · intro claims hmem
      simp only [Sagaline.serve, hi, Option.toList_some, List.mem_append, List.mem_filterMap,
        List.mem_singleton] at hmem
      rcases hmem with hmem | ⟨i, rfl, hnew⟩
      · exact h.refresh claims hmem
      · rw [hnew] at hgrant
        obtain ⟨c, hc, hkind⟩ := hgrant.refresh_kind
        cases hc
        exact hkind

theorem service_kinds (requests : List Request) :
    Kinds ((service p encoder now).run requests).1 :=
  (service p encoder now).run_inv (P := fun _ _ s => Kinds s)
    ⟨fun _ h => absurd h List.not_mem_nil, fun _ h => absurd h List.not_mem_nil⟩
    (fun _ _ _ request h => h.serve request) requests

/-- While the refresh tokens of a user are revoked, the user gets no access token. -/
theorem access_of_revoked {s : Server} {request : Request} {userId : Nat} (h : Revoked s userId)
    (h' : Revoked (serve p encoder s request) userId) {claims : Claims}
    (hmem : .signed claims ∈ (serve p encoder s request).access) (huser : claims.userId = userId) :
    .signed claims ∈ s.access := by
  cases hi : (handle p encoder s.now s.db request).2 with
  | none => simpa [serve, hi] using hmem
  | some issued =>
    obtain ⟨user, hgrant, -, haccess⟩ := handle_grant hi
    simp only [serve, hi, Option.toList_some, List.map_cons, List.map_nil, List.mem_append,
      List.mem_singleton] at hmem
    rcases hmem with hmem | hnew
    · exact hmem
    · rw [haccess] at hnew
      cases hnew
      exfalso
      rcases hgrant.unrevoked with ⟨t, ht, hid, hrevoked⟩ | ⟨t, ht, hid, hrevoked⟩
      · simp [h t ht (hid.trans huser)] at hrevoked
      · simp [h' t ht (hid.trans huser)] at hrevoked

theorem access_of_stays_revoked {pre post : List Request} {userId : Nat}
    (h : ∀ mid, mid <+: post → Revoked ((service p encoder now).run (pre ++ mid)).1 userId)
    {claims : Claims} (hmem : .signed claims ∈ ((service p encoder now).run (pre ++ post)).1.access)
    (huser : claims.userId = userId) :
      .signed claims ∈ ((service p encoder now).run pre).1.access := by
  induction post using List.reverseRecOn with
  | nil => simpa using hmem
  | append_singleton post request ih =>
    have hlast := h (post ++ [request]) (List.prefix_refl _)
    rw [← List.append_assoc, run_concat] at hmem hlast
    refine ih (fun mid hm => h mid (hm.trans (List.prefix_append ..))) ?_
    exact access_of_revoked (h post (List.prefix_append ..)) hlast hmem huser

/-- One request of a run: it is authenticated by access tokens only unless it brings a refresh token
that has not expired. -/
theorem accessOnly_iff {s : Server} {request : Request} (hkinds : Kinds s)
    (h : Unforged s request) :
    AccessOnly s request ↔ NoRefreshBearer s request := by
  cases request with
  | api authorization =>
    simp only [AccessOnly, NoRefreshBearer]
    constructor
    · intro haccess token htoken
      by_contra hrefresh
      rw [Bool.not_eq_false, isRefreshToken_iff] at hrefresh
      obtain ⟨claims, hparse, hkind⟩ := hrefresh
      obtain ⟨rfl, hexp⟩ := parseSignedClaims_eq_some.1 hparse
      obtain ⟨c, hc, hmem, -, -⟩ :=
        haccess _ (doFilterInternal_eq_some.2 ⟨claims, htoken, hexp, rfl⟩)
      rw [htoken] at hc
      cases hc
      simp [hkinds.access claims hmem] at hkind
    · intro hno userId hauth
      obtain ⟨claims, htoken, hexp, -⟩ := doFilterInternal_eq_some.1 hauth
      have hnot : Token.signed claims ∉ s.refresh := fun hmem => by
        have : isRefreshToken s.now (.signed claims) = true :=
          isRefreshToken_iff.2
            ⟨claims, parseSignedClaims_eq_some.2 ⟨rfl, hexp⟩, hkinds.refresh claims hmem⟩
        simp [hno _ htoken] at this
      exact ⟨claims, htoken, (h claims htoken).resolve_right hnot, hnot, by
        simpa [Claims.isExpired] using hexp⟩
  | _ => exact Iff.rfl

theorem revocationEffective_of_accessOnly {requests : List Request}
    (h : (service p encoder now).Along AccessOnly requests) :
    RevocationEffective p encoder now requests := by
  rintro userId pre post authorization rest rfl hstays hexpired hauth
  obtain ⟨claims, htoken, hmem, -, hlive⟩ := h _ _ _ rfl userId hauth
  obtain ⟨c, hc, -, huser⟩ := doFilterInternal_eq_some.1 hauth
  rw [htoken] at hc
  cases hc
  have := hexpired claims (access_of_stays_revoked hstays hmem huser) huser
  simp [this] at hlive

/-- If no one can forge a token: all through a run access tokens are the only credentials and
revocation is effective if and only if no request brings an unexpired refresh token. -/
theorem access_only_iff (requests : List Request)
    (hsigned : (service p encoder now).Along Unforged requests) :
    (service p encoder now).Along AccessOnly requests ∧ RevocationEffective p encoder now requests ↔
      (service p encoder now).Along NoRefreshBearer requests := by
  have hiff : (service p encoder now).Along AccessOnly requests ↔
      (service p encoder now).Along NoRefreshBearer requests := by
    constructor
    · intro h pre request post hs
      exact (accessOnly_iff (service_kinds pre) (hsigned pre request post hs)).1
        (h pre request post hs)
    · intro h pre request post hs
      exact (accessOnly_iff (service_kinds pre) (hsigned pre request post hs)).2
        (h pre request post hs)
  rw [← hiff]
  exact ⟨And.left, fun h => ⟨h, revocationEffective_of_accessOnly h⟩⟩

end Runs

/-! ### A user's session -/

/-- The access and the refresh token of user 1 after a registration at time 0. -/
def accessOne : Token := JwtTokenProvider.createToken {} 0 "kim@shop.kr" 1 [.user]

def refreshOne : Token := JwtTokenProvider.createRefreshToken {} 0 "kim@shop.kr" 1

/-- A registration, a revocation and a request to the API. -/
def session (bearer : Token) : List Request :=
  [.register { email := "kim@shop.kr", password := "password1", name := "Kim" } "$2a$",
   .revokeAllUserTokens 1, .api (some ⟨"Bearer ", bearer⟩)]

theorem session_state :
    ((service {} markingEncoder 0).run ((session accessOne).take 2)).1.access = [accessOne] ∧
      ((service {} markingEncoder 0).run ((session accessOne).take 2)).1.refresh =
        [refreshOne] := by
  decide +kernel

theorem session_unforged {bearer : Token} (h : bearer = accessOne ∨ bearer = refreshOne) :
    (service {} markingEncoder 0).Along Unforged (session bearer) := by
  show (service {} markingEncoder 0).Along Unforged ((session accessOne).take 2 ++ [_])
  rw [along_concat, show (session accessOne).take 2 = [] ++ [_] ++ [_] from rfl, along_concat,
    along_concat]
  refine ⟨⟨⟨Machine.along_nil _ _, trivial⟩, trivial⟩, ?_⟩
  intro claims htoken
  obtain ⟨haccess, hrefresh⟩ := session_state
  change .signed claims ∈
    ((service {} markingEncoder 0).run ((session accessOne).take 2)).1.access ∨
    .signed claims ∈ ((service {} markingEncoder 0).run ((session accessOne).take 2)).1.refresh
  rw [haccess, hrefresh, List.mem_singleton, List.mem_singleton]
  obtain rfl : bearer = .signed claims := by simpa [getTokenFromRequest] using htoken
  exact h

/-- The refresh token of a user whose refresh tokens are all revoked opens the API. -/
theorem refresh_token_opens_api :
    ¬ ∀ (p : JwtTokenProvider) (encoder : PasswordEncoder) (now : Nat) (requests : List Request),
      (service p encoder now).Along Unforged requests →
        (service p encoder now).Along AccessOnly requests ∧
          RevocationEffective p encoder now requests := by
  intro h
  obtain ⟨haccess, -⟩ := h {} markingEncoder 0 (session refreshOne) (session_unforged (.inr rfl))
  obtain ⟨claims, htoken, -, hnot, -⟩ :=
    haccess ((session refreshOne).take 2) _ [] rfl 1 (by decide)
  have hclaims : refreshOne = .signed claims := by simpa [getTokenFromRequest] using htoken
  rw [← hclaims] at hnot
  exact hnot (session_state.2 ▸ List.mem_singleton_self _)

theorem access_only_session :
    (service {} markingEncoder 0).Along Unforged (session accessOne) ∧
      ((service {} markingEncoder 0).Along AccessOnly (session accessOne) ∧
          RevocationEffective {} markingEncoder 0 (session accessOne) ↔
        (service {} markingEncoder 0).Along NoRefreshBearer (session accessOne)) :=
  ⟨session_unforged (.inl rfl), access_only_iff _ (session_unforged (.inl rfl))⟩

end Portfolio.Sagaline
