import Mathlib.Data.List.Nodup
import Portfolio.Sagaline.UserService

/-!
# Tokens for deactivated accounts

`login` turns a deactivated user away; `refreshAccessToken` and `onAuthenticationSuccess` do not
look at `isActive`. `issues_to_active_iff` shows that these two are the only ways around the check.
-/

namespace Portfolio.Sagaline

section Users

/-- Ids come from the identity column. -/
structure Database.UniqueIds (db : Database) : Prop where
  nodup : (db.users.map (·.id)).Nodup
  fresh : ∀ user ∈ db.users, user.id < db.nextUserId

namespace Database.UniqueIds
variable {db : Database}

theorem eq_of_id (h : db.UniqueIds) {user user' : User} (hu : user ∈ db.users)
    (hu' : user' ∈ db.users) (hid : user.id = user'.id) : user = user' :=
  List.inj_on_of_nodup_map h.nodup hu hu' hid

theorem insertUser (h : db.UniqueIds) {user : User} (hid : user.id = db.nextUserId) :
    (db.insertUser user).UniqueIds where
  nodup := by
    simp only [Database.insertUser, List.map_append, List.map_cons, List.map_nil]
    refine List.Nodup.append h.nodup (List.nodup_singleton _) ?_
    rw [List.disjoint_singleton]
    intro hmem
    obtain ⟨old, hold, hsame⟩ := List.mem_map.1 hmem
    have := h.fresh old hold
    omega
  fresh := by
    intro u hu
    simp only [Database.insertUser] at hu ⊢
    rcases List.mem_append.1 hu with hu | hu
    · have := h.fresh u hu
      omega
    · obtain rfl := List.mem_singleton.1 hu
      omega

/-- The new user is the only one with the new id. -/
theorem eq_insertUser (h : db.UniqueIds) {user user' : User} (hid : user.id = db.nextUserId)
    (hu' : user' ∈ (db.insertUser user).users) (hsame : user'.id = user.id) : user' = user :=
  (h.insertUser hid).eq_of_id hu' (List.mem_append_right _ (List.mem_singleton_self _)) hsame

theorem congr {db' : Database} (h : db.UniqueIds) (husers : db'.users = db.users)
    (hnext : db'.nextUserId = db.nextUserId) : db'.UniqueIds :=
  ⟨husers ▸ h.nodup, by rw [husers, hnext]; exact h.fresh⟩

theorem setActive (h : db.UniqueIds) (userId : Nat) (isActive : Bool) :
    (db.setActive userId isActive).UniqueIds := by
  have hids : (db.setActive userId isActive).users.map (·.id) = db.users.map (·.id) := by
    simp only [Database.setActive, List.map_map]
    refine List.map_congr_left fun u _ => ?_
    simp only [Function.comp]
    split <;> rfl
  refine ⟨hids ▸ h.nodup, fun u hu => ?_⟩
  have hmem : u.id ∈ db.users.map (·.id) := hids ▸ List.mem_map_of_mem hu
  obtain ⟨old, hold, hid⟩ := List.mem_map.1 hmem
  rw [← hid]
  exact h.fresh old hold

end Database.UniqueIds

variable {p : JwtTokenProvider} {encoder : PasswordEncoder} {now : Nat}

theorem createRefreshToken_users {db db' : Database} {user : User} {t : RefreshToken}
    (h : createRefreshToken p now db user = .ok (db', t)) :
    db'.users = db.users ∧ db'.nextUserId = db.nextUserId := by
  obtain ⟨-, rfl⟩ := createRefreshToken_ok h
  exact ⟨rfl, rfl⟩

theorem onAuthenticationSuccess_uniqueIds {db : Database} (h : db.UniqueIds)
    (account : Option KakaoAccount) : (onAuthenticationSuccess p now db account).1.UniqueIds := by
  match account with
  | none => exact h
  | some ⟨email, none⟩ => exact h
  | some ⟨email, some nickname⟩ =>
    unfold onAuthenticationSuccess
    dsimp only
    cases hu : findOrCreateUser db email nickname with
    | error e => exact h
    | ok r =>
      obtain ⟨db₁, user⟩ := r
      have h₁ : db₁.UniqueIds := by
        rcases findOrCreateUser_ok hu with ⟨rfl, -⟩ | ⟨rfl, hid, -⟩
        · exact h
        · exact h.insertUser hid
      dsimp only
      cases hc : createRefreshToken p now db₁ user with
      | error e => exact h₁
      | ok r => exact h₁.congr (createRefreshToken_users hc).1 (createRefreshToken_users hc).2

theorem register_uniqueIds {db db' : Database} (h : db.UniqueIds) {salt : String}
    {request : RegisterRequest} {response : AuthResponse}
    (hr : register p encoder now salt db request = .ok (db', response)) : db'.UniqueIds := by
  obtain ⟨user, hgrant, -⟩ := register_grant hr
  generalize response.issued.refresh = refresh at hgrant
  cases hgrant with
  | register hid _ hc =>
    exact (h.insertUser hid).congr (createRefreshToken_users hc).1 (createRefreshToken_users hc).2

theorem login_uniqueIds {db db' : Database} (h : db.UniqueIds) {request : LoginRequest}
    {response : AuthResponse} (hr : login p encoder now db request = .ok (db', response)) :
    db'.UniqueIds := by
  obtain ⟨user, hgrant, -⟩ := login_grant hr
  generalize response.issued.refresh = refresh at hgrant
  cases hgrant with
  | login _ _ hc => exact h.congr (createRefreshToken_users hc).1 (createRefreshToken_users hc).2

theorem handle_uniqueIds {db : Database} (h : db.UniqueIds) (request : Request) :
    (handle p encoder now db request).1.UniqueIds := by
  cases request with
  | register request salt =>
    cases hr : register p encoder now salt db request with
    | error e => simpa only [handle, hr] using h
    | ok r => simpa only [handle, hr] using register_uniqueIds h hr
  | login request =>
    cases hr : login p encoder now db request with
    | error e => simpa only [handle, hr] using h
    | ok r => simpa only [handle, hr] using login_uniqueIds h hr
  | refresh token =>
    cases hr : refreshAccessToken p now db token <;> simpa only [handle, hr] using h
  | oauth2 account =>
    have hdb : (onAuthenticationSuccess p now db account).1.UniqueIds :=
      onAuthenticationSuccess_uniqueIds h account
    rcases hr : onAuthenticationSuccess p now db account with ⟨db', e | r⟩
    · rw [hr] at hdb
      simpa only [handle, hr] using hdb
    · rw [hr] at hdb
      simpa only [handle, hr] using hdb
  | setActive userId isActive => exact h.setActive userId isActive
  | _ => exact h.congr rfl rfl

theorem service_uniqueIds (requests : List Request) :
    ((service p encoder now).run requests).1.db.UniqueIds :=
  (service p encoder now).run_inv (P := fun _ _ s => s.db.UniqueIds)
    ⟨List.nodup_nil, fun _ h => absurd h List.not_mem_nil⟩
    (fun _ _ _ request h => handle_uniqueIds h request) requests

end Users

section Deactivated
variable (p : JwtTokenProvider) (encoder : PasswordEncoder)

/-- The user who gets an access token is active. -/
def IssuesToActive (s : Server) (request : Request) : Prop :=
  ∀ issued, (handle p encoder s.now s.db request).2 = some issued →
    ∀ user ∈ (handle p encoder s.now s.db request).1.users, user.id = issued.userId →
      user.isActive = true

/-- A refresh token that is accepted belongs to an active user, and so does the account of an OAuth2
login unless the login fails because the user has a refresh token of this second. -/
def NoBypass (s : Server) : Request → Prop
  | .refresh token => ∀ t user, validateRefreshToken s.now token = true →
      s.db.findByToken token = some t → t.isValid s.now = true →
      s.db.findById t.userId = some user → user.isActive = true
  | .oauth2 (some ⟨some email, some _⟩) => ∀ user, s.db.findByEmail email = some user →
      s.db.findByToken (p.createRefreshToken s.now user.email user.id) = none → user.isActive = true
  | _ => True

variable {p encoder}

theorem handle_refresh (encoder : PasswordEncoder) {now : Nat} {db : Database} {token : Token}
    {t : RefreshToken} {user : User}
    (hvalidate : validateRefreshToken now token = true) (hfind : db.findByToken token = some t)
    (hvalid : t.isValid now = true) (huser : db.findById t.userId = some user) :
    handle p encoder now db (.refresh token) =
      (db, some ⟨user.id, p.createToken now user.email user.id user.roles, none⟩) := by
  simp only [handle, refreshAccessToken_ok_iff.2 ⟨t, user, hvalidate, hfind, hvalid, huser, rfl⟩]
  rfl

theorem handle_oauth2 (encoder : PasswordEncoder) {now : Nat} {db : Database} {email : String}
    (nickname : Option String) {user : User} (hfind : db.findByEmail email = some user)
    (hnew : db.findByToken (p.createRefreshToken now user.email user.id) = none) :
    (handle p encoder now db (.oauth2 (some ⟨some email, some nickname⟩))).1.users = db.users ∧
      ∃ refresh, (handle p encoder now db (.oauth2 (some ⟨some email, some nickname⟩))).2 =
        some ⟨user.id, p.createToken now user.email user.id user.roles, refresh⟩ := by
  obtain ⟨⟨db', t⟩, hc⟩ := createRefreshToken_ok_iff.2 hnew
  have husers := (createRefreshToken_users hc).1
  simp only [handle, onAuthenticationSuccess, findOrCreateUser, Option.bind_some, hfind, hc]
  exact ⟨husers, _, rfl⟩

theorem issuesToActive_iff {s : Server} (hids : s.db.UniqueIds) (request : Request) :
    IssuesToActive p encoder s request ↔ NoBypass p s request := by
  constructor
  · intro h
    cases request with
    | refresh token =>
      intro t user hvalidate hfind hvalid huser
      have hr := handle_refresh (p := p) encoder hvalidate hfind hvalid huser
      refine h _ (by rw [hr]) user ?_ rfl
      rw [hr]
      exact List.mem_of_find?_eq_some huser
    | oauth2 account =>
      match account with
      | none | some ⟨none, _⟩ | some ⟨some _, none⟩ => trivial
      | some ⟨some email, some nickname⟩ =>
        intro user hfind hnew
        obtain ⟨husers, refresh, hr⟩ :=
          handle_oauth2 encoder nickname hfind hnew
        refine h _ hr user ?_ rfl
        rw [husers]
        exact List.mem_of_find?_eq_some hfind
    | _ => trivial
  · intro h issued hissued user' hu' hid
    obtain ⟨user, hgrant, huserId, -⟩ := handle_grant hissued
    rw [huserId] at hid
    generalize (handle p encoder s.now s.db request).1 = db' at hgrant hu'
    generalize issued.refresh = refresh at hgrant
    -- the user of the grant is the one row with its id: the row is active if the user is
    cases hgrant with
    | register hnew hactive hc =>
      rw [(createRefreshToken_users hc).1] at hu'
      rw [hids.eq_insertUser hnew hu' hid]
      exact hactive
    | login hfind hactive hc =>
      rw [(createRefreshToken_users hc).1] at hu'
      rw [hids.eq_of_id hu' (List.mem_of_find?_eq_some hfind) hid]
      exact hactive
    | oauth2 hfind hc =>
      rw [(createRefreshToken_users hc).1] at hu'
      rw [hids.eq_of_id hu' (List.mem_of_find?_eq_some hfind) hid]
      exact h user hfind (createRefreshToken_ok_iff.1 ⟨_, hc⟩)
    | oauth2New hnew hactive hc =>
      rw [(createRefreshToken_users hc).1] at hu'
      rw [hids.eq_insertUser hnew hu' hid]
      exact hactive
    | refresh hvalidate hfind hvalid huser =>
      rw [hids.eq_of_id hu' (List.mem_of_find?_eq_some huser) hid]
      exact h _ user hvalidate hfind hvalid huser

/-- All through a run every access token is for a user who is active at that moment, if and only if
no refresh token of a deactivated user is accepted and no OAuth2 login reaches such a user. -/
theorem issues_to_active_iff (now : Nat) (requests : List Request) :
    (service p encoder now).Along (IssuesToActive p encoder) requests ↔
      (service p encoder now).Along (NoBypass p) requests := by
  constructor
  · intro h pre request post hs
    exact (issuesToActive_iff (service_uniqueIds pre) request).1 (h pre request post hs)
  · intro h pre request post hs
    exact (issuesToActive_iff (service_uniqueIds pre) request).2 (h pre request post hs)

end Deactivated

/-- A user registers, is deactivated and refreshes. -/
theorem deactivated_user_refreshes :
    ¬ ∀ (p : JwtTokenProvider) (encoder : PasswordEncoder) (now : Nat) (requests : List Request),
      (service p encoder now).Along (IssuesToActive p encoder) requests := by
  intro h
  let refresh := JwtTokenProvider.createRefreshToken {} 0 "kim@shop.kr" 1
  have := h {} markingEncoder 0
    [.register { email := "kim@shop.kr", password := "password1", name := "Kim" } "$2a$",
      .setActive 1 false, .refresh refresh] [_, _] _ [] rfl
  revert this
  unfold IssuesToActive
  decide +kernel

end Portfolio.Sagaline
