import Portfolio.Framework.HttpParser
import Portfolio.Lib.Machine
import Portfolio.Lib.PyDict
import Portfolio.Lib.SerialId

/-!
# The application of milestone 1.4

`create_app` of `milestone-1.4`: the routes, the middleware pipeline of `App._build_pipeline`, and the
handlers on `InMemoryDatabase`. A request uses the database at most once, under its lock, so that
requests that are handled at the same time are steps one after the other. Whether `pool.acquire` gives a
connection is an input of the step, and `json.loads` is a parameter.

Log lines are left out. An answer is what the handler passes to `Response`, before `json.dumps`.
-/

namespace Portfolio.Framework.UserApplication
open Std Py

structure User where
  id : String
  name : String
  email : String
  deriving DecidableEq, Repr

/-! ### `InMemoryDatabase` -/

structure InMemoryDatabase where
  users : Dict String User := .empty
  sequence : Nat := 1

namespace InMemoryDatabase

def listUsers (db : InMemoryDatabase) : List User := db.users.items.map (·.2)

def getUser (db : InMemoryDatabase) (userId : String) : Option User := db.users.get? userId

def createUser (db : InMemoryDatabase) (name email : String) : User × InMemoryDatabase :=
  let identifier := toString db.sequence
  let user : User := ⟨identifier, name, email⟩
  (user, { users := db.users.set identifier user, sequence := db.sequence + 1 })

end InMemoryDatabase

/-! ### Answers and middleware -/

inductive Body where
  | error (message : String)
  | up
  | users (users : List User) (count : Nat)
  | user (user : User)
  deriving DecidableEq, Repr

structure Answer where
  status : Nat
  body : Body
  deriving DecidableEq, Repr

/-- What handles a request; an error is any exception. -/
abbrev Action := RawHttpRequest → InMemoryDatabase → Except Unit Answer × InMemoryDatabase

abbrev Middleware := RawHttpRequest → Action → InMemoryDatabase → Except Unit Answer × InMemoryDatabase

/-- Only log lines. -/
def loggingMiddleware : Middleware := fun request next db => next request db

/-- What `header.split(" ", 1)[1]` is for a header with a blank. -/
def tokenOf (header : String) : String := String.ofList ((header.toList.dropWhile (· ≠ ' ')).drop 1)

def authRequired : Middleware := fun request next db =>
  let header := (request.headers["authorization"]?).getD ""
  if ¬ "Bearer ".toList <+: header.toList then (.ok ⟨401, .error "unauthorised"⟩, db)
  else if tokenOf header ≠ "secrettoken" then (.ok ⟨403, .error "forbidden"⟩, db)
  else next request db

/-- The loop of `_build_pipeline`, over the reversed middleware. -/
def buildPipeline (middleware : List Middleware) (callHandler : Action) : Action :=
  middleware.reverse.foldl (fun next mw => fun request db => mw request next db) callHandler

/-! ### Controllers -/

/-- What `request.json({}) or {}` is: a dictionary, of which `str(payload[key])` is read, or something
without `get`. -/
inductive Payload where
  | dict (field : String → Option String)
  | other

section
variable (loads : String → Payload) (acquired : Bool)

/-- `with pool.acquire() as connection` -/
def withConnection (use : InMemoryDatabase → Except Unit Answer × InMemoryDatabase) (db : InMemoryDatabase) :
    Except Unit Answer × InMemoryDatabase :=
  if acquired then use db else (.error (), db)

def health : Action := fun _ db => (.ok ⟨200, .up⟩, db)

def listUsers : Action := fun _ => withConnection acquired fun db =>
  (.ok ⟨200, .users db.listUsers db.listUsers.length⟩, db)

def getUser : Action := fun request => withConnection acquired fun db =>
  match request.pathParams["user_id"]? with
  | none => (.error (), db)
  | some userId => match db.getUser userId with
    | none => (.ok ⟨404, .error "user_not_found"⟩, db)
    | some user => (.ok ⟨200, .user user⟩, db)

/-- `str(payload.get(key, "")).strip()` -/
def fieldText (field : String → Option String) (key : String) : String :=
  String.ofList (strip isSpace ((field key).getD "").toList)

def createUser : Action := fun request db =>
  match loads request.body with
  | .other => (.error (), db)
  | .dict field =>
    let name := fieldText field "name"
    let email := fieldText field "email"
    if name = "" ∨ email = "" then (.ok ⟨400, .error "invalid_payload"⟩, db)
    else withConnection acquired (fun db =>
      let (user, db) := db.createUser name email
      (.ok ⟨201, .user user⟩, db)) db

/-- A handler with the middleware of its route. -/
structure Endpoint where
  handler : Action
  middleware : List Middleware := []

/-- `register(app)` -/
def application : App Endpoint :=
  let app : App Endpoint := {}
  let app := app.route upper "/health" (some ["GET"]) ⟨health, []⟩
  let app := app.route upper "/api/users" (some ["GET"]) ⟨listUsers acquired, []⟩
  let app := app.route upper "/api/users/\x7buser_id\x7d" (some ["GET"]) ⟨getUser acquired, [authRequired]⟩
  app.route upper "/api/users" (some ["POST"]) ⟨createUser loads acquired, [authRequired]⟩

/-! ### Serving -/

/-- `except Exception` -/
def answered : Except Unit Answer × InMemoryDatabase → Answer × InMemoryDatabase
  | (.ok answer, db) => (answer, db)
  | (.error _, db) => (⟨500, .error "internal_server_error"⟩, db)

def executeRoute (endpoint : Endpoint) (request : RawHttpRequest) (db : InMemoryDatabase) :
    Answer × InMemoryDatabase :=
  answered (buildPipeline ([loggingMiddleware] ++ endpoint.middleware) endpoint.handler request db)

/-- `_handle_connection` after the request has been parsed. -/
def handle (request : RawHttpRequest) (db : InMemoryDatabase) : Answer × InMemoryDatabase :=
  match (application loads acquired).matchRoute request.method request.path with
  | none => (⟨404, .error "not_found"⟩, db)
  | some (route, params) => executeRoute route.handler { request with pathParams := params } db

end

/-- A connection: its bytes, and whether the handler gets a pooled connection. -/
structure Input where
  stream : Bytes
  acquired : Bool

/-- A request that was parsed and its answer. -/
structure Output where
  request : RawHttpRequest
  answer : Answer

/-- `_handle_connection`; a stream that is no request is answered without the application. -/
def handleConnection (loads : String → Payload) (db : InMemoryDatabase) (input : Input) :
    InMemoryDatabase × List Output :=
  match App.parseRequest input.stream with
  | .error _ => (db, [])
  | .ok (none, _) => (db, [])
  | .ok (some request, _) =>
    let (answer, db) := handle loads input.acquired request db
    (db, [⟨request, answer⟩])

def userMachine (loads : String → Payload) : Machine InMemoryDatabase Input Output where
  init := {}
  step := handleConnection loads

/-! ### What a request does -/

variable {loads : String → Payload} {acquired : Bool} {request : RawHttpRequest} {db : InMemoryDatabase}

/-- The request bears the token. -/
def Authorised (request : RawHttpRequest) : Prop :=
  request.headers["authorization"]? = some "Bearer secrettoken"

instance (request : RawHttpRequest) : Decidable (Authorised request) :=
  inferInstanceAs (Decidable (_ = _))

theorem tokenOf_eq_iff {header : String} (h : "Bearer ".toList <+: header.toList) :
    tokenOf header = "secrettoken" ↔ header = "Bearer secrettoken" := by
  obtain ⟨rest, hrest⟩ := h
  have htoken : tokenOf header = String.ofList rest := by
    rw [tokenOf, ← hrest]
    rfl
  have hheader : header = String.ofList ("Bearer ".toList ++ rest) := by rw [hrest, String.ofList_toList]
  rw [htoken, hheader]
  constructor
  · intro heq
    have hlist := congrArg String.toList heq
    rw [String.toList_ofList] at hlist
    rw [hlist]
    rfl
  · intro heq
    have hlist := congrArg String.toList heq
    rw [String.toList_ofList] at hlist
    have hdrop := congrArg (List.drop 7) hlist
    have hdrop' : rest = "secrettoken".toList := hdrop
    rw [hdrop', String.ofList_toList]

/-- Without the token the request goes no further. -/
theorem authRequired_of_not (h : ¬ Authorised request) (next : Action) (db : InMemoryDatabase) :
    ∃ answer : Answer, (answer.status = 401 ∨ answer.status = 403) ∧
      authRequired request next db = (.ok answer, db) := by
  unfold authRequired
  dsimp only
  by_cases hbearer : "Bearer ".toList <+: ((request.headers["authorization"]?).getD "").toList
  · rw [if_neg (not_not.2 hbearer)]
    refine ⟨_, .inr rfl, if_pos fun htoken => h ?_⟩
    rw [tokenOf_eq_iff hbearer] at htoken
    unfold Authorised
    cases hheader : request.headers["authorization"]? with
    | none =>
      rw [hheader] at htoken
      exact absurd htoken (by decide)
    | some header =>
      rw [hheader] at htoken
      exact congrArg some htoken
  · exact ⟨_, .inl rfl, if_pos hbearer⟩

theorem authRequired_of_authorised (h : Authorised request) (next : Action) (db : InMemoryDatabase) :
    authRequired request next db = next request db := by
  have hheader : (request.headers["authorization"]?).getD "" = "Bearer secrettoken" := by
    rw [h]
    rfl
  unfold authRequired
  dsimp only
  rw [hheader, if_neg (not_not.2 ⟨"secrettoken".toList, rfl⟩), if_neg (by decide)]

/-- The routes by the parts of a path. -/
def endpointOf (loads : String → Payload) (acquired : Bool) (method : String) :
    List String → Option (Endpoint × Params)
  | ["health"] => if method = "GET" then some (⟨health, []⟩, ∅) else none
  | ["api", "users"] =>
    if method = "GET" then some (⟨listUsers acquired, []⟩, ∅)
    else if method = "POST" then some (⟨createUser loads acquired, [authRequired]⟩, ∅)
    else none
  | ["api", "users", userId] =>
    if method = "GET" then some (⟨getUser acquired, [authRequired]⟩, (∅ : Params).insert "user_id" userId) else none
  | _ => none

theorem matchPairs_literal {pattern : String} (h : pattern.toList.head? ≠ some '\x7b') (value : String)
    (rest : List (String × String)) (params : Params) : App.matchPairs ((pattern, value) :: rest) params =
      if pattern = value then App.matchPairs rest params else none := by
  rw [App.matchPairs, if_neg fun hb => h hb.1, ite_not]

theorem matchRoute_eq (method path : String) :
    ((application loads acquired).matchRoute method path).map (fun r => (r.1.handler, r.2)) =
      endpointOf loads acquired method (pathParts path) := by
  have hroutes : (application loads acquired).routes =
      [⟨"/health", ["GET"], ⟨health, []⟩, ["health"]⟩,
        ⟨"/api/users", ["GET"], ⟨listUsers acquired, []⟩, ["api", "users"]⟩,
        ⟨"/api/users/\x7buser_id\x7d", ["GET"], ⟨getUser acquired, [authRequired]⟩,
          ["api", "users", "\x7buser_id\x7d"]⟩,
        ⟨"/api/users", ["POST"], ⟨createUser loads acquired, [authRequired]⟩, ["api", "users"]⟩] := rfl
  have hhealth : "health".toList.head? ≠ some '\x7b' := by decide
  have hapi : "api".toList.head? ≠ some '\x7b' := by decide
  have husers : "users".toList.head? ≠ some '\x7b' := by decide
  have hparam : "\x7buser_id\x7d".toList.head? = some '\x7b' ∧ "\x7buser_id\x7d".toList.getLast? = some '\x7d' ∧
      String.ofList ("\x7buser_id\x7d".toList.drop 1).dropLast = "user_id" := by decide
  rw [App.matchRoute, hroutes]
  simp only [App.matchLoop, App.Route.matches_]
  generalize pathParts path = parts
  match parts with
  | [] => simp [endpointOf]
  | [a] =>
    by_cases ha : "health" = a
    · subst ha
      by_cases hm : method = "GET"
      · simp [hm, matchPairs_literal hhealth, App.matchPairs, endpointOf]
      · simp [hm, endpointOf]
    · have hend : endpointOf loads acquired method [a] = none := by
        unfold endpointOf
        split
        · rename_i heq
          exact absurd (List.cons.inj heq).1.symm ha
        all_goals simp_all
      simp [matchPairs_literal hhealth, ha, hend]
  | [a, b] =>
    by_cases hab : "api" = a ∧ "users" = b
    · obtain ⟨rfl, rfl⟩ := hab
      by_cases hm : method = "GET"
      · simp [hm, matchPairs_literal hapi, App.matchPairs, endpointOf]
      · by_cases hp : method = "POST"
        · simp [hp, matchPairs_literal hapi, App.matchPairs, endpointOf]
        · simp [hm, hp, endpointOf]
    · have hpairs : ∀ params, App.matchPairs [("api", a), ("users", b)] params = none := by
        intro params
        rw [matchPairs_literal hapi, matchPairs_literal husers]
        by_cases ha : "api" = a
        · rw [if_pos ha, if_neg fun hb => hab ⟨ha, hb⟩]
        · rw [if_neg ha]
      have hend : endpointOf loads acquired method [a, b] = none := by
        unfold endpointOf
        split
        all_goals simp_all
      simp [hpairs, hend]
  | [a, b, c] =>
    by_cases hab : "api" = a ∧ "users" = b
    · obtain ⟨rfl, rfl⟩ := hab
      by_cases hm : method = "GET"
      · have hpair : ∀ params, App.matchPairs [("\x7buser_id\x7d", c)] params = some (params.insert "user_id" c) := by
          intro params
          rw [App.matchPairs, if_pos ⟨hparam.1, hparam.2.1⟩, hparam.2.2]
          rfl
        simp [hm, matchPairs_literal hapi, matchPairs_literal husers, hpair, endpointOf]
      · simp [hm, endpointOf]
    · have hpairs : ∀ rest params, App.matchPairs (("api", a) :: ("users", b) :: rest) params = none := by
        intro rest params
        rw [matchPairs_literal hapi, matchPairs_literal husers]
        by_cases ha : "api" = a
        · rw [if_pos ha, if_neg fun hb => hab ⟨ha, hb⟩]
        · rw [if_neg ha]
      have hend : endpointOf loads acquired method [a, b, c] = none := by
        unfold endpointOf
        split
        all_goals simp_all
      simp [hpairs, hend]
  | _ :: _ :: _ :: _ :: _ => simp [endpointOf]

theorem handle_eq (request : RawHttpRequest) (db : InMemoryDatabase) : handle loads acquired request db =
    match endpointOf loads acquired request.method (pathParts request.path) with
    | none => (⟨404, .error "not_found"⟩, db)
    | some (endpoint, params) => executeRoute endpoint { request with pathParams := params } db := by
  rw [handle, ← matchRoute_eq]
  cases (application loads acquired).matchRoute request.method request.path with
  | none => rfl
  | some r => rfl

/-- The requests that need the token. -/
def Protected (request : RawHttpRequest) : Prop :=
  (request.method = "GET" ∧ ∃ userId, pathParts request.path = ["api", "users", userId]) ∨
    (request.method = "POST" ∧ pathParts request.path = ["api", "users"])

/-- A request that makes `user`. -/
structure Creates (loads : String → Payload) (request : RawHttpRequest) (user : User) : Prop where
  method : request.method = "POST"
  path : pathParts request.path = ["api", "users"]
  authorised : Authorised request
  payload : ∃ field, loads request.body = .dict field ∧ user.name = fieldText field "name" ∧
    user.email = fieldText field "email"
  name : user.name ≠ ""
  email : user.email ≠ ""

/-- What a request does to the database, and is answered. -/
inductive Effect (loads : String → Payload) (request : RawHttpRequest) (db : InMemoryDatabase) :
    Answer × InMemoryDatabase → Prop where
  | created (name email : String) (h : Creates loads request (db.createUser name email).1) :
    Effect loads request db (⟨201, .user (db.createUser name email).1⟩, (db.createUser name email).2)
  | other (answer : Answer) (hstatus : answer.status ≠ 201)
    (hrefused : Protected request → ¬ Authorised request → answer.status = 401 ∨ answer.status = 403) :
    Effect loads request db (answer, db)

theorem Effect.of_unchanged {result : Answer × InMemoryDatabase} (hdb : result.2 = db)
    (hstatus : result.1.status ≠ 201)
    (hrefused : Protected request → ¬ Authorised request → result.1.status = 401 ∨ result.1.status = 403) :
    Effect loads request db result := by
  obtain ⟨answer, db'⟩ := result
  obtain rfl : db' = db := hdb
  exact .other answer hstatus hrefused

/-- A route behind `authRequired` has the effect it has for the authorised. -/
theorem effect_authRequired {action : Action} {params : Params}
    (h : Authorised request → Effect loads request db (answered (action { request with pathParams := params } db))) :
    Effect loads request db (executeRoute ⟨action, [authRequired]⟩ { request with pathParams := params } db) := by
  have hrun : executeRoute ⟨action, [authRequired]⟩ { request with pathParams := params } db =
      answered (authRequired { request with pathParams := params } action db) := rfl
  rw [hrun]
  by_cases hauth : Authorised request
  · have hauth' : Authorised { request with pathParams := params } := hauth
    rw [authRequired_of_authorised hauth']
    exact h hauth
  · obtain ⟨answer, hstatus, heq⟩ := @authRequired_of_not { request with pathParams := params } hauth action db
    rw [heq]
    refine .other answer ?_ fun _ _ => hstatus
    rcases hstatus with h | h
    · rw [h]
      decide
    · rw [h]
      decide

theorem getUser_unchanged : (answered (getUser acquired request db)).2 = db ∧
    (answered (getUser acquired request db)).1.status ≠ 201 := by
  unfold getUser withConnection
  cases acquired with
  | false => simp [answered]
  | true =>
    cases request.pathParams["user_id"]? with
    | none => simp [answered]
    | some userId => cases hget : db.getUser userId <;> simp [answered, hget]

theorem listUsers_unchanged : (answered (listUsers acquired request db)).2 = db ∧
    (answered (listUsers acquired request db)).1.status ≠ 201 := by
  unfold listUsers withConnection
  cases acquired <;> simp [answered]

theorem effect_createUser {params : Params} (hmethod : request.method = "POST")
    (hpath : pathParts request.path = ["api", "users"]) (hauth : Authorised request) :
    Effect loads request db (answered (createUser loads acquired { request with pathParams := params } db)) := by
  have hother : ∀ answer : Answer, answer.status ≠ 201 → Effect loads request db (answer, db) := by
    intro answer hstatus
    exact .other answer hstatus fun _ hno => absurd hauth hno
  cases hload : loads request.body with
  | other =>
    simp only [createUser, hload]
    exact hother _ (by simp)
  | dict field =>
    simp only [createUser, hload]
    by_cases hempty : fieldText field "name" = "" ∨ fieldText field "email" = ""
    · rw [if_pos hempty]
      exact hother _ (by simp)
    · obtain ⟨hname, hemail⟩ := not_or.1 hempty
      rw [if_neg hempty, withConnection]
      cases acquired with
      | false => exact hother _ (by simp)
      | true => exact .created _ _ ⟨hmethod, hpath, hauth, ⟨field, hload, rfl, rfl⟩, hname, hemail⟩

theorem handle_of_endpointOf {endpoint : Endpoint} {params : Params}
    (h : endpointOf loads acquired request.method (pathParts request.path) = some (endpoint, params)) :
    handle loads acquired request db = executeRoute endpoint { request with pathParams := params } db := by
  rw [handle_eq, h]

theorem effect_handle (loads : String → Payload) (acquired : Bool) (request : RawHttpRequest)
    (db : InMemoryDatabase) : Effect loads request db (handle loads acquired request db) := by
  by_cases hprotected : Protected request
  · rcases hprotected with ⟨hmethod, userId, hpath⟩ | ⟨hmethod, hpath⟩
    · have hend : endpointOf loads acquired request.method (pathParts request.path) =
          some (⟨getUser acquired, [authRequired]⟩, (∅ : Params).insert "user_id" userId) := by
        rw [hmethod, hpath]
        rfl
      rw [handle_of_endpointOf hend]
      refine effect_authRequired fun hauth => ?_
      exact .of_unchanged getUser_unchanged.1 getUser_unchanged.2 fun _ hno => absurd hauth hno
    · have hend : endpointOf loads acquired request.method (pathParts request.path) =
          some (⟨createUser loads acquired, [authRequired]⟩, ∅) := by
        rw [hmethod, hpath]
        rfl
      rw [handle_of_endpointOf hend]
      exact effect_authRequired fun hauth => effect_createUser hmethod hpath hauth
  · -- The other routes have no middleware, and read at most the list.
    have hother : ∀ result : Answer × InMemoryDatabase, result.2 = db → result.1.status ≠ 201 →
        Effect loads request db result :=
      fun result hdb hstatus => .of_unchanged hdb hstatus fun h _ => absurd h hprotected
    cases hend : endpointOf loads acquired request.method (pathParts request.path) with
    | none =>
      rw [handle_eq, hend]
      exact hother _ rfl (by simp)
    | some found =>
      obtain ⟨endpoint, params⟩ := found
      rw [handle_of_endpointOf hend]
      unfold endpointOf at hend
      split at hend
      · split_ifs at hend
        obtain ⟨rfl, rfl⟩ := Prod.mk.inj (Option.some.inj hend)
        exact hother _ rfl (by simp [executeRoute, buildPipeline, loggingMiddleware, health, answered])
      · next hpath =>
        split_ifs at hend with hget hpost
        · obtain ⟨rfl, rfl⟩ := Prod.mk.inj (Option.some.inj hend)
          have hlist := @listUsers_unchanged acquired request db
          exact hother _ hlist.1 hlist.2
        · exact absurd (.inr ⟨hpost, hpath⟩) hprotected
      · next userId hpath =>
        split_ifs at hend with hget
        exact absurd (.inl ⟨hget, userId, hpath⟩) hprotected
      · exact absurd hend nofun

/-! ### Runs -/

/-- The user that an answer says was created. -/
def createdBy (output : Output) : Option User :=
  match output.answer with
  | ⟨201, .user user⟩ => some user
  | _ => none

def created (outputs : List Output) : List User := outputs.filterMap createdBy

theorem createdBy_of_status {output : Output} (h : output.answer.status ≠ 201) : createdBy output = none := by
  unfold createdBy
  split
  · next heq =>
    rw [heq] at h
    exact absurd rfl h
  · rfl

/-- What an answer says is so. -/
structure Truthful (loads : String → Payload) (output : Output) : Prop where
  creates : ∀ user ∈ createdBy output, Creates loads output.request user
  refused : Protected output.request → ¬ Authorised output.request →
    output.answer.status = 401 ∨ output.answer.status = 403

/-- The database holds the users of the answers, in their order and under serial ids. -/
structure Records (loads : String → Payload) (outputs : List Output) (db : InMemoryDatabase) : Prop where
  items : db.users.items = (created outputs).map fun user => (user.id, user)
  sequence : db.sequence = (created outputs).length + 1
  ids : (created outputs).map User.id = (List.range' 1 (created outputs).length).map toString
  truthful : ∀ output ∈ outputs, Truthful loads output

theorem Records.fresh {outputs : List Output} (h : Records loads outputs db) :
    toString db.sequence ∉ db.users.items.map Prod.fst := by
  have hkeys : db.users.items.map Prod.fst = (created outputs).map User.id := by
    rw [h.items, List.map_map]
    rfl
  rw [hkeys, h.ids, List.mem_map]
  rintro ⟨n, hn, heq⟩
  have hserial : "" ++ toString n = "" ++ toString db.sequence := congrArg ("" ++ ·) heq
  have hsame := append_toString_inj hserial
  have hlt := List.mem_range'_1.1 hn
  have hsequence := h.sequence
  omega

theorem Records.createUser {outputs : List Output} (h : Records loads outputs db) {name email : String}
    (hcreates : Creates loads request (db.createUser name email).1) :
    Records loads (outputs ++ [⟨request, ⟨201, .user (db.createUser name email).1⟩⟩])
      (db.createUser name email).2 := by
  have hcreated : created (outputs ++ [⟨request, ⟨201, .user (db.createUser name email).1⟩⟩]) =
      created outputs ++ [(db.createUser name email).1] := List.filterMap_append
  have hitems : (db.createUser name email).2.users.items =
      setItems (toString db.sequence) (db.createUser name email).1 db.users.items := rfl
  refine ⟨?_, ?_, ?_, ?_⟩
  · rw [hitems, setItems_of_notMem h.fresh, hcreated, h.items, List.map_append]
    rfl
  · rw [hcreated, List.length_append, List.length_singleton, ← h.sequence]
    rfl
  · rw [hcreated, List.map_append, h.ids, List.length_append, List.length_singleton, List.range'_concat,
      List.map_append, one_mul, add_comm 1, ← h.sequence]
    rfl
  · intro output hmem
    rcases List.mem_append.1 hmem with hmem | hmem
    · exact h.truthful output hmem
    · obtain rfl := List.mem_singleton.1 hmem
      refine ⟨?_, fun _ hno => absurd hcreates.authorised hno⟩
      rintro user huser
      obtain rfl := Option.mem_some.1 huser
      exact hcreates

theorem Records.other {outputs : List Output} (h : Records loads outputs db) {answer : Answer}
    (hstatus : answer.status ≠ 201)
    (hrefused : Protected request → ¬ Authorised request → answer.status = 401 ∨ answer.status = 403) :
    Records loads (outputs ++ [⟨request, answer⟩]) db := by
  have hnone : createdBy ⟨request, answer⟩ = none := createdBy_of_status hstatus
  have hcreated : created (outputs ++ [⟨request, answer⟩]) = created outputs := by
    simp [created, List.filterMap_append, hnone]
  refine ⟨hcreated ▸ h.items, hcreated ▸ h.sequence, hcreated ▸ h.ids, fun output hmem => ?_⟩
  rcases List.mem_append.1 hmem with hmem | hmem
  · exact h.truthful output hmem
  · obtain rfl := List.mem_singleton.1 hmem
    exact ⟨by simp [hnone], hrefused⟩

theorem Records.step {outputs : List Output} (h : Records loads outputs db) (input : Input) :
    Records loads (outputs ++ (handleConnection loads db input).2) (handleConnection loads db input).1 := by
  unfold handleConnection
  cases hparse : App.parseRequest input.stream with
  | error e => simpa using h
  | ok parsed =>
    obtain ⟨parsed, rest⟩ := parsed
    cases parsed with
    | none => simpa using h
    | some request =>
      dsimp only
      have heffect := effect_handle loads input.acquired request db
      generalize handle loads input.acquired request db = result at heffect ⊢
      cases heffect with
      | created name email hcreates => exact h.createUser hcreates
      | other answer hstatus hrefused => exact h.other hstatus hrefused

theorem records_run (loads : String → Payload) (inputs : List Input) :
    Records loads ((userMachine loads).run inputs).2 ((userMachine loads).run inputs).1 :=
  (userMachine loads).run_inv (P := fun _ outputs db => Records loads outputs db)
    ⟨rfl, rfl, rfl, fun _ hmem => absurd hmem List.not_mem_nil⟩
    (fun _ _ _ input h => h.step input) inputs

/-- Whatever connections are served, the users are those that answers say were created, in their order,
with the numbers from 1 as ids; each answer is what the request asks for and was allowed. -/
theorem users_are_answers (loads : String → Payload) (inputs : List Input) :
    ((userMachine loads).run inputs).1.listUsers = created ((userMachine loads).run inputs).2 ∧
      (created ((userMachine loads).run inputs).2).map User.id =
        (List.range' 1 (created ((userMachine loads).run inputs).2).length).map toString ∧
      ∀ output ∈ ((userMachine loads).run inputs).2, Truthful loads output := by
  have h := records_run loads inputs
  refine ⟨?_, h.ids, h.truthful⟩
  rw [InMemoryDatabase.listUsers, h.items, List.map_map]
  exact List.map_id _

theorem Records.getUser {outputs : List Output} (h : Records loads outputs db) (userId : String) :
    db.getUser userId = (created outputs).find? fun user => user.id = userId := by
  rw [InMemoryDatabase.getUser, Dict.get?, h.items]
  generalize created outputs = users
  induction users with
  | nil => rfl
  | cons user users ih =>
    rw [List.map_cons, List.lookup_cons, List.find?_cons, ih]
    by_cases hid : user.id = userId
    · simp [hid]
    · have hne : (userId == user.id) = false := by simpa using fun heq => hid heq.symm
      simp [hid, hne]

/-- After any run, one who bears the token and asks for an id is given the user that was created with
it, and 404 when no answer said so; the database stays as it is. -/
theorem getUser_created (loads : String → Payload) (inputs : List Input) (request : RawHttpRequest)
    (userId : String) (hmethod : request.method = "GET")
    (hpath : pathParts request.path = ["api", "users", userId]) (hauth : Authorised request) :
    handle loads true request ((userMachine loads).run inputs).1 =
      (match (created ((userMachine loads).run inputs).2).find? fun user => user.id = userId with
        | some user => ⟨200, .user user⟩
        | none => ⟨404, .error "user_not_found"⟩,
      ((userMachine loads).run inputs).1) := by
  have hend : endpointOf loads true request.method (pathParts request.path) =
      some (⟨UserApplication.getUser true, [authRequired]⟩, (∅ : Params).insert "user_id" userId) := by
    rw [hmethod, hpath]
    rfl
  rw [handle_of_endpointOf hend, ← (records_run loads inputs).getUser]
  have hauth' : Authorised { request with pathParams := (∅ : Params).insert "user_id" userId } := hauth
  have hrun : ∀ (request : RawHttpRequest) db, executeRoute ⟨UserApplication.getUser true, [authRequired]⟩ request db =
      answered (authRequired request (UserApplication.getUser true) db) := fun _ _ => rfl
  rw [hrun, authRequired_of_authorised hauth']
  unfold UserApplication.getUser withConnection
  rw [if_pos rfl, TreeMap.getElem?_insert_self]
  dsimp only
  cases ((userMachine loads).run inputs).1.getUser userId with
  | none => rfl
  | some user => rfl

def adaBody : String := "\x7b\"name\":\"Ada\",\"email\":\"ada@example.com\"\x7d"

/-- `json.loads`, on one text. -/
def adaLoads (text : String) : Payload :=
  if text = adaBody then .dict fun key =>
    if key = "name" then some "Ada" else if key = "email" then some "ada@example.com" else none
  else .other

def adaStream : Bytes :=
  utf8 ("POST /api/users HTTP/1.1\r\nAuthorization: Bearer secrettoken\r\nContent-Length: 40\r\n\r\n" ++
    adaBody).toList

def adaRequest : RawHttpRequest where
  method := "GET"
  path := "/api/users/1"
  version := "HTTP/1.1"
  headers := (∅ : Headers).insert "authorization" "Bearer secrettoken"
  body := ""

theorem getUser_created_ada :
    handle adaLoads true adaRequest ((userMachine adaLoads).run [⟨adaStream, true⟩]).1 =
      (⟨200, .user ⟨"1", "Ada", "ada@example.com"⟩⟩, ((userMachine adaLoads).run [⟨adaStream, true⟩]).1) := by
  have hcreated : created ((userMachine adaLoads).run [⟨adaStream, true⟩]).2 = [⟨"1", "Ada", "ada@example.com"⟩] := by
    decide +kernel
  have h := getUser_created adaLoads [⟨adaStream, true⟩] adaRequest "1" rfl (by decide) (by decide +kernel)
  rw [hcreated] at h
  exact h

end Portfolio.Framework.UserApplication
