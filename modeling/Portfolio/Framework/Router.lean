import Portfolio.Lib.PyText

/-!
# The routers

`Router` of milestone 1.1 and the routing of `App` of milestone 1.2. The type of handlers and
`str.upper` are parameters; a `dict` of path parameters is a map.
-/

namespace Portfolio.Framework
open Std Py

abbrev Params := TreeMap String String

section
variable {γ : Type} (upper : String → String)

/-! ### Milestone 1.1 -/

namespace Router

structure Route (γ : Type) where
  method : String
  pattern : String
  segments : List String
  handler : γ

end Router

structure Router (γ : Type) where
  routes : List (Router.Route γ) := []

namespace Router

def addRoute (router : Router γ) (method pattern : String) (handler : γ) : Router γ :=
  ⟨router.routes ++ [⟨upper method, pattern, pathParts pattern, handler⟩]⟩

/-- The loop of `_match_segments` over the zipped segments; `none` is `False`. -/
def matchPairs : List (String × String) → Params → Option Params
  | [], params => some params
  | (pattern, value) :: rest, params =>
    if pattern.toList.head? = some ':' then
      matchPairs rest (params.insert (String.ofList (pattern.toList.drop 1)) value)
    else if pattern ≠ value then none
    else matchPairs rest params

def matchSegments (routeSegments requestSegments : List String) : Option Params :=
  if routeSegments.length ≠ requestSegments.length then none
  else matchPairs (routeSegments.zip requestSegments) ∅

/-- The loop of `resolve`. -/
def resolveLoop (method : String) (searchSegments : List String) :
    List (Route γ) → Option (γ × Params)
  | [] => none
  | route :: routes =>
    if route.method ≠ upper method then resolveLoop method searchSegments routes
    else match matchSegments route.segments searchSegments with
      | some params => some (route.handler, params)
      | none => resolveLoop method searchSegments routes

/-- The error is `RouteNotFound`. -/
def resolve (router : Router γ) (method path : String) : Except String (γ × Params) :=
  match resolveLoop upper method (pathParts path) router.routes with
  | some r => .ok r
  | none => .error ("No route for " ++ method ++ " " ++ path)

end Router

/-! ### Milestone 1.2 -/

namespace App

/-- `Route`; the middleware is left out. -/
structure Route (γ : Type) where
  path : String
  methods : List String
  handler : γ
  segments : List String

/-- `Route(...)` with its `__post_init__`. -/
def Route.new (path : String) (methods : List String) (handler : γ) : Route γ where
  path := path
  methods := methods
  handler := handler
  segments := if strip (· = '/') path.toList = [] then [""] else pathParts path

/-- The loop of `matches`. -/
def matchPairs : List (String × String) → Params → Option Params
  | [], params => some params
  | (pattern, value) :: rest, params =>
    if pattern.toList.head? = some '\x7b' ∧ pattern.toList.getLast? = some '\x7d' then
      matchPairs rest (params.insert (String.ofList (pattern.toList.drop 1).dropLast) value)
    else if pattern ≠ value then none
    else matchPairs rest params

def Route.matches_ (route : Route γ) (method path : String) : Option Params :=
  if method ∉ route.methods then none
  else
    let targetSegments := pathParts path
    if route.segments = [""] ∧ targetSegments ≠ [] then none
    else if route.segments ≠ [""] ∧ targetSegments.length ≠ route.segments.length then none
    else matchPairs (route.segments.zip targetSegments) ∅

end App

structure App (γ : Type) where
  routes : List (App.Route γ) := []

namespace App

/-- `route(path, methods=methods)(handler)` -/
def route (app : App γ) (path : String) (methods : Option (List String)) (handler : γ) : App γ :=
  let methods := match methods with
    | none | some [] => ["GET"]
    | some methods => methods
  ⟨app.routes ++ [.new path (methods.map upper) handler]⟩

/-- The loop of `_match_route`. -/
def matchLoop (method path : String) : List (Route γ) → Option (Route γ × Params)
  | [] => none
  | route :: routes => match route.matches_ method path with
    | some params => some (route, params)
    | none => matchLoop method path routes

def matchRoute (app : App γ) (method path : String) : Option (Route γ × Params) :=
  matchLoop method path app.routes

end App

end

end Portfolio.Framework
