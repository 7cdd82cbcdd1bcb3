import Portfolio.Framework.Router

/-!
# The two routers agree

A pattern is a list of segments, which the routers read in two notations. Both loops amount to
`matched`: the segments that are not empty stand against those of the path, one by one. The root
pattern, which `App` keeps as a segment of its own, is the pattern with no such segment.
-/

namespace Portfolio.Framework
open Std Py

/-! ### Patterns -/

inductive Segment where
  | param (name : String)
  | literal (text : String)
  deriving DecidableEq, Repr

namespace Segment

/-- The notation of milestone 1.1. -/
def colon : Segment → String
  | param name => ":" ++ name
  | literal text => text

/-- The notation of milestone 1.2. -/
def braces : Segment → String
  | param name => "\x7b" ++ name ++ "\x7d"
  | literal text => text

/-- A name or text without `/`; a literal is not in the notation of a parameter. An empty literal is
what stands between two slashes, or before the first or after the last one. -/
def Ok : Segment → Prop
  | param name => '/' ∉ name.toList
  | literal text => '/' ∉ text.toList ∧ text.toList.head? ≠ some ':' ∧
      ¬ (text.toList.head? = some '\x7b' ∧ text.toList.getLast? = some '\x7d')

instance : ∀ s : Segment, Decidable s.Ok
  | param name => inferInstanceAs (Decidable ('/' ∉ name.toList))
  | literal text => inferInstanceAs (Decidable ('/' ∉ text.toList ∧ _ ∧ _))

def accepts : Segment → String → Bool
  | param _, _ => true
  | literal text, value => text = value

/-- The assignment to a path parameter. -/
def assign (params : Params) : Segment × String → Params
  | (param name, value) => params.insert name value
  | (literal _, _) => params

@[simp] theorem accepts_param (name value : String) : (param name).accepts value = true := rfl

@[simp] theorem accepts_literal (text value : String) :
    (literal text).accepts value = decide (text = value) := rfl

@[simp] theorem assign_param (params : Params) (name value : String) :
    assign params (param name, value) = params.insert name value := rfl

@[simp] theorem assign_literal (params : Params) (text value : String) :
    assign params (literal text, value) = params := rfl

end Segment

/-- The pattern with these segments. -/
def patternText (notation_ : Segment → String) (segments : List Segment) : String :=
  "/".intercalate (segments.map notation_)

structure Registration (γ : Type) where
  method : String
  pattern : List Segment
  handler : γ

/-- The segments that both routers keep. -/
def Registration.segments {γ : Type} (r : Registration γ) : List Segment :=
  r.pattern.filter (· ≠ .literal "")

/-- The literals of a pattern stand in the path, at their places. -/
def literalsMatch (segments : List Segment) (values : List String) : Bool :=
  segments.length = values.length ∧ (segments.zip values).all fun p => p.1.accepts p.2

/-- The path parameters of a path whose literals match. -/
def matched (segments : List Segment) (values : List String) : Option Params :=
  if literalsMatch segments values then some ((segments.zip values).foldl Segment.assign ∅) else none

/-! ### The loops -/

/-- A loop over the pairs that takes the segments of a notation as they are meant. -/
structure ReadsPattern (loop : List (String × String) → Params → Option Params)
    (notation_ : Segment → String) : Prop where
  nil : ∀ params, loop [] params = some params
  cons : ∀ s : Segment, s.Ok → ∀ value rest params, loop ((notation_ s, value) :: rest) params =
    if s.accepts value then loop rest (Segment.assign params (s, value)) else none

theorem ReadsPattern.eq {loop : List (String × String) → Params → Option Params}
    {notation_ : Segment → String} (hloop : ReadsPattern loop notation_) {segments : List Segment}
    (h : ∀ s ∈ segments, s.Ok) (values : List String) (params : Params) :
    loop ((segments.map notation_).zip values) params =
      if (segments.zip values).all fun p => p.1.accepts p.2 then
        some ((segments.zip values).foldl Segment.assign params)
      else none := by
  induction segments generalizing values params with
  | nil => exact hloop.nil params
  | cons s segments ih =>
    cases values with
    | nil => exact hloop.nil params
    | cons value values =>
      obtain ⟨hs, hrest⟩ := List.forall_mem_cons.1 h
      rw [List.map_cons, List.zip_cons_cons, List.zip_cons_cons, List.all_cons, List.foldl_cons,
        hloop.cons s hs, ih hrest]
      by_cases hvalue : s.accepts value = true
      · rw [if_pos hvalue, hvalue, Bool.true_and]
      · rw [if_neg hvalue, if_neg]
        simp [hvalue]

theorem Router.readsPattern : ReadsPattern Router.matchPairs Segment.colon where
  nil _ := rfl
  cons s hs value rest params := by
    cases s with
    | param name =>
      have hhead : (Segment.colon (.param name)).toList.head? = some ':' := by
        simp [Segment.colon, String.toList_append]
      have hname : String.ofList ((Segment.colon (.param name)).toList.drop 1) = name := by
        simp [Segment.colon, String.toList_append]
      rw [Router.matchPairs, if_pos hhead, hname]
      rfl
    | literal text =>
      have hhead : ¬ (Segment.colon (.literal text)).toList.head? = some ':' := hs.2.1
      rw [Router.matchPairs, if_neg hhead]
      by_cases hvalue : text = value
      · simp [Segment.colon, hvalue]
      · simp [Segment.colon, hvalue]

theorem App.readsPattern : ReadsPattern App.matchPairs Segment.braces where
  nil _ := rfl
  cons s hs value rest params := by
    cases s with
    | param name =>
      have htext : (Segment.braces (.param name)).toList = ('\x7b' :: name.toList) ++ ['\x7d'] := by
        simp [Segment.braces, String.toList_append]
      have hends : (Segment.braces (.param name)).toList.head? = some '\x7b' ∧
          (Segment.braces (.param name)).toList.getLast? = some '\x7d' := by
        rw [htext, List.getLast?_concat]
        exact ⟨rfl, rfl⟩
      have hname : String.ofList ((Segment.braces (.param name)).toList.drop 1).dropLast = name := by
        simp [htext]
      rw [App.matchPairs, if_pos hends, hname]
      rfl
    | literal text =>
      have hends : ¬ ((Segment.braces (.literal text)).toList.head? = some '\x7b' ∧
          (Segment.braces (.literal text)).toList.getLast? = some '\x7d') := hs.2.2
      rw [App.matchPairs, if_neg hends]
      by_cases hvalue : text = value
      · simp [Segment.braces, hvalue]
      · simp [Segment.braces, hvalue]

/-! ### One route -/

section
variable {γ : Type} {r : Registration γ}

/-- The parts of a pattern in a notation that shows every segment but the empty literal. -/
theorem pathParts_patternText {notation_ : Segment → String} {segments : List Segment}
    (hslash : ∀ s ∈ segments, '/' ∉ (notation_ s).toList)
    (hshown : ∀ s, notation_ s = "" ↔ s = .literal "") :
    pathParts (patternText notation_ segments) = (segments.filter (· ≠ .literal "")).map notation_ := by
  have hnames : ∀ name ∈ segments.map notation_, '/' ∉ name.toList := by
    intro name hname
    obtain ⟨s, hs, rfl⟩ := List.mem_map.1 hname
    exact hslash s hs
  rw [pathParts_eq, patternText, nonempty_intercalate hnames, List.filter_map]
  congr 1
  refine List.filter_congr fun s _ => ?_
  simp [hshown]

theorem pathParts_colon (h : ∀ s ∈ r.pattern, s.Ok) :
    pathParts (patternText Segment.colon r.pattern) = r.segments.map Segment.colon := by
  refine pathParts_patternText (fun s hs hslash => ?_) fun s => ?_
  · cases s with
    | param name => exact h _ hs (by simpa [Segment.colon, String.toList_append] using hslash)
    | literal text => exact (h _ hs).1 hslash
  · cases s with
    | param name =>
      refine iff_of_false (fun hempty => ?_) (by simp)
      simpa [Segment.colon, String.toList_append] using congrArg String.toList hempty
    | literal text => simp [Segment.colon]

theorem pathParts_braces (h : ∀ s ∈ r.pattern, s.Ok) :
    pathParts (patternText Segment.braces r.pattern) = r.segments.map Segment.braces := by
  refine pathParts_patternText (fun s hs hslash => ?_) fun s => ?_
  · cases s with
    | param name => exact h _ hs (by simpa [Segment.braces, String.toList_append] using hslash)
    | literal text => exact (h _ hs).1 hslash
  · cases s with
    | param name =>
      refine iff_of_false (fun hempty => ?_) (by simp)
      simpa [Segment.braces, String.toList_append] using congrArg String.toList hempty
    | literal text => simp [Segment.braces]

theorem Registration.segments_ok (h : ∀ s ∈ r.pattern, s.Ok) : ∀ s ∈ r.segments, s.Ok :=
  fun s hs => h s (List.mem_filter.1 hs).1

theorem Router.matchSegments_eq (h : ∀ s ∈ r.pattern, s.Ok) (values : List String) :
    Router.matchSegments (r.segments.map Segment.colon) values = matched r.segments values := by
  unfold Router.matchSegments matched literalsMatch
  rw [List.length_map, Router.readsPattern.eq (Registration.segments_ok h)]
  by_cases hlength : r.segments.length = values.length
  · rw [if_neg (not_not.2 hlength)]
    simp only [hlength, true_and, Bool.decide_eq_true]
  · rw [if_pos hlength]
    simp only [hlength, false_and, decide_false, Bool.false_eq_true, if_false]

theorem Registration.braces_ne_root (r : Registration γ) : r.segments.map Segment.braces ≠ [""] := by
  intro h
  obtain ⟨s, hs, hempty⟩ := List.mem_map.1 (h ▸ List.mem_singleton_self "")
  have hne : s ≠ .literal "" := by simpa using (List.mem_filter.1 hs).2
  cases s with
  | param name => simpa [Segment.braces, String.toList_append] using congrArg String.toList hempty
  | literal text => exact hne (congrArg Segment.literal hempty)

/-- What `Route.matches` does with a pattern as it was registered. -/
theorem App.matches_new (h : ∀ s ∈ r.pattern, s.Ok) (methods : List String) (method path : String) :
    (App.Route.new (patternText Segment.braces r.pattern) methods r.handler).matches_ method path =
      if method ∈ methods then matched r.segments (pathParts path) else none := by
  by_cases hmethod : method ∈ methods
  · rw [if_pos hmethod]
    unfold App.Route.matches_
    rw [if_neg (not_not.2 (show method ∈ (App.Route.new (patternText Segment.braces r.pattern) methods
      r.handler).methods from hmethod))]
    have hparts := pathParts_braces h
    dsimp only [App.Route.new]
    generalize pathParts path = values
    split
    · next hroot =>
      -- The root pattern: nothing is left of it without the slashes.
      have hnone : r.segments = [] := by
        rw [pathParts, hroot] at hparts
        exact List.map_eq_nil_iff.1 hparts.symm
      rw [hnone]
      cases values with
      | nil => rfl
      | cons value values => rfl
    · rw [hparts, if_neg fun hboth => r.braces_ne_root hboth.1]
      unfold matched literalsMatch
      rw [List.length_map, App.readsPattern.eq (Registration.segments_ok h)]
      by_cases hlength : r.segments.length = values.length
      · rw [if_neg fun hboth => hboth.2 hlength.symm]
        simp only [hlength, true_and, Bool.decide_eq_true]
      · rw [if_pos ⟨r.braces_ne_root, fun heq => hlength heq.symm⟩]
        simp only [hlength, false_and, decide_false, Bool.false_eq_true, if_false]
  · rw [if_neg hmethod]
    unfold App.Route.matches_
    exact if_pos hmethod

/-! ### All routes -/

variable (upper : String → String)

/-- The registrations in the router of milestone 1.1. -/
def routerOf (registrations : List (Registration γ)) : Router γ :=
  registrations.foldl
    (fun router r => router.addRoute upper r.method (patternText Segment.colon r.pattern) r.handler) {}

/-- The registrations in the application of milestone 1.2. -/
def appOf (registrations : List (Registration γ)) : App γ :=
  registrations.foldl
    (fun app r => app.route upper (patternText Segment.braces r.pattern) (some [r.method]) r.handler) {}

/-- The first registration of the method whose literals all match. -/
def firstMatch (registrations : List (Registration γ)) (method path : String) : Option (Registration γ) :=
  registrations.find? fun r => upper r.method = method ∧ literalsMatch r.segments (nonempty path)

theorem routes_routerOf (registrations : List (Registration γ)) :
    (routerOf upper registrations).routes = registrations.map fun r =>
      ⟨upper r.method, patternText Segment.colon r.pattern,
        pathParts (patternText Segment.colon r.pattern), r.handler⟩ := by
  unfold routerOf
  induction registrations using List.reverseRecOn with
  | nil => rfl
  | append_singleton registrations r ih =>
    rw [List.foldl_append, List.map_append, ← ih]
    rfl

theorem routes_appOf (registrations : List (Registration γ)) :
    (appOf upper registrations).routes = registrations.map fun r =>
      .new (patternText Segment.braces r.pattern) [upper r.method] r.handler := by
  unfold appOf
  induction registrations using List.reverseRecOn with
  | nil => rfl
  | append_singleton registrations r ih =>
    rw [List.foldl_append, List.map_append, ← ih]
    rfl

variable {upper} {registrations : List (Registration γ)} {method : String}

/-- The parameters that a registration reads from a path. -/
def Registration.params (r : Registration γ) (path : String) : Params :=
  (r.segments.zip (nonempty path)).foldl Segment.assign ∅

theorem matched_pathParts (r : Registration γ) (path : String) :
    matched r.segments (pathParts path) =
      if literalsMatch r.segments (nonempty path) then some (r.params path) else none := by
  rw [pathParts_eq]
  rfl

theorem resolveLoop_eq (h : ∀ r ∈ registrations, ∀ s ∈ r.pattern, s.Ok) (hmethod : upper method = method)
    (path : String) :
    Router.resolveLoop upper method (pathParts path) (routerOf upper registrations).routes =
      (firstMatch upper registrations method path).map fun r => (r.handler, r.params path) := by
  rw [routes_routerOf]
  unfold firstMatch
  induction registrations with
  | nil => rfl
  | cons r registrations ih =>
    have hrest := ih fun r hr => h r (List.mem_cons_of_mem _ hr)
    have hr := h r List.mem_cons_self
    rw [List.map_cons, Router.resolveLoop, pathParts_colon hr, Router.matchSegments_eq hr,
      matched_pathParts, hmethod, hrest, List.find?_cons]
    by_cases hname : upper r.method = method
    · rw [if_neg (not_not.2 hname)]
      by_cases hmatch : literalsMatch r.segments (nonempty path) = true
      · simp only [hname, hmatch, and_self, decide_true, if_true, Option.map_some]
      · simp only [hname, hmatch, and_false, decide_false, if_false, Bool.false_eq_true]
    · rw [if_pos hname]
      simp only [hname, false_and, decide_false]

theorem matchLoop_eq (h : ∀ r ∈ registrations, ∀ s ∈ r.pattern, s.Ok) (path : String) :
    App.matchLoop method path (appOf upper registrations).routes =
      (firstMatch upper registrations method path).map fun r =>
        (.new (patternText Segment.braces r.pattern) [upper r.method] r.handler, r.params path) := by
  rw [routes_appOf]
  unfold firstMatch
  induction registrations with
  | nil => rfl
  | cons r registrations ih =>
    have hrest := ih fun r hr => h r (List.mem_cons_of_mem _ hr)
    have hr := h r List.mem_cons_self
    rw [List.map_cons, App.matchLoop, App.matches_new hr, matched_pathParts, hrest, List.find?_cons]
    by_cases hname : upper r.method = method
    · rw [if_pos (List.mem_singleton.2 hname.symm)]
      by_cases hmatch : literalsMatch r.segments (nonempty path) = true
      · simp only [hname, hmatch, and_self, decide_true, if_true, Option.map_some]
      · simp only [hname, hmatch, and_false, decide_false, if_false, Bool.false_eq_true]
    · rw [if_neg fun hmem => hname (List.mem_singleton.1 hmem).symm]
      simp only [hname, false_and, decide_false]

variable (upper) (registrations)

/-- With the same registrations, `Router.resolve` and `App._match_route` find the same handler and the
same parameters, or both find nothing; the handler is that of the first registration of the method
whose literals all match. -/
theorem routers_agree (h : ∀ r ∈ registrations, ∀ s ∈ r.pattern, s.Ok) (hmethod : upper method = method)
    (path : String) :
    (∀ handler params, (routerOf upper registrations).resolve upper method path = .ok (handler, params) ↔
      ∃ route, (appOf upper registrations).matchRoute method path = some (route, params) ∧
        route.handler = handler) ∧
    ((∃ e, (routerOf upper registrations).resolve upper method path = .error e) ↔
      (appOf upper registrations).matchRoute method path = none) ∧
    (∀ handler params, (routerOf upper registrations).resolve upper method path = .ok (handler, params) →
      (firstMatch upper registrations method path).map (·.handler) = some handler) ∧
    ∀ route params, (appOf upper registrations).matchRoute method path = some (route, params) →
      (firstMatch upper registrations method path).map (·.handler) = some route.handler := by
  unfold Router.resolve App.matchRoute
  rw [resolveLoop_eq h hmethod, matchLoop_eq h]
  cases firstMatch upper registrations method path with
  | none => simp
  | some r =>
    refine ⟨fun handler params => ?_, ?_, ?_, ?_⟩
    · constructor
      · intro hok
        cases hok
        exact ⟨_, rfl, rfl⟩
      · rintro ⟨route, hroute, rfl⟩
        cases hroute
        rfl
    · exact iff_of_false (fun ⟨e, he⟩ => nomatch he) fun hnone => nomatch hnone
    · intro handler params hok
      cases hok
      rfl
    · intro route params hsome
      cases hsome
      rfl

end

/-- A literal before a parameter of the same length, and the root. -/
def userRoutes : List (Registration String) :=
  [⟨"get", [.literal "", .literal "users", .literal "me"], "me"⟩,
    ⟨"GET", [.literal "", .literal "users", .param "id"], "user"⟩, ⟨"GET", [], "home"⟩]

theorem routers_agree_userRoutes :
    (routerOf String.toUpper userRoutes).routes.map (·.pattern) = ["/users/me", "/users/:id", ""] ∧
    ((∃ e, (routerOf String.toUpper userRoutes).resolve String.toUpper "GET" "//users/7/" = .error e) ↔
      (appOf String.toUpper userRoutes).matchRoute "GET" "//users/7/" = none) :=
  ⟨by decide +kernel,
    (routers_agree String.toUpper userRoutes (by decide) (by decide +kernel) "//users/7/").2.1⟩

end Portfolio.Framework
