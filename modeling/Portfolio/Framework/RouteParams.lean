import Mathlib.Data.List.Forall2
import Portfolio.Framework.Router
import Portfolio.Lib.PairMap

/-!
# What the path parameters keep of a path

A segment of a pattern is a parameter with a name or a literal, in the notation of its router. Where a
route matches, every literal is the segment of the path, and the value of every parameter has been
written into the dictionary under its name. So the path can be put together again from the pattern and
the dictionary, unless a later parameter has taken the place of an earlier one of the same name.
-/

namespace Portfolio.Framework
open Std Py

/-- `pattern[1:]`, if the segment starts with `:`. -/
def Router.paramName (segment : String) : Option String :=
  if segment.toList.head? = some ':' then some (String.ofList (segment.toList.drop 1)) else none

/-- `pattern[1:-1]`, if the segment starts with an opening and ends with a closing brace. -/
def App.paramName (segment : String) : Option String :=
  if segment.toList.head? = some '\x7b' ∧ segment.toList.getLast? = some '\x7d' then
    some (String.ofList (segment.toList.drop 1).dropLast)
  else none

section
variable (paramName : String → Option String)

/-- The pattern with the parameters in the places of their names; `none` where one has no value. -/
def substitute (params : Params) (pattern : List String) : List (Option String) :=
  pattern.map fun segment =>
    match paramName segment with
    | some name => params[name]?
    | none => some segment

/-- Parameters of one name stand over equal segments of the path. -/
def Consistent (pattern values : List String) : Prop :=
  ∀ p ∈ pattern.zip values, ∀ q ∈ pattern.zip values, ∀ name,
    paramName p.1 = some name → paramName q.1 = some name → p.2 = q.2

/-- The names of a pattern with the segments of the path over them. -/
def captures (pairs : List (String × String)) : List (String × String) :=
  pairs.filterMap fun p => (paramName p.1).map fun name => (name, p.2)

variable {paramName}

theorem captures_param {segment name : String} (h : paramName segment = some name) (value : String)
    (rest : List (String × String)) :
    captures paramName ((segment, value) :: rest) = (name, value) :: captures paramName rest := by
  simp [captures, h]

theorem captures_literal {segment : String} (h : paramName segment = none) (value : String)
    (rest : List (String × String)) :
    captures paramName ((segment, value) :: rest) = captures paramName rest := by
  simp [captures, h]

theorem mem_captures {pairs : List (String × String)} {name value : String} :
    (name, value) ∈ captures paramName pairs ↔ ∃ p ∈ pairs, paramName p.1 = some name ∧ p.2 = value := by
  simp [captures]

/-- A pattern in which no name occurs twice loses nothing of any path. -/
theorem consistent_of_nodup {pattern : List String} (h : (pattern.filterMap paramName).Nodup)
    (values : List String) : Consistent paramName pattern values := by
  induction pattern generalizing values with
  | nil => simp [Consistent]
  | cons segment pattern ih =>
    cases values with
    | nil => simp [Consistent]
    | cons value values =>
      have hrest : (pattern.filterMap paramName).Nodup :=
        h.sublist ((List.sublist_cons_self segment pattern).filterMap paramName)
      have hfirst : ∀ p ∈ pattern.zip values, paramName p.1 ≠ none → paramName p.1 ≠ paramName segment := by
        intro p hp hsome heq
        obtain ⟨name, hname⟩ := Option.ne_none_iff_exists'.1 hsome
        rw [List.filterMap_cons_some (heq ▸ hname), List.nodup_cons] at h
        exact h.1 (List.mem_filterMap.2 ⟨p.1, (List.of_mem_zip hp).1, hname⟩)
      intro p hp q hq name hpname hqname
      rcases List.mem_cons.1 hp with rfl | hp <;> rcases List.mem_cons.1 hq with rfl | hq
      · rfl
      · exact absurd (hqname.trans hpname.symm) (hfirst q hq (by simp [hqname]))
      · exact absurd (hpname.trans hqname.symm) (hfirst p hp (by simp [hpname]))
      · exact ih hrest values p hp q hq name hpname hqname

/-! ### One route -/

/-- A loop over the pairs that takes `paramName` for what makes a segment a parameter. -/
structure ReadsParams (loop : List (String × String) → Params → Option Params)
    (paramName : String → Option String) : Prop where
  nil : ∀ params, loop [] params = some params
  param : ∀ {segment name}, paramName segment = some name → ∀ value rest params,
    loop ((segment, value) :: rest) params = loop rest (params.insert name value)
  literal : ∀ {segment}, paramName segment = none → ∀ value rest params,
    loop ((segment, value) :: rest) params = if segment ≠ value then none else loop rest params

theorem Router.readsParams : ReadsParams Router.matchPairs Router.paramName where
  nil _ := rfl
  param h value rest params := by
    unfold Router.paramName at h
    split at h
    · next hhead =>
      rw [Router.matchPairs, if_pos hhead, Option.some.inj h]
    · cases h
  literal h value rest params := by
    unfold Router.paramName at h
    split at h
    · cases h
    · next hhead => rw [Router.matchPairs, if_neg hhead]

theorem App.readsParams : ReadsParams App.matchPairs App.paramName where
  nil _ := rfl
  param h value rest params := by
    unfold App.paramName at h
    split at h
    · next hends =>
      rw [App.matchPairs, if_pos hends, Option.some.inj h]
    · cases h
  literal h value rest params := by
    unfold App.paramName at h
    split at h
    · cases h
    · next hends => rw [App.matchPairs, if_neg hends]

/-- Where the loop succeeds it has written the captures, and every literal is its segment. -/
theorem ReadsParams.spec {loop : List (String × String) → Params → Option Params}
    (hloop : ReadsParams loop paramName) {pairs : List (String × String)} {params out : Params}
    (h : loop pairs params = some out) :
    out = insertPairs params (captures paramName pairs) ∧
      ∀ p ∈ pairs, paramName p.1 = none → p.1 = p.2 := by
  induction pairs generalizing params with
  | nil =>
    rw [hloop.nil] at h
    exact ⟨(Option.some.inj h).symm, by simp⟩
  | cons pair pairs ih =>
    obtain ⟨segment, value⟩ := pair
    cases hname : paramName segment with
    | some name =>
      rw [hloop.param hname] at h
      obtain ⟨hout, hliteral⟩ := ih h
      refine ⟨?_, fun p hp hnone => ?_⟩
      · rw [hout, captures_param hname]
        rfl
      · rcases List.mem_cons.1 hp with rfl | hp
        · rw [hname] at hnone
          cases hnone
        · exact hliteral p hp hnone
    | none =>
      rw [hloop.literal hname] at h
      split at h
      · cases h
      · next hvalue =>
        obtain ⟨hout, hliteral⟩ := ih h
        refine ⟨?_, fun p hp hnone => ?_⟩
        · rw [hout, captures_literal hname]
        · rcases List.mem_cons.1 hp with rfl | hp
          · exact not_not.1 hvalue
          · exact hliteral p hp hnone

theorem map_eq_map_iff_zip {α β δ : Type} {f : α → δ} {g : β → δ} {l : List α} {l' : List β}
    (h : l.length = l'.length) : l.map f = l'.map g ↔ ∀ p ∈ l.zip l', f p.1 = g p.2 := by
  rw [← List.forall₂_eq_eq_eq, List.forall₂_map_left_iff, List.forall₂_map_right_iff,
    List.forall₂_iff_zip]
  exact ⟨fun hall p hp => hall.2 hp, fun hall => ⟨h, fun hp => hall _ hp⟩⟩

/-- Nothing is lost if and only if the parameters of one name stand over equal segments. -/
theorem ReadsParams.substitute_iff {loop : List (String × String) → Params → Option Params}
    (hloop : ReadsParams loop paramName) {pattern values : List String} {out : Params}
    (hlength : pattern.length = values.length) (h : loop (pattern.zip values) ∅ = some out) :
    substitute paramName out pattern = values.map some ↔ Consistent paramName pattern values := by
  obtain ⟨rfl, hliteral⟩ := hloop.spec h
  have hkeeps := insertPairs_keeps_iff (captures paramName (pattern.zip values))
  rw [substitute, map_eq_map_iff_zip hlength]
  constructor
  · intro hall p hp q hq name hpname hqname
    refine hkeeps.1 (fun c hc => ?_) (name, p.2) (mem_captures.2 ⟨p, hp, hpname, rfl⟩) (name, q.2)
      (mem_captures.2 ⟨q, hq, hqname, rfl⟩) rfl
    obtain ⟨r, hr, hrname, hvalue⟩ := mem_captures.1 hc
    have hread := hall r hr
    rw [hrname] at hread
    rw [← hvalue]
    exact hread
  · intro hconsistent p hp
    cases hname : paramName p.1 with
    | none => exact congrArg some (hliteral p hp hname)
    | some name =>
      refine hkeeps.2 (fun c hc d hd hkey => ?_) (name, p.2) (mem_captures.2 ⟨p, hp, hname, rfl⟩)
      obtain ⟨r, hr, hrname, hrvalue⟩ := mem_captures.1 hc
      obtain ⟨s, hs, hsname, hsvalue⟩ := mem_captures.1 hd
      rw [← hrvalue, ← hsvalue]
      exact hconsistent r hr s hs c.1 hrname (hkey ▸ hsname)

end

/-! ### All routes -/

section
variable {γ : Type} (upper : String → String)

/-- The arguments of `add_route`. -/
structure Router.Added (γ : Type) where
  method : String
  pattern : String
  handler : γ

/-- The arguments of `route(path, methods=methods)(handler)`. -/
structure App.Registered (γ : Type) where
  path : String
  methods : Option (List String)
  handler : γ

def Router.ofAdded (added : List (Router.Added γ)) : Router γ :=
  added.foldl (fun router a => router.addRoute upper a.method a.pattern a.handler) {}

def App.ofRegistered (registered : List (App.Registered γ)) : App γ :=
  registered.foldl (fun app r => app.route upper r.path r.methods r.handler) {}

/-- The route that `resolve` finds. -/
def Router.firstRoute (router : Router γ) (method path : String) : Option (Router.Route γ) :=
  router.routes.find? fun route =>
    route.method = upper method ∧ (Router.matchSegments route.segments (pathParts path)).isSome

variable {upper}

theorem Router.segments_ofAdded (added : List (Router.Added γ)) :
    ∀ route ∈ (Router.ofAdded upper added).routes, route.segments = pathParts route.pattern := by
  unfold Router.ofAdded
  induction added using List.reverseRecOn with
  | nil => simp
  | append_singleton added a ih =>
    intro route hroute
    rw [List.foldl_append] at hroute
    rcases List.mem_append.1 hroute with hroute | hroute
    · exact ih route hroute
    · rw [List.mem_singleton.1 hroute]

theorem App.new_ofRegistered (registered : List (App.Registered γ)) :
    ∀ route ∈ (App.ofRegistered upper registered).routes,
      route = App.Route.new route.path route.methods route.handler := by
  unfold App.ofRegistered
  induction registered using List.reverseRecOn with
  | nil => simp
  | append_singleton registered r ih =>
    intro route hroute
    rw [List.foldl_append] at hroute
    rcases List.mem_append.1 hroute with hroute | hroute
    · exact ih route hroute
    · rw [List.mem_singleton.1 hroute]
      rfl

theorem Router.find?_of_resolveLoop {method : String} {values : List String}
    {routes : List (Router.Route γ)} {handler : γ} {params : Params}
    (h : Router.resolveLoop upper method values routes = some (handler, params)) :
    ∃ route, (routes.find? fun route =>
        route.method = upper method ∧ (Router.matchSegments route.segments values).isSome) = some route ∧
      route.handler = handler ∧ Router.matchSegments route.segments values = some params := by
  induction routes with
  | nil => cases h
  | cons route routes ih =>
    rw [Router.resolveLoop] at h
    split at h
    · next hmethod =>
      rw [List.find?_cons_of_neg (by simp [hmethod])]
      exact ih h
    · next hmethod =>
      split at h
      · next out hmatch =>
        cases h
        exact ⟨route, by simp [not_not.1 hmethod, hmatch], rfl, hmatch⟩
      · next hmatch =>
        rw [List.find?_cons_of_neg (by simp [hmatch])]
        exact ih h

theorem Router.substitute_iff_of_match {route : Router.Route γ} {path : String} {params : Params}
    (hsegments : route.segments = pathParts route.pattern)
    (h : Router.matchSegments route.segments (pathParts path) = some params) :
    substitute Router.paramName params (nonempty route.pattern) = (nonempty path).map some ↔
      Consistent Router.paramName (nonempty route.pattern) (nonempty path) := by
  rw [hsegments, pathParts_eq, pathParts_eq] at h
  unfold Router.matchSegments at h
  split at h
  · cases h
  · next hlength => exact Router.readsParams.substitute_iff (not_not.1 hlength) h

theorem App.mem_of_matchLoop {method path : String} {routes : List (App.Route γ)} {route : App.Route γ}
    {params : Params} (h : App.matchLoop method path routes = some (route, params)) :
    route ∈ routes ∧ route.matches_ method path = some params := by
  induction routes with
  | nil => cases h
  | cons first routes ih =>
    rw [App.matchLoop] at h
    split at h
    · next out hmatch =>
      cases h
      exact ⟨List.mem_cons_self, hmatch⟩
    · obtain ⟨hmem, hmatch⟩ := ih h
      exact ⟨List.mem_cons_of_mem _ hmem, hmatch⟩

theorem App.substitute_iff_of_match {route : App.Route γ} {method path : String} {params : Params}
    (hnew : route = App.Route.new route.path route.methods route.handler)
    (h : route.matches_ method path = some params) :
    substitute App.paramName params (nonempty route.path) = (nonempty path).map some ↔
      Consistent App.paramName (nonempty route.path) (nonempty path) := by
  have hsegments : route.segments =
      if strip (· = '/') route.path.toList = [] then [""] else nonempty route.path := by
    rw [hnew, ← pathParts_eq]
    rfl
  unfold App.Route.matches_ at h
  rw [pathParts_eq] at h
  split at h
  · cases h
  · dsimp only at h
    split at hsegments
    · next hroot =>
      -- The root pattern matches the path with no segment, and has none itself.
      have hpattern : nonempty route.path = [] := by
        rw [← pathParts_eq, pathParts, hroot]
        decide
      rw [hsegments] at h
      split at h
      · cases h
      · next hpath =>
        have hvalues : nonempty path = [] := not_not.1 fun hne => hpath ⟨rfl, hne⟩
        rw [hpattern, hvalues]
        simp [substitute, Consistent]
    · have hne : route.segments ≠ [""] := by
        intro hsingle
        have hmem : "" ∈ nonempty route.path := by
          rw [← hsegments, hsingle]
          exact List.mem_singleton_self ""
        simpa [nonempty] using (List.mem_filter.1 hmem).2
      rw [if_neg fun hboth => hne hboth.1] at h
      split at h
      · cases h
      · next hlength =>
        rw [hsegments] at h hlength hne
        exact App.readsParams.substitute_iff (not_not.1 fun hdiff => hlength ⟨hne, Ne.symm hdiff⟩) h

variable (upper)

/-- Where a route is found, the path can be put together again from its pattern and the parameters if
and only if the parameters of one name stand over equal segments of the path. -/
theorem params_reconstruct_iff (added : List (Router.Added γ)) (registered : List (App.Registered γ))
    (method path : String) :
    (∀ handler params, (Router.ofAdded upper added).resolve upper method path = .ok (handler, params) →
      ∃ route, (Router.ofAdded upper added).firstRoute upper method path = some route ∧
        route.handler = handler ∧
        (substitute Router.paramName params (nonempty route.pattern) = (nonempty path).map some ↔
          Consistent Router.paramName (nonempty route.pattern) (nonempty path))) ∧
    ∀ route params, (App.ofRegistered upper registered).matchRoute method path = some (route, params) →
      (substitute App.paramName params (nonempty route.path) = (nonempty path).map some ↔
        Consistent App.paramName (nonempty route.path) (nonempty path)) := by
  constructor
  · intro handler params h
    unfold Router.resolve at h
    split at h
    · next found hfound =>
      cases h
      obtain ⟨route, hfirst, hhandler, hmatch⟩ := Router.find?_of_resolveLoop hfound
      exact ⟨route, hfirst, hhandler, Router.substitute_iff_of_match
        (Router.segments_ofAdded added route (List.mem_of_find?_eq_some hfirst)) hmatch⟩
    · cases h
  · intro route params h
    obtain ⟨hmem, hmatch⟩ := App.mem_of_matchLoop h
    exact App.substitute_iff_of_match (App.new_ofRegistered registered route hmem) hmatch

end

/-- `GET /a/b` with the pattern `/:id/:id`, or `/{id}/{id}`: the `a` is lost. -/
theorem repeated_name_loses_segment :
    (¬ ∀ (added : List (Router.Added Unit)) (method path : String) (handler : Unit) (params : Params),
      (Router.ofAdded upper added).resolve upper method path = .ok (handler, params) →
        ∃ route, (Router.ofAdded upper added).firstRoute upper method path = some route ∧
          substitute Router.paramName params (nonempty route.pattern) = (nonempty path).map some) ∧
    ¬ ∀ (registered : List (App.Registered Unit)) (method path : String) (route : App.Route Unit)
      (params : Params), (App.ofRegistered upper registered).matchRoute method path = some (route, params) →
        substitute App.paramName params (nonempty route.path) = (nonempty path).map some := by
  constructor
  · intro h
    obtain ⟨route, hroute, hall⟩ := h [⟨"GET", "/:id/:id", ()⟩] "GET" "/a/b" ()
      (((∅ : Params).insert "id" "a").insert "id" "b") rfl
    have hpattern : some "/:id/:id" = some route.pattern := congrArg (Option.map Router.Route.pattern) hroute
    rw [← Option.some.inj hpattern] at hall
    revert hall
    decide +kernel
  · intro h
    have hall := h [⟨"/\x7bid\x7d/\x7bid\x7d", none, ()⟩] "GET" "/a/b" _
      (((∅ : Params).insert "id" "a").insert "id" "b") rfl
    revert hall
    decide +kernel

/-- A parameter behind a literal, in both milestones. -/
theorem params_reconstruct_iff_user :
    (substitute Router.paramName ((∅ : Params).insert "id" "7") (nonempty "/users/:id") =
        (nonempty "/users/7/").map some ↔
      Consistent Router.paramName (nonempty "/users/:id") (nonempty "/users/7/")) ∧
    (substitute App.paramName ((∅ : Params).insert "id" "7") (nonempty "/users/\x7bid\x7d") =
        (nonempty "/users/7/").map some ↔
      Consistent App.paramName (nonempty "/users/\x7bid\x7d") (nonempty "/users/7/")) := by
  obtain ⟨hrouter, happ⟩ := params_reconstruct_iff upper [⟨"get", "/users/:id", ()⟩]
    [⟨"/users/\x7bid\x7d", none, ()⟩] "GET" "/users/7/"
  constructor
  · have hresolve : (Router.ofAdded upper [⟨"get", "/users/:id", ()⟩]).resolve upper "GET" "/users/7/" =
        .ok ((), (∅ : Params).insert "id" "7") := rfl
    obtain ⟨route, hroute, -, hiff⟩ := hrouter () ((∅ : Params).insert "id" "7") hresolve
    have hpattern : some "/users/:id" = some route.pattern := congrArg (Option.map Router.Route.pattern) hroute
    rw [← Option.some.inj hpattern] at hiff
    exact hiff
  · exact happ _ ((∅ : Params).insert "id" "7") rfl

end Portfolio.Framework
