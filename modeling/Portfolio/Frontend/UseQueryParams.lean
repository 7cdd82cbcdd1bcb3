import Portfolio.Lib.JsNumber
import Portfolio.Lib.PairMap

/-!
# `useQueryParams`

The hook of `react/frontend` that keeps a page's parameters in the URL. Writing turns every value into
text, and reading takes every text that `Number` accepts for a number. `updateParams` changes a copy of
the parameters of the render that it belongs to.
-/

namespace Portfolio.Frontend
open Std Js

/-- `URLSearchParams`: the entries in their order. -/
abbrev SearchParams := List (String × String)

namespace SearchParams

def delete (p : SearchParams) (key : String) : SearchParams := p.filter fun e => e.1 ≠ key

/-- The first entry of the key gets the value, and its other entries go. -/
def set (p : SearchParams) (key value : String) : SearchParams :=
  match p with
  | [] => [(key, value)]
  | e :: rest => if e.1 = key then (key, value) :: delete rest key else e :: set rest key value

theorem lastFor_delete (p : SearchParams) (key k : String) :
    lastFor k (p.delete key) = if key = k then none else lastFor k p := by
  by_cases h : key = k
  · subst h
    rw [if_pos rfl, lastFor_eq_none]
    intro e he
    simpa using (List.mem_filter.1 he).2
  · rw [if_neg h]
    induction p with
    | nil => rfl
    | cons e p ih =>
      rw [delete, List.filter_cons, lastFor_cons]
      by_cases he : e.1 = key
      · rw [if_neg (by simpa using he), if_neg (he ▸ h), Option.or_none]
        exact ih
      · rw [if_pos (by simpa using he), lastFor_cons]
        exact congrArg (fun v => v.or (if e.1 = k then some e.2 else none)) ih

theorem lastFor_set (p : SearchParams) (key value k : String) :
    lastFor k (p.set key value) = if key = k then some value else lastFor k p := by
  induction p with
  | nil => exact lastFor_singleton k (key, value)
  | cons e p ih =>
    rw [set]
    split
    · next he =>
      rw [lastFor_cons, lastFor_delete, lastFor_cons, he]
      split
      · rfl
      · rfl
    · next he =>
      rw [lastFor_cons, ih, lastFor_cons]
      split
      · rfl
      · rfl

end SearchParams

/-! ### Writing -/

/-- A value in the argument of `updateParams`. -/
inductive UpdateValue where
  | undefined
  | null
  | text (s : String)
  | number (n : { n : ℤ // IsSafeInteger n })
  deriving DecidableEq

/-- `value === undefined || value === null || value === ''` -/
def UpdateValue.isEmpty : UpdateValue → Bool
  | undefined | null => true
  | text s => s = ""
  | number _ => false

/-- `String(value)` -/
def UpdateValue.toText : UpdateValue → String
  | undefined => "undefined"
  | null => "null"
  | text s => s
  | number n => toString n.1

def writeParam (p : SearchParams) (e : String × UpdateValue) : SearchParams :=
  if e.2.isEmpty then p.delete e.1 else p.set e.1 e.2.toText

/-- The new parameters that `updateParams` makes of those of its render. -/
def updatedParams (searchParams : SearchParams) (updates : List (String × UpdateValue)) : SearchParams :=
  updates.foldl writeParam searchParams

/-- The text that a value leaves in the URL. -/
def UpdateValue.stored (v : UpdateValue) : Option String := if v.isEmpty then none else some v.toText

theorem lastFor_writeParam (p : SearchParams) (e : String × UpdateValue) (k : String) :
    lastFor k (writeParam p e) = if e.1 = k then e.2.stored else lastFor k p := by
  unfold writeParam UpdateValue.stored
  split
  · exact SearchParams.lastFor_delete p e.1 k
  · exact SearchParams.lastFor_set p e.1 e.2.toText k

theorem lastFor_updatedParams (p : SearchParams) (updates : List (String × UpdateValue)) (k : String) :
    lastFor k (updatedParams p updates) =
      match lastFor k updates with
      | some v => v.stored
      | none => lastFor k p := by
  unfold updatedParams
  induction updates generalizing p with
  | nil => rfl
  | cons e updates ih =>
    rw [List.foldl_cons, ih, lastFor_cons, lastFor_writeParam]
    cases lastFor k updates with
    | some v => rfl
    | none =>
      by_cases h : e.1 = k
      · simp [h]
      · simp [h]

/-! ### Reading -/

inductive Param where
  | text (s : String)
  | number (n : Number)
  deriving DecidableEq, Repr

def readParam (value : String) : Param :=
  if !(stringToNumber value).isNaN then .number (stringToNumber value) else .text value

/-- `result[key] = value` for a value that is no object; `__proto__` is not made a property. -/
def assignParam (result : TreeMap String Param) (key : String) (value : Param) : TreeMap String Param :=
  if key = "__proto__" then result else result.insert key value

/-- `params` -/
def readParams (searchParams : SearchParams) : TreeMap String Param :=
  searchParams.foldl (fun result e => assignParam result e.1 (readParam e.2)) ∅

theorem getElem?_readParams (p : SearchParams) (k : String) :
    (readParams p)[k]? = if k = "__proto__" then none else (lastFor k p).map readParam := by
  have hgeneral : ∀ result : TreeMap String Param,
      (p.foldl (fun result e => assignParam result e.1 (readParam e.2)) result)[k]? =
        if k = "__proto__" then result[k]? else ((lastFor k p).map readParam).or result[k]? := by
    induction p with
    | nil =>
      intro result
      split
      · rfl
      · rfl
    | cons e p ih =>
      intro result
      rw [List.foldl_cons, ih, lastFor_cons]
      unfold assignParam
      by_cases hk : k = "__proto__"
      · rw [if_pos hk, if_pos hk]
        split
        · rfl
        · next he =>
          rw [TreeMap.getElem?_insert, if_neg]
          intro hcompare
          exact he ((Std.compare_eq_iff_eq.1 hcompare).trans hk)
      · rw [if_neg hk, if_neg hk]
        by_cases he : e.1 = k
        · rw [if_neg (he ▸ hk), TreeMap.getElem?_insert, if_pos (Std.compare_eq_iff_eq.2 he), if_pos he]
          cases lastFor k p <;> rfl
        · rw [if_neg he, Option.or_none]
          split
          · rfl
          · rw [TreeMap.getElem?_insert, if_neg fun hcompare => he (Std.compare_eq_iff_eq.1 hcompare)]
  have h := hgeneral ∅
  rw [readParams, h]
  simp

theorem readParam_toString {n : ℤ} (h : IsSafeInteger n) : readParam (toString n) = .number (.finite n) := by
  rw [readParam, stringToNumber_toString h]
  rfl

theorem readParam_eq_text {s : String} : readParam s = .text s ↔ stringToNumber s = .nan := by
  unfold readParam
  cases h : stringToNumber s <;> simp [Number.isNaN]

/-! ### Runs -/

/-- The URL and the `searchParams` of every render, each with its own `updateParams`. -/
structure Page where
  url : SearchParams
  renders : List SearchParams := []

inductive PageEvent where
  | render
  | updateParams (render : Nat) (updates : List (String × UpdateValue))

namespace Page

def step (page : Page) : PageEvent → Page
  | .render => { page with renders := page.renders ++ [page.url] }
  | .updateParams render updates => match page.renders[render]? with
    | some searchParams => { page with url := updatedParams searchParams updates }
    | none => page

def run (page : Page) (events : List PageEvent) : Page := events.foldl step page

/-- Every call belongs to a render that shows the URL as it is. -/
def Current (page : Page) (events : List PageEvent) : Prop :=
  ∀ pre render updates post, events = pre ++ .updateParams render updates :: post →
    (page.run pre).renders[render]? = some (page.run pre).url

end Page

/-- The entries of all calls, in their order. -/
def given : List PageEvent → List (String × UpdateValue)
  | [] => []
  | .render :: events => given events
  | .updateParams _ updates :: events => updates ++ given events

theorem given_append (l l' : List PageEvent) : given (l ++ l') = given l ++ given l' := by
  induction l with
  | nil => rfl
  | cons event l ih =>
    cases event with
    | render => exact ih
    | updateParams render updates =>
      rw [List.cons_append, given, ih, given, List.append_assoc]

/-- The parameter that a value should be read as. -/
def UpdateValue.param : UpdateValue → Option Param
  | undefined | null => none
  | text s => if s = "" then none else some (.text s)
  | number n => some (.number (.finite n.1))

/-- The next render has every key with the last value given for it, and the other keys as they were. -/
def RoundTrips (page : Page) (events : List PageEvent) : Prop :=
  ∀ key, (readParams (page.run events).url)[key]? =
    match lastFor key (given events) with
    | some v => v.param
    | none => (readParams page.url)[key]?

/-- The value is removed, or it is a number, or a text that is none. -/
def UpdateValue.Survives (key : String) : UpdateValue → Prop
  | undefined | null => True
  | text s => s = "" ∨ (key ≠ "__proto__" ∧ stringToNumber s = .nan)
  | number _ => key ≠ "__proto__"

theorem Page.Current.of_concat {page : Page} {events : List PageEvent} {event : PageEvent}
    (h : page.Current (events ++ [event])) : page.Current events := by
  rintro pre render updates post rfl
  exact h pre render updates (post ++ [event]) (by simp)

theorem Page.Current.lastFor_url {page : Page} {events : List PageEvent} (h : page.Current events)
    (key : String) : lastFor key (page.run events).url =
      match lastFor key (given events) with
      | some v => v.stored
      | none => lastFor key page.url := by
  induction events using List.reverseRecOn with
  | nil => rfl
  | append_singleton events event ih =>
    have hrun : page.run (events ++ [event]) = (page.run events).step event := List.foldl_concat ..
    rw [hrun, given_append, lastFor_append]
    cases event with
    | render => exact ih h.of_concat
    | updateParams render updates =>
      have hrender := h events render updates [] rfl
      have hurl : ((page.run events).step (.updateParams render updates)).url =
          updatedParams (page.run events).url updates := by
        rw [step, hrender]
      rw [hurl, lastFor_updatedParams, ih h.of_concat, given, given, List.append_nil]
      cases lastFor key updates with
      | some v => rfl
      | none => rfl

theorem UpdateValue.read_stored_iff (key : String) (v : UpdateValue) :
    (if key = "__proto__" then none else v.stored.map readParam) = v.param ↔ v.Survives key := by
  cases v with
  | undefined => simp [stored, isEmpty, param, Survives]
  | null => simp [stored, isEmpty, param, Survives]
  | text s =>
    by_cases hs : s = ""
    · simp [stored, isEmpty, param, Survives, hs]
    · by_cases hkey : key = "__proto__"
      · simp [param, Survives, hs, hkey]
      · simp [stored, isEmpty, toText, param, Survives, hs, hkey, readParam_eq_text]
  | number n =>
    by_cases hkey : key = "__proto__"
    · simp [param, Survives, hkey]
    · refine iff_of_true ?_ hkey
      rw [if_neg hkey]
      exact congrArg some (readParam_toString n.2)

/-- Where every call belongs to a render that shows the URL as it is, the parameters come back if and
only if no key's last value is a text that `Number` accepts, nor a value for `__proto__`. -/
theorem params_round_trip_iff (page : Page) (events : List PageEvent) (h : page.Current events) :
    RoundTrips page events ↔ ∀ key v, lastFor key (given events) = some v → v.Survives key := by
  have hread : ∀ key, (readParams (page.run events).url)[key]? =
      match lastFor key (given events) with
      | some v => if key = "__proto__" then none else v.stored.map readParam
      | none => (readParams page.url)[key]? := by
    intro key
    rw [getElem?_readParams, h.lastFor_url, getElem?_readParams]
    cases lastFor key (given events) with
    | some v => rfl
    | none => rfl
  constructor
  · intro hround key v hlast
    have hkey := hround key
    rw [hread, hlast] at hkey
    exact (UpdateValue.read_stored_iff key v).1 hkey
  · intro hsurvives key
    rw [hread]
    cases hlast : lastFor key (given events) with
    | some v => exact (UpdateValue.read_stored_iff key v).2 (hsurvives key v hlast)
    | none => rfl

/-- The product number `007` comes back as a number; of two calls from one render, the first is lost. -/
theorem params_not_round_trip :
    ¬ RoundTrips ⟨[], [[]]⟩ [.updateParams 0 [("q", .text "007")]] ∧
    ¬ RoundTrips ⟨[], [[]]⟩
      [.updateParams 0 [("q", .text "lamp")], .updateParams 0 [("page", .number ⟨1, by decide⟩)]] := by
  have hnumber : readParam "007" = .number (.finite 7) := by decide +kernel
  constructor
  · intro h
    have hq : (readParams [("q", "007")])["q"]? = some (.text "007") := h "q"
    rw [getElem?_readParams] at hq
    have hread : some (readParam "007") = some (.text "007") := hq
    rw [hnumber] at hread
    cases hread
  · intro h
    have hq : (readParams [("page", "1")])["q"]? = some (.text "lamp") := h "q"
    rw [getElem?_readParams] at hq
    cases hq

/-- A search, and the next page of it on the render that follows. -/
theorem params_round_trip_iff_pages :
    RoundTrips ⟨[("sort", "name")], [[("sort", "name")]]⟩
      [.updateParams 0 [("q", .text "lamp"), ("brand", .text "")], .render,
        .updateParams 1 [("page", .number ⟨2, by decide⟩)]] := by
  refine (params_round_trip_iff _ _ ?_).2 ?_
  · intro pre render updates post heq
    rcases pre with _ | ⟨first, _ | ⟨second, _ | ⟨third, pre⟩⟩⟩
    · cases heq
      rfl
    · cases heq
    · cases heq
      rfl
    · exact absurd (congrArg List.length heq) (by simp)
  · intro key v hlast
    have hmem : (key, v) ∈ [("q", .text "lamp"), ("brand", .text ""), ("page", .number ⟨2, by decide⟩)] :=
      mem_of_lastFor hlast
    have hlamp : stringToNumber "lamp" = .nan := by decide +kernel
    simp only [List.mem_cons, List.not_mem_nil, or_false, Prod.mk.injEq] at hmem
    rcases hmem with ⟨rfl, rfl⟩ | ⟨rfl, rfl⟩ | ⟨rfl, rfl⟩
    · exact .inr ⟨by decide, hlamp⟩
    · exact .inl rfl
    · exact (by decide : "page" ≠ "__proto__")

end Portfolio.Frontend
