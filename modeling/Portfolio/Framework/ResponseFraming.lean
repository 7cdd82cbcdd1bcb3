import Portfolio.Framework.Responses
import Portfolio.Lib.Text

/-!
# How responses are framed

A client reads back the status line, the headers of the merged dictionary and the payload
(`parseResponse_responseBytes`). So framing is a matter of that dictionary: HTTP names are
case-insensitive and its keys are not, and each milestone lets other spellings through.
-/

namespace Portfolio.Framework
open Std Py

/-! ### Lines -/

def NoLineEnd (cs : List Char) : Prop := '\r' ∉ cs ∧ '\n' ∉ cs

instance (cs : List Char) : Decidable (NoLineEnd cs) := inferInstanceAs (Decidable (_ ∧ _))

theorem NoLineEnd.append {cs ds : List Char} (hc : NoLineEnd cs) (hd : NoLineEnd ds) :
    NoLineEnd (cs ++ ds) := by
  simp [NoLineEnd, hc.1, hc.2, hd.1, hd.2]

theorem NoLineEnd.notMem_crlf {cs : List Char} (h : NoLineEnd cs) : ∀ c ∈ cs, c ∉ crlf := by
  rintro c hc hcrlf
  simp only [crlf, List.mem_cons, List.not_mem_nil, or_false] at hcrlf
  rcases hcrlf with rfl | rfl
  · exact h.1 hc
  · exact h.2 hc

theorem IsToken.noLineEnd {s : String} (h : IsToken s) : NoLineEnd s.toList :=
  ⟨h.plain.notMem (by decide), h.plain.notMem (by decide)⟩

theorem noLineEnd_toString (n : Nat) : NoLineEnd (toString n).toList := by
  have hdigits : ∀ c ∈ (toString n).toList, c.isDigit = true := by
    intro c hc
    rw [show toString n = Nat.repr n from rfl, Nat.toList_repr] at hc
    exact isDigit_toDigits hc
  exact ⟨fun h => absurd (hdigits _ h) (by decide), fun h => absurd (hdigits _ h) (by decide)⟩

theorem lineText_headLine {text : List Char} (h : NoLineEnd text) : lineText (headLine text) = text := by
  have hend : ∀ c ∈ crlf.reverse, decide (c ∈ crlf) := fun c hc => decide_eq_true (List.mem_reverse.1 hc)
  have hline : decodeUtf8 (headLine text) = text ++ crlf := decodeUtf8_utf8 _
  unfold lineText
  rw [hline, List.rdropWhile, List.reverse_append, List.dropWhile_append_of_pos hend]
  show text.rdropWhile _ = text
  refine List.rdropWhile_eq_self_iff.2 fun hne => ?_
  simpa using h.notMem_crlf _ (List.getLast_mem hne)

theorem intercalate_crlf {ls : List (List Char)} (h : ls ≠ []) :
    crlf.intercalate ls ++ crlf = (ls.map fun text => text ++ crlf).flatten := by
  induction ls with
  | nil => exact absurd rfl h
  | cons text ls ih =>
    rcases ls with _ | ⟨next, ls⟩
    · simp
    · rw [List.map_cons, List.flatten_cons, ← ih (List.cons_ne_nil _ _)]
      simp

theorem utf8_flatten (ls : List (List Char)) : utf8 ls.flatten = (ls.map utf8).flatten := by
  induction ls with
  | nil => rfl
  | cons cs ls ih => rw [List.flatten_cons, utf8_append, ih, List.map_cons, List.flatten_cons]

/-! ### Reading the bytes back -/

/-- The names are tokens without a colon, and no value ends a line. -/
structure Sendable (headers : HeaderDict) : Prop where
  name : ∀ e ∈ headers.items, IsToken e.1 ∧ ':' ∉ e.1.toList
  value : ∀ e ∈ headers.items, NoLineEnd e.2.toList

/-- The fields of a dictionary, with the names in lower case. -/
def lowered (headers : HeaderDict) : List (String × String) := headers.items.map fun e => (lower e.1, e.2)

section
variable {status : Nat} {reason : String} {headers : HeaderDict}

theorem responseBytes_eq (hne : headers.items ≠ []) (payload : Bytes) :
    responseBytes status reason headers payload = headLine (statusLine status reason).toList ++
      ((headers.items.map fun e => headLine (headerText e)).flatten ++ headLine [] ++ payload) := by
  have hlines : crlf.intercalate (headers.items.map headerText) ++ (crlf ++ crlf) =
      (headers.items.map fun e => headerText e ++ crlf).flatten ++ crlf := by
    rw [← List.append_assoc, intercalate_crlf (by simpa using hne), List.map_map]
    rfl
  have hfields : utf8 (headers.items.map fun e => headerText e ++ crlf).flatten =
      (headers.items.map fun e => headLine (headerText e)).flatten := by
    rw [utf8_flatten, List.map_map]
    rfl
  have hstart : headLine (statusLine status reason).toList =
      utf8 ((statusLine status reason).toList ++ crlf) := rfl
  have hend : headLine [] = utf8 crlf := rfl
  rw [responseBytes, List.append_assoc, hlines, utf8_append, utf8_append (List.flatten _), hfields, hstart,
    hend, List.append_assoc]

theorem Sendable.noLineEnd_headerText (h : Sendable headers) {e : String × String}
    (he : e ∈ headers.items) : NoLineEnd (headerText e) := by
  have hcolon : NoLineEnd [':', ' '] := by decide
  have htext := ((h.name e he).1.noLineEnd.append hcolon).append (h.value e he)
  simpa [headerText] using htext

theorem Sendable.fieldOf_headLine (h : Sendable headers) {e : String × String} (he : e ∈ headers.items) :
    fieldOf (headLine (headerText e)) = (lower e.1, e.2) := by
  have hname : ∀ c ∈ e.1.toList, decide (c ≠ ':') := by
    rintro c hc
    refine decide_eq_true ?_
    rintro rfl
    exact (h.name e he).2 hc
  unfold fieldOf
  rw [lineText_headLine (h.noLineEnd_headerText he), headerText, List.takeWhile_append_of_pos hname,
    List.dropWhile_append_of_pos hname]
  simp

theorem Sendable.areHeaderLines (h : Sendable headers) :
    AreHeaderLines (headers.items.map fun e => headLine (headerText e)) := by
  refine List.forall_mem_map.2 fun e he => ?_
  have hne : headerText e ≠ [] := List.append_ne_nil_of_left_ne_nil (h.name e he).1.ne_nil _
  exact ⟨isLine_headLine (h.noLineEnd_headerText he).2, not_isEmptyLine_headLine hne⟩

theorem noLineEnd_statusLine (status : Nat) (hreason : NoLineEnd reason.toList) :
    NoLineEnd (statusLine status reason).toList := by
  have hversion : NoLineEnd "HTTP/1.1 ".toList := by decide
  have hspace : NoLineEnd " ".toList := by decide
  rw [statusLine, String.toList_append, String.toList_append, String.toList_append]
  exact ((hversion.append (noLineEnd_toString status)).append hspace).append hreason

/-- A client reads the status line, the fields and the payload. -/
theorem parseResponse_responseBytes (status : Nat) (hreason : NoLineEnd reason.toList)
    (h : Sendable headers) (hne : headers.items ≠ []) (payload : Bytes) :
    parseResponse (responseBytes status reason headers payload) =
      some ⟨statusLine status reason, lowered headers, payload⟩ := by
  have hstatus := noLineEnd_statusLine status hreason
  have hempty : IsEmptyLine (headLine []) := .inl rfl
  have hsection := headerSection_append h.areHeaderLines hempty payload
  have hcolons : ∀ line ∈ headers.items.map fun e => headLine (headerText e), ':' ∈ lineText line := by
    refine List.forall_mem_map.2 fun e he => ?_
    rw [lineText_headLine (h.noLineEnd_headerText he), headerText]
    simp
  have hfields : (headers.items.map fun e => headLine (headerText e)).map fieldOf = lowered headers := by
    rw [List.map_map]
    exact List.map_congr_left fun e he => h.fieldOf_headLine he
  unfold parseResponse
  rw [responseBytes_eq hne, readline_line (isLine_headLine hstatus.2)]
  dsimp only
  rw [hsection, if_pos ⟨rfl, hcolons⟩, hfields, lineText_headLine hstatus, String.ofList_toList]

end

/-! ### Fields and keys -/

/-- There is one field of a name if and only if one key of the dictionary is a spelling of it. -/
theorem exists_valuesOf_iff (d : HeaderDict) (name : String) (P : String → Prop) :
    (∃ value, valuesOf name (lowered d) = [value] ∧ P value) ↔
      ∃ e ∈ d.items, lower e.1 = name ∧ P e.2 ∧ ∀ e' ∈ d.items, lower e'.1 = name → e'.1 = e.1 := by
  have hvalues : valuesOf name (lowered d) = (d.items.filter fun e => lower e.1 = name).map Prod.snd := by
    rw [valuesOf, lowered, List.filter_map, List.map_map]
    rfl
  rw [hvalues]
  constructor
  · rintro ⟨value, hvalue, hP⟩
    obtain ⟨e, hfilter, rfl⟩ := List.map_eq_singleton_iff.1 hvalue
    obtain ⟨he, hname, hall⟩ := Dict.filter_items_eq_singleton_iff.1 hfilter
    exact ⟨e, he, of_decide_eq_true hname, hP, fun e' he' h => hall e' he' (decide_eq_true h)⟩
  · rintro ⟨e, he, hname, hP, hall⟩
    refine ⟨e.2, List.map_eq_singleton_iff.2 ⟨e, ?_, rfl⟩, hP⟩
    exact Dict.filter_items_eq_singleton_iff.2
      ⟨he, decide_eq_true hname, fun e' he' h => hall e' he' (of_decide_eq_true h)⟩

theorem lengthIn_toString (n : Nat) : lengthIn (toString n) = some n := by
  have htext : (toString n).toList = Nat.toDigits 10 n := Nat.toList_repr
  have hdigit : ∀ c ∈ Nat.toDigits 10 n, c.isDigit = true := fun c hc => isDigit_toDigits hc
  have htrimmed : Trimmed (fun c => c = ' ' ∨ c = '\t') (Nat.toDigits 10 n) := by
    refine .of_forall fun c hc => decide_eq_false ?_
    rintro (rfl | rfl)
    · exact absurd (hdigit _ hc) (by decide)
    · exact absurd (hdigit _ hc) (by decide)
  have hstrip := strip_surrounded (l := []) (r := []) nofun nofun htrimmed
  rw [List.nil_append, List.append_nil] at hstrip
  have hdecimal : decimal (Nat.toDigits 10 n) = n := Nat.ofDigitChars_ten_toDigits
  unfold lengthIn
  rw [htext, hstrip]
  dsimp only
  rw [if_pos ⟨Nat.toDigits_ne_nil, hdigit⟩, hdecimal]

/-- The merged dictionary decides how a response is framed. -/
theorem wellFramed_iff {status : Nat} {reason : String} {own sent : HeaderDict} {payload : Bytes}
    (hreason : NoLineEnd reason.toList) (hsent : Sendable sent) (hne : sent.items ≠ []) :
    WellFramed (statusLine status reason) own payload (responseBytes status reason sent payload) ↔
      (∃ e ∈ sent.items, lower e.1 = "content-length" ∧ lengthIn e.2 = some payload.length ∧
        ∀ e' ∈ sent.items, lower e'.1 = "content-length" → e'.1 = e.1) ∧
      (∃ e ∈ sent.items, lower e.1 = "content-type" ∧
        ∀ e' ∈ sent.items, lower e'.1 = "content-type" → e'.1 = e.1) ∧
      ∀ e ∈ own.items, lower e.1 ≠ "content-length" → lower e.1 ≠ "content-type" →
        (lower e.1, e.2) ∈ lowered sent := by
  have hparse := parseResponse_responseBytes status hreason hsent hne payload
  have hlength := exists_valuesOf_iff sent "content-length" fun value =>
    lengthIn value = some payload.length
  have htype := exists_valuesOf_iff sent "content-type" fun _ => True
  simp only [and_true, true_and] at htype
  rw [← hlength, ← htype]
  unfold WellFramed
  rw [hparse]
  constructor
  · rintro ⟨parsed, hparsed, -, hframes⟩
    cases hparsed
    exact ⟨hframes.length, hframes.type, hframes.others⟩
  · rintro ⟨hlength, htype, hothers⟩
    exact ⟨_, rfl, rfl, hlength, htype, hothers, rfl⟩

theorem mem_lowered {headers : HeaderDict} {e : String × String} (h : e ∈ headers.items) :
    (lower e.1, e.2) ∈ lowered headers := List.mem_map.2 ⟨e, h, rfl⟩

theorem lower_contentLength : lower "Content-Length" = "content-length" := by decide +kernel

theorem lower_contentType : lower "Content-Type" = "content-type" := by decide +kernel

theorem lower_contentLength_ne : lower "Content-Length" ≠ "content-type" := by
  rw [lower_contentLength]
  decide

theorem lower_contentType_ne : lower "Content-Type" ≠ "content-length" := by
  rw [lower_contentType]
  decide

theorem isToken_contentLength : IsToken "Content-Length" ∧ ':' ∉ "Content-Length".toList := by decide +kernel

theorem isToken_contentType : IsToken "Content-Type" ∧ ':' ∉ "Content-Type".toList := by decide +kernel

theorem noLineEnd_lookup {table : List (Nat × String)} (h : ∀ p ∈ table, NoLineEnd p.2.toList)
    {default : String} (hdefault : NoLineEnd default.toList) (status : Nat) :
    NoLineEnd ((table.lookup status).getD default).toList := by
  cases hlookup : table.lookup status with
  | none => exact hdefault
  | some reason =>
    obtain ⟨l₁, l₂, htable, -⟩ := List.lookup_eq_some_iff.1 hlookup
    exact h (status, reason) (htable ▸ List.mem_append_right _ List.mem_cons_self)

theorem noLineEnd_type (p : Prop) [Decidable p] :
    NoLineEnd (if p then "application/json" else "text/plain").toList := by
  split
  · decide
  · decide

/-- With a length and a type of the framework, a dictionary stays sendable. -/
theorem Sendable.merged {own sent : HeaderDict} {type : String} (length : Nat) (h : Sendable own)
    (htype : NoLineEnd type.toList) (hsent : ∀ name value, (name, value) ∈ sent.items →
      (name, value) ∈ own.items ∨ (name = "Content-Length" ∧ value = toString length) ∨
        (name = "Content-Type" ∧ value = type)) : Sendable sent := by
  constructor
  · rintro ⟨name, value⟩ he
    rcases hsent name value he with hown | ⟨rfl, -⟩ | ⟨rfl, -⟩
    · exact h.name _ hown
    · exact isToken_contentLength
    · exact isToken_contentType
  · rintro ⟨name, value⟩ he
    rcases hsent name value he with hown | ⟨-, rfl⟩ | ⟨-, rfl⟩
    · exact h.value _ hown
    · exact noLineEnd_toString _
    · exact htype

/-! ### Milestone 1.1 -/

namespace HttpResponse
variable (response : HttpResponse)

/-- The dictionary of the handler. -/
def own : HeaderDict := .ofItems response.headers

def defaultType : String := if response.body ≠ "" then "application/json" else "text/plain"

/-- What `to_bytes` sends: the handler's headers but its lengths, the length, and a type if the handler
has none under the very name. -/
theorem mem_sentHeaders {name value : String} : (name, value) ∈ response.sentHeaders.items ↔
    ((name, value) ∈ response.own.items ∧ lower name ≠ "content-length") ∨
    (name = "Content-Length" ∧ value = toString (utf8 response.body.toList).length) ∨
    (name = "Content-Type" ∧ (∀ v, (name, v) ∉ response.own.items) ∧ value = response.defaultType) := by
  have hfilter : ∀ v, (name, v) ∈ (response.own.filterKeys fun k => lower k ≠ "content-length").items ↔
      (name, v) ∈ response.own.items ∧ lower name ≠ "content-length" := by
    intro v
    simp
  have hsent : response.sentHeaders = ((Dict.empty.set "Content-Length"
      (toString (utf8 response.body.toList).length)).set "Content-Type"
      ((response.own.get? "Content-Type").getD response.defaultType)).update
      (response.own.filterKeys fun k => lower k ≠ "content-length") := rfl
  rw [hsent, Dict.mem_items_update, Dict.mem_items_set, Dict.mem_items_set]
  simp only [hfilter, Dict.items_empty, List.not_mem_nil, and_false, or_false, not_and, not_not]
  refine or_congr_right ?_
  by_cases htype : name = "Content-Type"
  · subst htype
    have hother : ("Content-Type" : String) ≠ "Content-Length" := by decide
    cases hget : response.own.get? "Content-Type" with
    | none =>
      have hnone : ∀ v, ("Content-Type", v) ∉ response.own.items := by
        intro v hv
        rw [Dict.get?_eq_some_iff.2 hv] at hget
        cases hget
      simp [hnone, hother]
    | some v =>
      have hv := Dict.get?_eq_some_iff.1 hget
      refine iff_of_false (fun h => lower_contentType_ne (h.1 v hv)) ?_
      rintro (⟨h, -⟩ | ⟨-, hnone, -⟩)
      · exact hother h
      · exact hnone v hv
  · simp only [htype, false_and, ne_eq, not_false_eq_true, true_and, false_or, or_false]
    exact ⟨fun h => h.2, fun h => ⟨fun v _ => h.1 ▸ lower_contentLength, h⟩⟩

theorem sendable_sentHeaders (h : Sendable response.own) : Sendable response.sentHeaders := by
  refine h.merged (utf8 response.body.toList).length (noLineEnd_type (response.body ≠ "")) ?_
  intro name value he
  rcases response.mem_sentHeaders.1 he with ⟨hown, -⟩ | ⟨hname, hvalue⟩ | ⟨hname, -, hvalue⟩
  · exact .inl hown
  · exact .inr (.inl ⟨hname, hvalue⟩)
  · exact .inr (.inr ⟨hname, hvalue⟩)

/-- The handler spells the type in no other way than the framework. -/
def TypeSpelled (headers : HeaderDict) : Prop :=
  ∀ e ∈ headers.items, lower e.1 = "content-type" → e.1 = "Content-Type"

theorem mem_contentLength : ("Content-Length", toString (utf8 response.body.toList).length) ∈
    response.sentHeaders.items := response.mem_sentHeaders.2 (.inr (.inl ⟨rfl, rfl⟩))

theorem exists_contentType : ∃ value, ("Content-Type", value) ∈ response.sentHeaders.items := by
  by_cases h : ∃ v, ("Content-Type", v) ∈ response.own.items
  · obtain ⟨v, hv⟩ := h
    exact ⟨v, response.mem_sentHeaders.2 (.inl ⟨hv, lower_contentType_ne⟩)⟩
  · exact ⟨_, response.mem_sentHeaders.2 (.inr (.inr ⟨rfl, not_exists.1 h, rfl⟩))⟩

theorem wellFramed_toBytes_iff (h : Sendable response.own) :
    WellFramed (statusLine response.statusCode response.reason) response.own (utf8 response.body.toList)
      response.toBytes ↔ TypeSpelled response.own := by
  have hreason : NoLineEnd response.reason.toList :=
    noLineEnd_lookup (by decide) (by decide) response.statusCode
  have hlength := response.mem_contentLength
  unfold toBytes
  rw [wellFramed_iff hreason (response.sendable_sentHeaders h) (List.ne_nil_of_mem hlength)]
  constructor
  · rintro ⟨-, ⟨e, he, hlower, hall⟩, -⟩ ⟨name, value⟩ hown hname
    obtain ⟨v, hv⟩ := response.exists_contentType
    have hsent : (name, value) ∈ response.sentHeaders.items := by
      refine response.mem_sentHeaders.2 (.inl ⟨hown, ?_⟩)
      rw [hname]
      decide
    exact (hall _ hsent hname).trans (hall _ hv lower_contentType).symm
  · intro hspelled
    refine ⟨⟨_, hlength, lower_contentLength, lengthIn_toString _, ?_⟩, ?_, ?_⟩
    · rintro ⟨name, value⟩ he hname
      rcases response.mem_sentHeaders.1 he with ⟨-, hne⟩ | ⟨rfl, -⟩ | ⟨rfl, -⟩
      · exact absurd hname hne
      · rfl
      · exact absurd hname lower_contentType_ne
    · obtain ⟨v, hv⟩ := response.exists_contentType
      refine ⟨_, hv, lower_contentType, ?_⟩
      rintro ⟨name, value⟩ he hname
      rcases response.mem_sentHeaders.1 he with ⟨hown, -⟩ | ⟨rfl, -⟩ | ⟨rfl, -⟩
      · exact hspelled _ hown hname
      · exact absurd hname lower_contentLength_ne
      · rfl
    · rintro ⟨name, value⟩ hown hlength -
      exact mem_lowered (response.mem_sentHeaders.2 (.inl ⟨hown, hlength⟩))

end HttpResponse

/-! ### Milestone 1.2 -/

namespace FullResponse
variable (response : FullResponse)

/-- The dictionary of the handler. -/
def own : HeaderDict := .ofItems response.headers

def payload : Bytes := response.body.payload

def defaultType : String := if response.payload ≠ [] then "application/json" else "text/plain"

/-- The handler's headers after the length. -/
def merged : HeaderDict :=
  (Dict.empty.set "Content-Length" (toString response.payload.length)).update response.own

def sentHeaders : HeaderDict := response.ensureSerialised.2

theorem mem_merged {name value : String} : (name, value) ∈ response.merged.items ↔
    (name, value) ∈ response.own.items ∨
      (name = "Content-Length" ∧ (∀ v, (name, v) ∉ response.own.items) ∧
        value = toString response.payload.length) := by
  rw [merged, Dict.mem_items_update, Dict.mem_items_set]
  simp only [Dict.items_empty, List.not_mem_nil, and_false, or_false]
  tauto

theorem contentType_notMem_merged : ("content-type" ∉ response.merged.items.map fun e => lower e.1) ↔
    ∀ e ∈ response.own.items, lower e.1 ≠ "content-type" := by
  rw [List.mem_map, not_exists]
  constructor
  · intro h e he hname
    exact h e ⟨response.mem_merged.2 (.inl he), hname⟩
  · rintro h ⟨name, value⟩ ⟨he, hname⟩
    rcases response.mem_merged.1 he with hown | ⟨rfl, -, -⟩
    · exact h _ hown hname
    · exact absurd hname lower_contentLength_ne

theorem sentHeaders_eq : response.sentHeaders =
    if "content-type" ∉ response.merged.items.map fun e => lower e.1 then
      response.merged.set "Content-Type" response.defaultType
    else response.merged := apply_ite Prod.snd _ _ _

/-- What is sent: the handler's headers, the length if it has none under the very name, and a type if
it has none in any spelling. -/
theorem mem_sentHeaders {name value : String} : (name, value) ∈ response.sentHeaders.items ↔
    (name, value) ∈ response.own.items ∨
    (name = "Content-Length" ∧ (∀ v, (name, v) ∉ response.own.items) ∧
      value = toString response.payload.length) ∨
    (name = "Content-Type" ∧ (∀ e ∈ response.own.items, lower e.1 ≠ "content-type") ∧
      value = response.defaultType) := by
  rw [sentHeaders_eq]
  by_cases hnone : ∀ e ∈ response.own.items, lower e.1 ≠ "content-type"
  · rw [if_pos (response.contentType_notMem_merged.2 hnone), Dict.mem_items_set, mem_merged]
    constructor
    · rintro (⟨hname, hvalue⟩ | ⟨-, hold⟩)
      · exact .inr (.inr ⟨hname, hnone, hvalue⟩)
      · rcases hold with hown | hlength
        · exact .inl hown
        · exact .inr (.inl hlength)
    · rintro (hown | hlength | ⟨hname, -, hvalue⟩)
      · refine .inr ⟨?_, .inl hown⟩
        rintro rfl
        exact hnone _ hown lower_contentType
      · refine .inr ⟨?_, .inr hlength⟩
        rw [hlength.1]
        decide
      · exact .inl ⟨hname, hvalue⟩
  · rw [if_neg fun h => hnone (response.contentType_notMem_merged.1 h), mem_merged]
    simp only [hnone, false_and, and_false, or_false]

theorem sendable_sentHeaders (h : Sendable response.own) : Sendable response.sentHeaders := by
  refine h.merged response.payload.length (noLineEnd_type (response.payload ≠ [])) ?_
  intro name value he
  rcases response.mem_sentHeaders.1 he with hown | ⟨hname, -, hvalue⟩ | ⟨hname, -, hvalue⟩
  · exact .inl hown
  · exact .inr (.inl ⟨hname, hvalue⟩)
  · exact .inr (.inr ⟨hname, hvalue⟩)

/-- The handler spells the length in no other way than the framework and gives that of the payload, and
it spells the type in one way. -/
structure Spelled (headers : HeaderDict) (length : Nat) : Prop where
  length : ∀ e ∈ headers.items, lower e.1 = "content-length" →
    e.1 = "Content-Length" ∧ lengthIn e.2 = some length
  type : ∀ e ∈ headers.items, ∀ e' ∈ headers.items,
    lower e.1 = "content-type" → lower e'.1 = "content-type" → e.1 = e'.1

theorem exists_contentLength : ∃ value, ("Content-Length", value) ∈ response.sentHeaders.items := by
  by_cases h : ∃ v, ("Content-Length", v) ∈ response.own.items
  · obtain ⟨v, hv⟩ := h
    exact ⟨v, response.mem_sentHeaders.2 (.inl hv)⟩
  · exact ⟨_, response.mem_sentHeaders.2 (.inr (.inl ⟨rfl, not_exists.1 h, rfl⟩))⟩

theorem length_iff :
    (∃ e ∈ response.sentHeaders.items, lower e.1 = "content-length" ∧
      lengthIn e.2 = some response.payload.length ∧
      ∀ e' ∈ response.sentHeaders.items, lower e'.1 = "content-length" → e'.1 = e.1) ↔
    ∀ e ∈ response.own.items, lower e.1 = "content-length" →
      e.1 = "Content-Length" ∧ lengthIn e.2 = some response.payload.length := by
  constructor
  · rintro ⟨e, he, hlower, hlength, hall⟩ e' hown hname
    have hsent : e' ∈ response.sentHeaders.items := response.mem_sentHeaders.2 (.inl hown)
    obtain ⟨v, hv⟩ := response.exists_contentLength
    have hsame : e' = e := Dict.eq_of_mem hsent he (hall e' hsent hname)
    rw [hsame]
    exact ⟨(hall _ hv lower_contentLength).symm, hlength⟩
  · intro h
    have hname : ∀ e ∈ response.sentHeaders.items, lower e.1 = "content-length" → e.1 = "Content-Length" := by
      rintro ⟨name, value⟩ he hname
      rcases response.mem_sentHeaders.1 he with hown | ⟨rfl, -⟩ | ⟨rfl, -⟩
      · exact (h _ hown hname).1
      · rfl
      · exact absurd hname lower_contentType_ne
    obtain ⟨v, hv⟩ := response.exists_contentLength
    refine ⟨_, hv, lower_contentLength, ?_, hname⟩
    rcases response.mem_sentHeaders.1 hv with hown | ⟨-, -, hvalue⟩ | ⟨htype, -⟩
    · exact (h _ hown lower_contentLength).2
    · rw [hvalue]
      exact lengthIn_toString _
    · exact absurd htype (by decide)

theorem type_iff :
    (∃ e ∈ response.sentHeaders.items, lower e.1 = "content-type" ∧
      ∀ e' ∈ response.sentHeaders.items, lower e'.1 = "content-type" → e'.1 = e.1) ↔
    ∀ e ∈ response.own.items, ∀ e' ∈ response.own.items,
      lower e.1 = "content-type" → lower e'.1 = "content-type" → e.1 = e'.1 := by
  constructor
  · rintro ⟨e, he, hlower, hall⟩ e₁ h₁ e₂ h₂ hname₁ hname₂
    rw [hall e₁ (response.mem_sentHeaders.2 (.inl h₁)) hname₁,
      hall e₂ (response.mem_sentHeaders.2 (.inl h₂)) hname₂]
  · intro h
    by_cases hsome : ∃ e ∈ response.own.items, lower e.1 = "content-type"
    · obtain ⟨e, hown, hlower⟩ := hsome
      refine ⟨e, response.mem_sentHeaders.2 (.inl hown), hlower, ?_⟩
      rintro ⟨name, value⟩ he hname
      rcases response.mem_sentHeaders.1 he with hown' | ⟨rfl, -⟩ | ⟨-, hother, -⟩
      · exact h _ hown' _ hown hname hlower
      · exact absurd hname lower_contentLength_ne
      · exact absurd hlower (hother _ hown)
    · have hnone : ∀ e ∈ response.own.items, lower e.1 ≠ "content-type" :=
        fun e he hname => hsome ⟨e, he, hname⟩
      refine ⟨_, response.mem_sentHeaders.2 (.inr (.inr ⟨rfl, hnone, rfl⟩)), lower_contentType, ?_⟩
      rintro ⟨name, value⟩ he hname
      rcases response.mem_sentHeaders.1 he with hown | ⟨rfl, -⟩ | ⟨rfl, -⟩
      · exact absurd hname (hnone _ hown)
      · exact absurd hname lower_contentLength_ne
      · rfl

theorem wellFramed_sendResponse_iff (h : Sendable response.own) :
    WellFramed (statusLine response.status (App.reason response.status)) response.own response.payload
      (App.sendResponse response) ↔ Spelled response.own response.payload.length := by
  have hreason : NoLineEnd (App.reason response.status).toList :=
    noLineEnd_lookup (by decide) (by decide) response.status
  obtain ⟨v, hv⟩ := response.exists_contentLength
  have hbytes : App.sendResponse response = responseBytes response.status (App.reason response.status)
      response.sentHeaders response.payload := by
    unfold App.sendResponse toHttpResponse sentHeaders ensureSerialised
    dsimp only
    split
    · rfl
    · rfl
  rw [hbytes, wellFramed_iff hreason (response.sendable_sentHeaders h) (List.ne_nil_of_mem hv),
    length_iff, type_iff]
  constructor
  · rintro ⟨hlength, htype, -⟩
    exact ⟨hlength, htype⟩
  · intro hspelled
    refine ⟨hspelled.length, hspelled.type, fun e hown _ _ => ?_⟩
    exact mem_lowered (response.mem_sentHeaders.2 (.inl hown))

end FullResponse

/-! ### The responses of the servers themselves -/

/-- `Response` with its text as the body. -/
def Response.full (response : Response) : FullResponse := ⟨response.status, .str response.body, response.headers⟩

/-- A dictionary with a JSON type at most. -/
theorem sendable_json {headers : HeaderDict}
    (h : headers.items = [] ∨ headers.items = [("Content-Type", "application/json")]) :
    Sendable headers ∧ HttpResponse.TypeSpelled headers ∧ ∀ length, FullResponse.Spelled headers length := by
  have hname : ∀ e ∈ headers.items, e = ("Content-Type", "application/json") := by
    intro e he
    rcases h with h | h
    · rw [h] at he
      cases he
    · rw [h] at he
      exact List.mem_singleton.1 he
  refine ⟨⟨fun e he => ?_, fun e he => ?_⟩, fun e he _ => ?_, fun length => ⟨fun e he hlength => ?_, ?_⟩⟩
  · rw [hname e he]
    exact isToken_contentType
  · rw [hname e he]
    decide
  · rw [hname e he]
  · rw [hname e he] at hlength
    exact absurd hlength lower_contentType_ne
  · intro e he e' he' _ _
    rw [hname e he, hname e' he']

/-- What the servers answer where no handler does is well framed, whatever the message. -/
theorem server_responses_well_framed (message : String) (status : Nat) :
    (∀ response ∈ [HttpResponse.badRequest, .notFound message, .serverError message],
      WellFramed (statusLine response.statusCode response.reason) response.own (utf8 response.body.toList)
        response.toBytes) ∧
    WellFramed (statusLine status (App.reason status)) (Response.error message status).full.own
      (Response.error message status).full.payload (App.sendResponse (Response.error message status).full) := by
  constructor
  · intro response hresponse
    have hheaders : response.own.items = [] ∨
        response.own.items = [("Content-Type", "application/json")] := by
      simp only [List.mem_cons, List.not_mem_nil, or_false] at hresponse
      rcases hresponse with rfl | rfl | rfl
      · exact .inl rfl
      · exact .inr rfl
      · exact .inr rfl
    obtain ⟨hsendable, hspelled, -⟩ := sendable_json hheaders
    exact (response.wellFramed_toBytes_iff hsendable).2 hspelled
  · have hheaders : (Response.error message status).full.own.items = [] ∨
        (Response.error message status).full.own.items = [("Content-Type", "application/json")] := .inr rfl
    obtain ⟨hsendable, -, hspelled⟩ := sendable_json hheaders
    exact (FullResponse.wellFramed_sendResponse_iff _ hsendable).2 (hspelled _)

/-! ### Both milestones -/

/-- A response is well framed if and only if, in milestone 1.1, no spelling of the type but
`Content-Type` is in the handler's dictionary, and in milestone 1.2 there is at most one spelling of
the type, and a length only as `Content-Length` and only that of the payload. -/
theorem responses_well_framed_iff (response : HttpResponse) (full : FullResponse) :
    (Sendable response.own →
      (WellFramed (statusLine response.statusCode response.reason) response.own (utf8 response.body.toList)
        response.toBytes ↔ HttpResponse.TypeSpelled response.own)) ∧
    (Sendable full.own →
      (WellFramed (statusLine full.status (App.reason full.status)) full.own full.payload
        (App.sendResponse full) ↔ FullResponse.Spelled full.own full.payload.length)) :=
  ⟨response.wellFramed_toBytes_iff, full.wellFramed_sendResponse_iff⟩

/-- A type in lower case comes twice in milestone 1.1; a length of the handler's own is wrong in
milestone 1.2. -/
theorem responses_not_well_framed :
    (¬ ∀ response : HttpResponse, Sendable response.own →
      WellFramed (statusLine response.statusCode response.reason) response.own (utf8 response.body.toList)
        response.toBytes) ∧
    ¬ ∀ response : FullResponse, Sendable response.own →
      WellFramed (statusLine response.status (App.reason response.status)) response.own response.payload
        (App.sendResponse response) := by
  constructor
  · intro h
    have hsendable : Sendable (HttpResponse.own ⟨200, "hi", [("content-type", "text/html")]⟩) :=
      ⟨by decide +kernel, by decide +kernel⟩
    have hspelled := (HttpResponse.wellFramed_toBytes_iff _ hsendable).1 (h _ hsendable)
    exact absurd (hspelled ("content-type", "text/html") (by decide) (by decide +kernel)) (by decide)
  · intro h
    have hsendable : Sendable (FullResponse.own ⟨200, .str "hi", [("Content-Length", "5")]⟩) :=
      ⟨by decide +kernel, by decide +kernel⟩
    have hspelled := (FullResponse.wellFramed_sendResponse_iff _ hsendable).1 (h _ hsendable)
    have hlength := (hspelled.length ("Content-Length", "5") (by decide) lower_contentLength).2
    exact absurd hlength (by decide +kernel)

/-- A header of the handler's own beside the two, and a type in lower case. -/
theorem responses_well_framed_iff_own :
    WellFramed "HTTP/1.1 201 Created" (HttpResponse.own ⟨201, "\x7b\x7d", [("Location", "/users/7")]⟩)
        (utf8 ['\x7b', '\x7d']) (HttpResponse.toBytes ⟨201, "\x7b\x7d", [("Location", "/users/7")]⟩) ∧
      WellFramed "HTTP/1.1 200 OK" (FullResponse.own ⟨200, .bytes [255], [("content-type", "image/png")]⟩)
        [255] (App.sendResponse ⟨200, .bytes [255], [("content-type", "image/png")]⟩) := by
  obtain ⟨hown, hfull⟩ := responses_well_framed_iff ⟨201, "\x7b\x7d", [("Location", "/users/7")]⟩
    ⟨200, .bytes [255], [("content-type", "image/png")]⟩
  constructor
  · refine (hown ⟨by decide +kernel, by decide +kernel⟩).2 ?_
    rintro e he hname
    rw [List.mem_singleton.1 he] at hname
    exact absurd hname (by decide +kernel)
  · refine (hfull ⟨by decide +kernel, by decide +kernel⟩).2 ⟨?_, ?_⟩
    · rintro e he hname
      rw [List.mem_singleton.1 he] at hname
      exact absurd hname (by decide +kernel)
    · rintro e he e' he' - -
      rw [List.mem_singleton.1 he, List.mem_singleton.1 he']

end Portfolio.Framework
