import Portfolio.Framework.HeaderSection

/-!
# Requests that are badly framed

What the servers should do with a stream that ends early or announces another body than it has, and
the streams on which they do it.
-/

namespace Portfolio.Framework
open Std Py

/-! ### The property -/

/-- What was read, up to `rest`, is a whole request: an empty line ends its header section, and a
Content-Length is the number of the bytes of its body. -/
def Framed (stream rest : Bytes) : Prop :=
  ∃ start lines sep body, stream = start ++ (lines.flatten ++ sep ++ (body ++ rest)) ∧
    IsLine start ∧ AreHeaderLines lines ∧ IsEmptyLine sep ∧
    ∀ length ∈ valuesOf "content-length" (headersOf lines),
      Digits length.toList ∧ decimal length.toList = body.length

/-- A parser and the server around it refuse what is badly framed. -/
structure Refuses {ρ σ ι : Type} (parse : Bytes → Except ParseError (Option ρ × Bytes))
    (handle : ι → Bytes → Exchange ρ σ) (badRequest : σ) (stream : Bytes) : Prop where
  returned : ∀ request rest, parse stream = .ok (some request, rest) → Framed stream rest
  blank : ∀ rest, parse stream = .ok (none, rest) → requestLine stream = []
  raised : ∀ e, parse stream = .error e → e.isValueError
  answered : ∀ e, parse stream = .error e → ∀ routes, handle routes stream = ⟨none, some badRequest⟩
  ran : ∀ routes, (handle routes stream).ran ≠ none →
    ∃ request rest, parse stream = .ok (some request, rest) ∧ Framed stream rest

/-- Both servers do. -/
def RefusesBadFraming (stream : Bytes) : Prop :=
  Refuses HttpRequest.fromSocket HttpServer.handleConnection .badRequest stream ∧
    Refuses App.parseRequest App.handleConnection (.error "bad_request" 400) stream

/-! ### Where it holds -/

/-- `int` or `read` raises `ValueError` for this length. -/
def LengthError (length : String) : Prop :=
  length ≠ "" ∧
    (int length.toList = none ∨ ∃ n, int length.toList = some n ∧ -2 ^ 63 ≤ n ∧ n < -1)

/-- An empty line ends the header section, and the bytes that every Content-Length announces are
there. -/
def Whole (stream : Bytes) : Prop :=
  (headersAt stream).ended ∧ ∃ n < 2 ^ 63, n ≤ (headersAt stream).rest.length ∧
    ∀ length ∈ contentLengths stream, Digits length.toList ∧ decimal length.toList = n

/-- The streams on which the parsers see to the framing. An empty request line has no words. -/
def FramingChecked (stream : Bytes) : Prop :=
  (split (requestLine stream)).length ≠ 3 ∨
    (∃ line ∈ (headersAt stream).lines, ':' ∉ latin1 line) ∨
    (∃ length ∈ (contentLengths stream).getLast?, LengthError length) ∨ Whole stream

/-! ### Frames and sections -/

theorem framed_iff {stream rest : Bytes} :
    Framed stream rest ↔ (headersAt stream).ended ∧
      ∃ body, (headersAt stream).rest = body ++ rest ∧ ∀ length ∈ contentLengths stream,
        Digits length.toList ∧ decimal length.toList = body.length := by
  constructor
  · rintro ⟨start, lines, sep, body, rfl, hstart, hlines, hsep, hlengths⟩
    have hsection : headersAt (start ++ (lines.flatten ++ sep ++ (body ++ rest))) =
        ⟨lines, true, body ++ rest⟩ := by
      rw [headersAt, readline_line hstart]
      exact headerSection_append hlines hsep _
    refine ⟨by rw [hsection], body, by rw [hsection], ?_⟩
    rw [contentLengths, hsection]
    exact hlengths
  · rintro ⟨hended, body, hrest, hlengths⟩
    obtain ⟨hlines, sep, hsep, hstream⟩ := headerSection_ended hended
    have hstart : IsLine (readline stream).1 := by
      refine isLine_readline ?_
      rw [hstream]
      exact List.append_ne_nil_of_left_ne_nil
        (List.append_ne_nil_of_right_ne_nil _ hsep.isLine.ne_nil) _
    refine ⟨_, _, sep, body, ?_, hstart, hlines, hsep, hlengths⟩
    rw [← hrest, headersAt, ← hstream, readline_append]

/-! ### Lengths -/

theorem readBody_digits {length : String} (h : Digits length.toList) (stream : Bytes) :
    readBody (some length) stream =
      if length.toList.length ≤ maxStrDigits then
        if decimal length.toList < 2 ^ 63 then
          .ok (stream.take (decimal length.toList), stream.drop (decimal length.toList))
        else .error (.read .overflow)
      else .error (.invalidLength length) := by
  have hne : length ≠ "" := by
    rintro rfl
    exact h.1 rfl
  simp only [readBody, if_pos hne, readLength, int_digits h]
  by_cases hlen : length.toList.length ≤ maxStrDigits
  · rw [if_pos hlen, if_pos hlen]
    by_cases hsize : decimal length.toList < 2 ^ 63
    · rw [if_pos hsize]
      simp only [read_nat hsize]
      rfl
    · rw [if_neg hsize]
      simp only [Py.read]
      rw [if_pos (.inr (by omega))]
      rfl
  · rw [if_neg hlen, if_neg hlen]

theorem read_negative {n : Int} {stream : Bytes} :
    Py.read n stream = .error .negative ↔ -2 ^ 63 ≤ n ∧ n < -1 := by
  simp only [Py.read]
  split_ifs <;> simp <;> omega

theorem readBody_of_lengthError {length : String} (h : LengthError length) (stream : Bytes) :
    ∃ e, readBody (some length) stream = .error e ∧ e.isValueError := by
  obtain ⟨hne, hint⟩ := h
  simp only [readBody, if_pos hne, readLength]
  rcases hint with hint | ⟨n, hint, hn⟩
  · rw [hint]
    exact ⟨_, rfl, rfl⟩
  · rw [hint]
    refine ⟨.read .negative, ?_, rfl⟩
    simp only [read_negative.2 hn]
    rfl

theorem lengthError_of_readBody {length : Option String} {stream : Bytes} {e : ParseError}
    (h : readBody length stream = .error e) (he : e.isValueError) :
    ∃ text ∈ length, LengthError text := by
  simp only [readBody] at h
  split at h
  · next text =>
    split at h
    · next hne =>
      refine ⟨text, rfl, hne, ?_⟩
      simp only [readLength] at h
      split at h
      · next hint => exact .inl hint
      · next n hint =>
        refine .inr ⟨n, hint, ?_⟩
        rcases hread : Py.read n stream with e' | r
        · rw [hread] at h
          obtain rfl : ParseError.read e' = e := by simpa [Except.mapError] using h
          rcases e' with _ | _
          · exact read_negative.1 hread
          · exact absurd he Bool.false_ne_true
        · rw [hread] at h
          cases h
    · cases h
  · cases h

/-! ### The parsers -/

/-- What is returned is framed, and what is raised is a `ValueError`. -/
def Keeps {α : Type} (framed : α → Prop) (outcome : Except ParseError α) : Prop :=
  (∀ a, outcome = .ok a → framed a) ∧ ∀ e, outcome = .error e → e.isValueError

variable {stream : Bytes}

theorem getLast?_contentLengths_none (h : (contentLengths stream).getLast? = none) {P : String → Prop} :
    ∀ length ∈ contentLengths stream, P length := by
  rw [List.getLast?_eq_none_iff.1 h]
  exact List.forall_mem_nil _

theorem whole_of_readBody {body rest : Bytes}
    (h : readBody (contentLengths stream).getLast? (headersAt stream).rest = .ok (body, rest))
    (hframed : Framed stream rest) : Whole stream := by
  obtain ⟨hended, body, hrest, hlengths⟩ := framed_iff.1 hframed
  rcases hlast : (contentLengths stream).getLast? with _ | length
  · exact ⟨hended, 0, Nat.two_pow_pos 63, Nat.zero_le _, getLast?_contentLengths_none hlast⟩
  · obtain ⟨hdigits, hlength⟩ := hlengths length (List.mem_of_getLast? hlast)
    rw [hlast, readBody_digits hdigits, hlength] at h
    have hsize : body.length < 2 ^ 63 := by
      by_contra hsize
      rw [if_neg hsize] at h
      split at h <;> cases h
    refine ⟨hended, body.length, hsize, ?_, hlengths⟩
    rw [hrest, List.length_append]
    exact Nat.le_add_right ..

theorem Whole.keeps (h : Whole stream) : Keeps (fun r => Framed stream r.2)
    (readBody (contentLengths stream).getLast? (headersAt stream).rest) := by
  obtain ⟨hended, n, hsize, hle, hlengths⟩ := h
  rcases hlast : (contentLengths stream).getLast? with _ | length
  · refine ⟨?_, nofun⟩
    rintro _ ⟨⟩
    exact framed_iff.2 ⟨hended, [], rfl, getLast?_contentLengths_none hlast⟩
  · obtain ⟨hdigits, rfl⟩ := hlengths length (List.mem_of_getLast? hlast)
    rw [readBody_digits hdigits, if_pos hsize]
    split
    · refine ⟨?_, nofun⟩
      rintro _ ⟨⟩
      refine framed_iff.2 ⟨hended, _, (List.take_append_drop ..).symm, fun text htext => ?_⟩
      rw [List.length_take_of_le hle]
      exact hlengths text htext
    · refine ⟨nofun, ?_⟩
      rintro _ ⟨⟩
      rfl

theorem keeps_readBody : Keeps (fun r => Framed stream r.2)
      (readBody (contentLengths stream).getLast? (headersAt stream).rest) ↔
    (∃ length ∈ (contentLengths stream).getLast?, LengthError length) ∨ Whole stream := by
  constructor
  · rintro ⟨hframed, hraised⟩
    rcases hbody : readBody (contentLengths stream).getLast? (headersAt stream).rest with e | r
    · exact .inl (lengthError_of_readBody hbody (hraised e hbody))
    · exact .inr (whole_of_readBody hbody (hframed r hbody))
  · rintro (⟨length, hlast, hlength⟩ | hwhole)
    · obtain ⟨e, he, hvalue⟩ := readBody_of_lengthError hlength (headersAt stream).rest
      rw [Option.mem_def.1 hlast, he]
      refine ⟨nofun, ?_⟩
      rintro _ ⟨⟩
      exact hvalue
    · exact hwhole.keeps

theorem keeps_map {α β : Type} {framed : β → Prop} {f : α → β} {outcome : Except ParseError α} :
    Keeps framed (outcome.map f) ↔ Keeps (fun a => framed (f a)) outcome := by
  rcases outcome with e | a <;> simp [Keeps, Except.map]

theorem keeps_error {α : Type} {framed : α → Prop} {e : ParseError} (h : e.isValueError) :
    Keeps framed (.error e) := by
  refine ⟨nofun, ?_⟩
  rintro _ ⟨⟩
  exact h

/-- A request that is returned is framed. -/
abbrev RequestFramed {ρ : Type} (stream : Bytes) (r : Option ρ × Bytes) : Prop :=
  r.1.isSome → Framed stream r.2

theorem keeps_fromSocket :
    Keeps (RequestFramed stream) (HttpRequest.fromSocket stream) ↔ FramingChecked stream := by
  by_cases hwords : (split (requestLine stream)).length = 3
  · by_cases hcolons : ∀ line ∈ (headersAt stream).lines, ':' ∈ latin1 line
    · obtain ⟨method, target, version, hsplit⟩ := List.length_eq_three.1 hwords
      obtain ⟨headers, _, hparse⟩ := HttpRequest.fromSocket_of_colons hsplit hcolons
      rw [hparse, keeps_map]
      simp only [RequestFramed, Option.isSome_some, true_imp_iff, keeps_readBody, FramingChecked]
      constructor
      · exact fun h => .inr (.inr h)
      · rintro (h | ⟨line, hline, hcolon⟩ | h)
        · exact absurd hwords h
        · exact absurd (hcolons line hline) hcolon
        · exact h
    · push Not at hcolons
      obtain ⟨line, hline, hcolon⟩ := hcolons
      obtain ⟨text, htext⟩ := HttpRequest.fromSocket_badHeader hwords hline hcolon
      rw [htext]
      exact ⟨fun _ => .inr (.inl ⟨line, hline, hcolon⟩), fun _ => keeps_error rfl⟩
  · refine ⟨fun _ => .inl hwords, fun _ => ?_⟩
    by_cases hblank : requestLine stream = []
    · rw [HttpRequest.fromSocket_blank hblank]
      refine ⟨?_, nofun⟩
      rintro _ ⟨⟩
      nofun
    · rw [HttpRequest.fromSocket_malformed hblank hwords]
      exact keeps_error rfl

theorem blank_of_fromSocket {rest : Bytes} (h : HttpRequest.fromSocket stream = .ok (none, rest)) :
    requestLine stream = [] := by
  by_contra hblank
  by_cases hwords : (split (requestLine stream)).length = 3
  · obtain ⟨method, target, version, hsplit⟩ := List.length_eq_three.1 hwords
    rw [HttpRequest.fromSocket_words hsplit] at h
    rcases hheaders : readHeaders (readline stream).2 ∅ with e | ⟨headers, left⟩
    · rw [hheaders] at h
      cases h
    · rw [hheaders] at h
      change (readBody headers["content-length"]? left >>= _) = _ at h
      rcases hbody : readBody headers["content-length"]? left with e | r <;> rw [hbody] at h <;> cases h
  · rw [HttpRequest.fromSocket_malformed hblank hwords] at h
    cases h

theorem keeps_parseRequest :
    Keeps (RequestFramed stream) (App.parseRequest stream) ↔ FramingChecked stream := by
  rw [App.parseRequest_eq, keeps_map, ← keeps_fromSocket]
  simp only [RequestFramed, Option.isSome_map]

theorem blank_of_parseRequest {rest : Bytes} (h : App.parseRequest stream = .ok (none, rest)) :
    requestLine stream = [] := by
  rw [App.parseRequest_eq] at h
  rcases hparse : HttpRequest.fromSocket stream with e | ⟨_ | request, left⟩
  · rw [hparse] at h
    cases h
  · exact blank_of_fromSocket hparse
  · rw [hparse] at h
    cases h

/-! ### The servers -/

section
variable {ρ σ ι : Type} {parse : Bytes → Except ParseError (Option ρ × Bytes)}
  {handle : ι → Bytes → Exchange ρ σ} {badRequest : σ}

theorem refuses_iff (hblank : ∀ rest, parse stream = .ok (none, rest) → requestLine stream = [])
    (hanswered : ∀ e, parse stream = .error e → e.isValueError →
      ∀ routes, handle routes stream = ⟨none, some badRequest⟩)
    (hran : ∀ routes, (handle routes stream).ran ≠ none →
      ∃ request rest, parse stream = .ok (some request, rest)) :
    Refuses parse handle badRequest stream ↔ Keeps (RequestFramed stream) (parse stream) := by
  constructor
  · rintro ⟨hreturned, _, hraised, _, _⟩
    refine ⟨?_, hraised⟩
    rintro ⟨_ | request, rest⟩ h
    · nofun
    · exact fun _ => hreturned request rest h
  · rintro ⟨hframed, hraised⟩
    refine ⟨fun request rest h => hframed _ h rfl, hblank, hraised,
      fun e h => hanswered e h (hraised e h), fun routes h => ?_⟩
    obtain ⟨request, rest, hparse⟩ := hran routes h
    exact ⟨request, rest, hparse, hframed _ hparse rfl⟩

end

theorem HttpServer.answered {e : ParseError} (h : HttpRequest.fromSocket stream = .error e)
    (he : e.isValueError) (router : Router Handler) :
    handleConnection router stream = ⟨none, some .badRequest⟩ := by
  simp only [handleConnection, h, if_pos he]

theorem HttpServer.returned_of_ran {router : Router Handler}
    (h : (handleConnection router stream).ran ≠ none) :
    ∃ request rest, HttpRequest.fromSocket stream = .ok (some request, rest) := by
  rcases hparse : HttpRequest.fromSocket stream with e | ⟨_ | request, rest⟩
  · simp only [handleConnection, hparse] at h
    split at h <;> exact absurd rfl h
  · simp [handleConnection, hparse] at h
  · exact ⟨request, rest, rfl⟩

theorem App.answered {e : ParseError} (h : App.parseRequest stream = .error e)
    (he : e.isValueError) (app : App Handler) :
    handleConnection app stream = ⟨none, some (.error "bad_request" 400)⟩ := by
  simp only [handleConnection, h, if_pos he]

theorem App.returned_of_ran {app : App Handler} (h : (handleConnection app stream).ran ≠ none) :
    ∃ request rest, App.parseRequest stream = .ok (some request, rest) := by
  rcases hparse : App.parseRequest stream with e | ⟨_ | request, rest⟩
  · simp only [handleConnection, hparse] at h
    split at h <;> exact absurd rfl h
  · simp [handleConnection, hparse] at h
  · exact ⟨request, rest, rfl⟩

theorem refusesBadFraming_iff (stream : Bytes) :
    RefusesBadFraming stream ↔ FramingChecked stream := by
  have hserver : Refuses HttpRequest.fromSocket HttpServer.handleConnection .badRequest stream ↔
      FramingChecked stream := by
    rw [← keeps_fromSocket]
    exact refuses_iff (fun _ => blank_of_fromSocket) (fun _ => HttpServer.answered)
      fun _ => HttpServer.returned_of_ran
  have happ : Refuses App.parseRequest App.handleConnection (.error "bad_request" 400) stream ↔
      FramingChecked stream := by
    rw [← keeps_parseRequest]
    exact refuses_iff (fun _ => blank_of_parseRequest) (fun _ => App.answered)
      fun _ => App.returned_of_ran
  rw [RefusesBadFraming, hserver, happ, and_self]

/-- The stream ends two bytes before the body does. -/
def truncatedBody : Bytes :=
  utf8 "POST /notes HTTP/1.1\r\nContent-Length: 5\r\n\r\nabc".toList

theorem truncatedBody_accepted : ¬ RefusesBadFraming truncatedBody := by
  intro h
  have hwords : split (requestLine truncatedBody) =
      ["POST".toList, "/notes".toList, "HTTP/1.1".toList] := by decide +kernel
  have hcolons : ∀ line ∈ (headersAt truncatedBody).lines, ':' ∈ latin1 line := by decide +kernel
  have hlengths : contentLengths truncatedBody = ["5"] := by decide +kernel
  have hrest : (headersAt truncatedBody).rest = utf8 ['a', 'b', 'c'] := by decide +kernel
  obtain ⟨headers, _, hparse⟩ := HttpRequest.fromSocket_of_colons hwords hcolons
  have hbody : readBody (some "5") (utf8 ['a', 'b', 'c']) = .ok (utf8 ['a', 'b', 'c'], []) := by
    decide +kernel
  rw [hlengths, hrest, List.getLast?_singleton, hbody] at hparse
  obtain ⟨_, body, hsplit, hframed⟩ := framed_iff.1 (h.1.returned _ _ hparse)
  rw [hrest, List.append_nil] at hsplit
  subst hsplit
  exact absurd (hframed "5" (by rw [hlengths]; exact List.mem_singleton_self _)).2 (by decide)

end Portfolio.Framework
