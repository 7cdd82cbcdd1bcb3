import Portfolio.Framework.HttpParser

/-!
# Header sections

What the parsers do, told by the lines before the first blank one. `headerSection` cuts a stream
there, and `fromSocket_words` reads a request off its pieces.
-/

namespace Portfolio.Framework
open Std Py

/-! ### Sections -/

/-- The lines before the first blank one, whether there is one, and what is after it. -/
structure Section where
  lines : List Bytes
  ended : Bool
  rest : Bytes
  deriving DecidableEq, Repr

def headerSection (stream : Bytes) : Section :=
  if _ : latin1 (readline stream).1 ∈ blankLines then
    ⟨[], (readline stream).1 ≠ [], (readline stream).2⟩
  else
    let s := headerSection (readline stream).2
    { s with lines := (readline stream).1 :: s.lines }
termination_by stream.length
decreasing_by
  rename_i hblank
  refine length_readline fun hnil => hblank ?_
  simp [hnil, blankLines, latin1]

/-- An empty line. -/
def IsEmptyLine (line : Bytes) : Prop := line = [13, 10] ∨ line = [10]

instance (line : Bytes) : Decidable (IsEmptyLine line) := inferInstanceAs (Decidable (_ ∨ _))

theorem mem_blankLines {line : Bytes} :
    latin1 line ∈ blankLines ↔ line = [] ∨ IsEmptyLine line := by
  have hlines : blankLines = [latin1 [13, 10], latin1 [10], latin1 []] := by decide
  rw [hlines]
  simp only [List.mem_cons, List.not_mem_nil, or_false, latin1_injective.eq_iff, IsEmptyLine]
  tauto

theorem IsEmptyLine.isLine {line : Bytes} (h : IsEmptyLine line) : IsLine line := by
  rcases h with rfl | rfl
  · exact ⟨[13], by decide, rfl⟩
  · exact ⟨[], by decide, rfl⟩

/-- Lines of a section. -/
def AreHeaderLines (lines : List Bytes) : Prop := ∀ line ∈ lines, IsLine line ∧ ¬ IsEmptyLine line

theorem headerSection_append {lines : List Bytes} {sep : Bytes} (hlines : AreHeaderLines lines)
    (hsep : IsEmptyLine sep) (rest : Bytes) :
    headerSection (lines.flatten ++ sep ++ rest) = ⟨lines, true, rest⟩ := by
  induction lines with
  | nil =>
    rw [headerSection, List.flatten_nil, List.nil_append, readline_line hsep.isLine,
      dif_pos (mem_blankLines.2 (.inr hsep))]
    simp [hsep.isLine.ne_nil]
  | cons line lines ih =>
    obtain ⟨⟨hline, hempty⟩, hlines⟩ := List.forall_mem_cons.1 hlines
    have hblank : ¬ latin1 line ∈ blankLines := by
      rw [mem_blankLines, not_or]
      exact ⟨hline.ne_nil, hempty⟩
    rw [headerSection, List.flatten_cons, List.append_assoc, List.append_assoc,
      readline_line hline, dif_neg hblank, ← List.append_assoc, ih hlines]

theorem headerSection_ended {stream : Bytes} (h : (headerSection stream).ended) :
    AreHeaderLines (headerSection stream).lines ∧ ∃ sep, IsEmptyLine sep ∧
      stream = (headerSection stream).lines.flatten ++ sep ++ (headerSection stream).rest := by
  fun_induction headerSection stream with
  | case1 stream hblank =>
    have hne : (readline stream).1 ≠ [] := by simpa using h
    refine ⟨nofun, (readline stream).1, (mem_blankLines.1 hblank).resolve_left hne, ?_⟩
    exact (readline_append stream).symm
  | case2 stream hblank s ih =>
    obtain ⟨hlines, sep, hsep, heq⟩ := ih h
    rw [mem_blankLines, not_or] at hblank
    have hrest : (readline stream).2 ≠ [] := by
      rw [heq]
      exact List.append_ne_nil_of_left_ne_nil
        (List.append_ne_nil_of_right_ne_nil _ hsep.isLine.ne_nil) _
    refine ⟨List.forall_mem_cons.2 ⟨⟨isLine_readline hrest, hblank.2⟩, hlines⟩, sep, hsep, ?_⟩
    conv_lhs => rw [← readline_append stream, heq]
    simp [s]

/-! ### The loop over the headers -/

/-- The values that are assigned to a name, in order. -/
def valuesOf (name : String) (l : List (String × String)) : List String :=
  (l.filter fun p => p.1 = name).map Prod.snd

theorem valuesOf_cons (name : String) (p : String × String) (l : List (String × String)) :
    valuesOf name (p :: l) = if p.1 = name then p.2 :: valuesOf name l else valuesOf name l := by
  simp only [valuesOf, List.filter_cons, decide_eq_true_eq]
  split <;> rfl

/-- Of the values of a name the last one stays. -/
theorem getElem?_foldl_insert (l : List (String × String)) (headers : Headers) (name : String) :
    (l.foldl (fun m p => m.insert p.1 p.2) headers)[name]? =
      (valuesOf name l).getLast?.or headers[name]? := by
  induction l generalizing headers with
  | nil => rfl
  | cons p l ih =>
    rw [List.foldl_cons, ih, TreeMap.getElem?_insert, valuesOf_cons]
    simp only [Std.compare_eq_iff_eq]
    split
    · rw [List.getLast?_cons]
      cases (valuesOf name l).getLast? <;> rfl
    · rfl

/-- The names and values of these lines. -/
def headersOf (lines : List Bytes) : List (String × String) :=
  lines.map fun line => headerOf (latin1 line)

theorem readHeaders_of_colons {stream : Bytes} (headers : Headers)
    (h : ∀ line ∈ (headerSection stream).lines, ':' ∈ latin1 line) :
    readHeaders stream headers = .ok
      ((headersOf (headerSection stream).lines).foldl (fun m p => m.insert p.1 p.2) headers,
        (headerSection stream).rest) := by
  fun_induction readHeaders stream headers with
  | case1 stream headers rawLine hblank => rw [headerSection, dif_pos hblank]; rfl
  | case2 stream headers rawLine hblank hcolon =>
    rw [headerSection, dif_neg hblank] at h
    exact absurd (h _ (List.mem_cons_self ..)) hcolon
  | case3 stream headers rawLine hblank hcolon ih =>
    rw [headerSection, dif_neg hblank] at h ⊢
    rw [ih fun line hline => h line (List.mem_cons_of_mem _ hline)]
    rfl

theorem readHeaders_of_malformed {stream line : Bytes} (headers : Headers)
    (hline : line ∈ (headerSection stream).lines) (h : ':' ∉ latin1 line) :
    ∃ text, readHeaders stream headers = .error (.malformedHeaderLine text) := by
  fun_induction readHeaders stream headers with
  | case1 stream headers rawLine hblank =>
    rw [headerSection, dif_pos hblank] at hline
    exact absurd hline List.not_mem_nil
  | case2 => exact ⟨_, rfl⟩
  | case3 stream headers rawLine hblank hcolon ih =>
    rw [headerSection, dif_neg hblank] at hline
    rcases List.mem_cons.1 hline with rfl | hline
    · exact absurd (not_not.1 hcolon) h
    · exact ih hline

/-! ### The parsers -/

/-- `request_line` -/
def requestLine (stream : Bytes) : List Char := strip isSpace (latin1 (readline stream).1)

/-- The lines after the request line. -/
def headersAt (stream : Bytes) : Section := headerSection (readline stream).2

/-- `content_length` -/
def contentLengths (stream : Bytes) : List String :=
  valuesOf "content-length" (headersOf (headersAt stream).lines)

namespace HttpRequest

theorem fromSocket_blank {stream : Bytes} (h : requestLine stream = []) :
    fromSocket stream = .ok (none, (readline stream).2) := by
  simp only [requestLine] at h
  simp [fromSocket, h]
  rfl

theorem fromSocket_malformed {stream : Bytes} (h : requestLine stream ≠ [])
    (hwords : (split (requestLine stream)).length ≠ 3) :
    fromSocket stream = .error (.malformedRequestLine (String.ofList (requestLine stream))) := by
  simp only [requestLine] at h hwords
  simp only [fromSocket, if_neg h]
  split
  · next hsplit => simp [hsplit] at hwords
  · rfl

/-- The request from its parts. -/
def ofParts (method target version : List Char) (headers : Headers) (body : Bytes) :
    HttpRequest where
  method := upper (String.ofList method)
  path := pathOf target
  version := String.ofList version
  headers := headers
  body := String.ofList (decodeUtf8 body)

theorem fromSocket_words {stream : Bytes} {method target version : List Char}
    (hwords : split (requestLine stream) = [method, target, version]) :
    fromSocket stream = do
      let (headers, stream) ← readHeaders (readline stream).2 ∅
      let (body, stream) ← readBody headers["content-length"]? stream
      return (some (ofParts method target version headers body), stream) := by
  have hne : requestLine stream ≠ [] := by
    intro h
    rw [h] at hwords
    cases hwords
  simp only [requestLine] at hwords hne
  simp only [fromSocket, if_neg hne, hwords]
  rfl

theorem fromSocket_badHeader {stream line : Bytes}
    (hwords : (split (requestLine stream)).length = 3)
    (hline : line ∈ (headersAt stream).lines) (hcolon : ':' ∉ latin1 line) :
    ∃ text, fromSocket stream = .error (.malformedHeaderLine text) := by
  obtain ⟨method, target, version, hwords⟩ := List.length_eq_three.1 hwords
  obtain ⟨text, htext⟩ := readHeaders_of_malformed ∅ hline hcolon
  refine ⟨text, ?_⟩
  rw [fromSocket_words hwords, htext]
  rfl

theorem fromSocket_of_colons {stream : Bytes} {method target version : List Char}
    (hwords : split (requestLine stream) = [method, target, version])
    (hcolons : ∀ line ∈ (headersAt stream).lines, ':' ∈ latin1 line) :
    ∃ headers : Headers,
      (∀ name, headers[name]? = (valuesOf name (headersOf (headersAt stream).lines)).getLast?) ∧
      fromSocket stream = (readBody (contentLengths stream).getLast? (headersAt stream).rest).map
        fun r => (some (ofParts method target version headers r.1), r.2) := by
  have hvalue : ∀ name, (List.foldl (fun m p => m.insert p.1 p.2) (∅ : Headers)
      (headersOf (headersAt stream).lines))[name]? = _ := fun name =>
    (getElem?_foldl_insert _ _ name).trans (by rw [TreeMap.getElem?_emptyc, Option.or_none])
  refine ⟨_, hvalue, ?_⟩
  rw [fromSocket_words hwords, readHeaders_of_colons ∅ hcolons, contentLengths, ← hvalue]
  rfl

end HttpRequest

/-- The same request in the other type. -/
def HttpRequest.raw (request : HttpRequest) : RawHttpRequest where
  method := request.method
  path := request.path
  version := request.version
  headers := request.headers
  body := request.body
  pathParams := request.pathParams

namespace App

theorem readText_eq (contentLength : Option String) (stream : Bytes) :
    readText contentLength stream =
      (readBody contentLength stream).map fun r => (String.ofList (decodeUtf8 r.1), r.2) := by
  rcases contentLength with _ | contentLength
  · rfl
  · simp only [readText, readBody]
    split
    · cases readLength contentLength stream <;> rfl
    · rfl

/-- The two parsers do the same. -/
theorem parseRequest_eq (stream : Bytes) :
    parseRequest stream =
      (HttpRequest.fromSocket stream).map fun r => (r.1.map HttpRequest.raw, r.2) := by
  simp only [parseRequest, HttpRequest.fromSocket]
  split
  · rfl
  split
  · rcases readHeaders (readline stream).2 ∅ with e | ⟨headers, rest⟩
    · rfl
    · show (readText _ rest >>= _) = Except.map _ (readBody _ rest >>= _)
      rw [readText_eq]
      cases readBody headers["content-length"]? rest <;> rfl
  · rfl

end App

end Portfolio.Framework
