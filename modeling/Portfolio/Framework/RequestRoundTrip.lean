import Portfolio.Framework.HeaderSection

/-!
# Requests come back from their bytes

A `Message` is a request as a client writes it. Both parsers read it back (`Message.parsed`),
whatever bytes follow it.
-/

namespace Portfolio.Framework
open Std Py

/-! ### Messages -/

/-- Visible ASCII. -/
def Visible (c : Char) : Prop := 0x21 ≤ c.toNat ∧ c.toNat ≤ 0x7E

instance (c : Char) : Decidable (Visible c) := inferInstanceAs (Decidable (_ ∧ _))

/-- A non-empty text of visible ASCII characters. -/
def IsToken (s : String) : Prop := s ≠ "" ∧ ∀ c ∈ s.toList, Visible c

instance (s : String) : Decidable (IsToken s) :=
  @instDecidableAnd _ _ _ (List.decidableBAll Visible s.toList)

structure Header where
  name : String
  /-- How many spaces follow the colon. -/
  gap : Nat
  words : List String
  name_token : IsToken name ∧ ':' ∉ name.toList
  words_token : ∀ word ∈ words, IsToken word

namespace Header

def value (header : Header) : String := " ".intercalate header.words

def text (header : Header) : List Char :=
  header.name.toList ++ ':' :: (List.replicate header.gap ' ' ++ header.value.toList)

end Header

/-- The last value under a name in lower case. -/
def lastValue (headers : List Header) (name : String) : Option String :=
  ((headers.filter fun header => header.name.toLower = name).map Header.value).getLast?

/-- The last length announced is that of the body. Zeros may stand before it, as far as `int` reads
so many digits. -/
def Announced (headers : List Header) (body : String) : Prop :=
  match lastValue headers "content-length" with
  | none => body = ""
  | some length => Digits length.toList ∧ length.toList.length ≤ maxStrDigits ∧
      decimal length.toList = (utf8 body.toList).length

instance (headers : List Header) (body : String) : Decidable (Announced headers body) :=
  match h : lastValue headers "content-length" with
  | none => decidable_of_iff (body = "") (by rw [Announced, h])
  | some length => decidable_of_iff (Digits length.toList ∧ length.toList.length ≤ maxStrDigits ∧
      decimal length.toList = (utf8 body.toList).length) (by rw [Announced, h])

structure Message where
  method : String
  target : String
  version : String
  headers : List Header
  body : String
  method_token : IsToken method
  target_token : IsToken target
  version_token : IsToken version
  announced : Announced headers body
  /-- A `bytes` object is no longer than `sys.maxsize`. -/
  body_size : (utf8 body.toList).length < 2 ^ 63

/-- A line of the head. -/
def headLine (text : List Char) : Bytes := utf8 (text ++ ['\r', '\n'])

namespace Message

def startText (m : Message) : List Char :=
  m.method.toList ++ ' ' :: (m.target.toList ++ ' ' :: m.version.toList)

def headerLines (m : Message) : List Bytes := m.headers.map fun header => headLine header.text

def bytes (m : Message) : Bytes :=
  headLine m.startText ++ m.headerLines.flatten ++ headLine [] ++ utf8 m.body.toList

/-- What is read of the message. -/
structure IsRead (m : Message) (method path version : String) (headers : Headers)
    (body : String) : Prop where
  method_eq : method = m.method.toUpper
  path_eq : path = String.ofList (m.target.toList.takeWhile (· ≠ '?'))
  version_eq : version = m.version
  headers_eq : ∀ name, headers[name]? = lastValue m.headers name
  body_eq : body = m.body

end Message

/-! ### Lines of the head -/

theorem Visible.ascii {c : Char} (h : Visible c) : c.toNat < 128 := by
  have := h.2
  omega

theorem Visible.isSpace {c : Char} (h : Visible c) : Py.isSpace c = false := by
  obtain ⟨h₁, h₂⟩ := h
  simp only [Py.isSpace, Bool.or_eq_false_iff, Bool.and_eq_false_iff, decide_eq_false_iff_not,
    List.mem_cons, List.not_mem_nil, or_false]
  omega

theorem IsToken.ne_nil {s : String} (h : IsToken s) : s.toList ≠ [] := by
  rw [Ne, String.toList_eq_nil_iff]
  exact h.1

/-- Spaces and visible characters. -/
def IsPlain (cs : List Char) : Prop := ∀ c ∈ cs, c = ' ' ∨ Visible c

theorem IsPlain.append {cs ds : List Char} (hc : IsPlain cs) (hd : IsPlain ds) :
    IsPlain (cs ++ ds) := fun c h => (List.mem_append.1 h).elim (hc c) (hd c)

theorem IsPlain.cons {c : Char} {cs : List Char} (hc : c = ' ' ∨ Visible c) (h : IsPlain cs) :
    IsPlain (c :: cs) := List.forall_mem_cons.2 ⟨hc, h⟩

theorem IsToken.plain {s : String} (h : IsToken s) : IsPlain s.toList := fun c hc => .inr (h.2 c hc)

theorem IsPlain.ascii {cs : List Char} (h : IsPlain cs) : ∀ c ∈ cs, c.toNat < 128 := by
  intro c hc
  rcases h c hc with rfl | hc
  · decide
  · exact hc.ascii

theorem IsPlain.notMem {cs : List Char} (h : IsPlain cs) {c : Char} (hc : c ≠ ' ' ∧ ¬ Visible c) :
    c ∉ cs := fun hmem => (h c hmem).elim hc.1 hc.2

theorem crlf_ascii : ∀ c ∈ ['\r', '\n'], c.toNat < 128 :=
  List.forall_mem_cons.2 ⟨by decide, List.forall_mem_singleton.2 (by decide)⟩

theorem crlf_isSpace : ∀ c ∈ ['\r', '\n'], isSpace c :=
  List.forall_mem_cons.2 ⟨rfl, List.forall_mem_singleton.2 rfl⟩

theorem latin1_headLine {text : List Char} (h : IsPlain text) :
    latin1 (headLine text) = text ++ ['\r', '\n'] :=
  latin1_utf8 (List.forall_mem_append.2 ⟨h.ascii, crlf_ascii⟩)

theorem headLine_eq (text : List Char) : headLine text = utf8 text ++ [13, 10] := utf8_append text _

theorem isLine_headLine {text : List Char} (h : '\n' ∉ text) : IsLine (headLine text) := by
  refine ⟨utf8 text ++ [13], fun hmem => ?_, by simp [headLine_eq]⟩
  rcases List.mem_append.1 hmem with hmem | hmem
  · exact h (ten_mem_utf8.1 hmem)
  · exact absurd hmem (by decide)

theorem not_isEmptyLine_headLine {text : List Char} (hne : text ≠ []) :
    ¬ IsEmptyLine (headLine text) := by
  have hpos := List.length_pos_iff.2 (utf8_ne_nil hne)
  rw [headLine_eq]
  rintro (hline | hline)
  · have := congrArg List.length hline
    simp only [List.length_append, List.length_cons, List.length_nil] at this
    omega
  · have := congrArg List.length hline
    simp only [List.length_append, List.length_cons, List.length_nil] at this
    omega

/-! ### What a line is read as -/

theorem IsToken.trimmed {s : String} (h : IsToken s) : Trimmed isSpace s.toList :=
  .of_forall fun c hc => (h.2 c hc).isSpace

theorem trimmed_intercalate {words : List String} (h : ∀ word ∈ words, IsToken word) :
    Trimmed isSpace (" ".intercalate words).toList ∧
      (words ≠ [] → (" ".intercalate words).toList ≠ []) := by
  induction words with
  | nil => exact ⟨.of_forall nofun, fun hne => absurd rfl hne⟩
  | cons word words ih =>
    obtain ⟨hword, hwords⟩ := List.forall_mem_cons.1 h
    by_cases hne : words = []
    · subst hne
      rw [String.intercalate_singleton]
      exact ⟨hword.trimmed, fun _ => hword.ne_nil⟩
    · obtain ⟨ih, ihne⟩ := ih hwords
      rw [String.intercalate_cons_of_ne_nil hne, String.toList_append, String.toList_append,
        List.append_assoc]
      exact ⟨hword.trimmed.append ih hword.ne_nil (ihne hne) _, fun _ =>
        List.append_ne_nil_of_left_ne_nil hword.ne_nil _⟩

theorem plain_intercalate {words : List String} (h : ∀ word ∈ words, IsToken word) :
    IsPlain (" ".intercalate words).toList := by
  induction words with
  | nil => nofun
  | cons word words ih =>
    obtain ⟨hword, hwords⟩ := List.forall_mem_cons.1 h
    by_cases hne : words = []
    · subst hne
      rw [String.intercalate_singleton]
      exact hword.plain
    · rw [String.intercalate_cons_of_ne_nil hne, String.toList_append, String.toList_append]
      have hspace : IsPlain " ".toList := fun _ hc => .inl (List.mem_singleton.1 hc)
      exact (hword.plain.append hspace).append (ih hwords)

namespace Header
variable (header : Header)

theorem plain_text : IsPlain header.text :=
  header.name_token.1.plain.append <| .cons (.inr (by decide)) <|
    .append (fun _ hc => .inl (List.eq_of_mem_replicate hc)) (plain_intercalate header.words_token)

theorem text_ne_nil : header.text ≠ [] :=
  List.append_ne_nil_of_left_ne_nil header.name_token.1.ne_nil _

theorem colon_mem_text : ':' ∈ header.text :=
  List.mem_append_right _ (List.mem_cons_self ..)

theorem headerOf_text : headerOf (header.text ++ ['\r', '\n']) =
    (header.name.toLower, header.value) := by
  obtain ⟨htoken, hcolon⟩ := header.name_token
  have hname : ∀ c ∈ header.name.toList, decide (c ≠ ':') := by
    rintro c hc
    refine decide_eq_true ?_
    rintro rfl
    exact hcolon hc
  have hstrip : strip isSpace header.name.toList = header.name.toList := by
    simpa using strip_surrounded (l := []) (r := []) nofun nofun htoken.trimmed
  have hvalue : strip isSpace (List.replicate header.gap ' ' ++ (header.value.toList ++ ['\r', '\n']))
      = header.value.toList := by
    refine strip_surrounded (fun c hc => ?_) crlf_isSpace (trimmed_intercalate header.words_token).1
    rw [List.eq_of_mem_replicate hc]
    decide
  have hascii : ∀ c ∈ header.name.toList, c.toNat < 128 := htoken.plain.ascii
  simp only [headerOf, text, List.append_assoc, List.cons_append]
  rw [List.takeWhile_append_of_pos hname, List.dropWhile_append_of_pos hname]
  simp [hstrip, hvalue, lower_ascii hascii]

end Header

theorem headersOf_headerLines (headers : List Header) :
    headersOf (headers.map fun header => headLine header.text) =
      headers.map fun header => (header.name.toLower, header.value) := by
  rw [headersOf, List.map_map]
  refine List.map_congr_left fun header _ => ?_
  rw [Function.comp_apply, latin1_headLine header.plain_text, header.headerOf_text]

theorem getLast?_valuesOf (headers : List Header) (name : String) :
    (valuesOf name (headers.map fun header => (header.name.toLower, header.value))).getLast? =
      lastValue headers name := by
  rw [valuesOf, List.filter_map, List.map_map]
  rfl

namespace Message
variable (m : Message) (rest : Bytes)

theorem plain_startText : IsPlain m.startText :=
  m.method_token.plain.append <| .cons (.inl rfl) <|
    m.target_token.plain.append <| .cons (.inl rfl) m.version_token.plain

theorem areHeaderLines : AreHeaderLines m.headerLines := by
  refine List.forall_mem_map.2 fun header _ => ?_
  exact ⟨isLine_headLine (header.plain_text.notMem (by decide)),
    not_isEmptyLine_headLine header.text_ne_nil⟩

theorem readline_bytes : readline (m.bytes ++ rest) =
    (headLine m.startText, m.headerLines.flatten ++ headLine [] ++ (utf8 m.body.toList ++ rest)) := by
  rw [bytes, List.append_assoc, List.append_assoc, List.append_assoc,
    readline_line (isLine_headLine (m.plain_startText.notMem (by decide))), List.append_assoc]

theorem headersAt_bytes :
    headersAt (m.bytes ++ rest) = ⟨m.headerLines, true, utf8 m.body.toList ++ rest⟩ := by
  rw [headersAt, readline_bytes]
  exact headerSection_append m.areHeaderLines (.inl rfl) _

theorem split_requestLine : split (requestLine (m.bytes ++ rest)) =
    [m.method.toList, m.target.toList, m.version.toList] := by
  have hspace : ∀ {s : String}, IsToken s → ∀ c ∈ s.toList, isSpace c = false :=
    fun h c hc => (h.2 c hc).isSpace
  have htrimmed : Trimmed isSpace m.startText := by
    have := m.method_token.trimmed.append m.version_token.trimmed m.method_token.ne_nil
      m.version_token.ne_nil (' ' :: (m.target.toList ++ [' ']))
    simpa [startText] using this
  rw [requestLine, readline_bytes, latin1_headLine m.plain_startText,
    ← List.nil_append (m.startText ++ _), strip_surrounded (List.forall_mem_nil _) crlf_isSpace htrimmed,
    startText, split_word_cons m.method_token.ne_nil (hspace m.method_token) rfl,
    split_word_cons m.target_token.ne_nil (hspace m.target_token) rfl,
    split_word m.version_token.ne_nil (hspace m.version_token)]

theorem readBody_lastValue :
    readBody (lastValue m.headers "content-length") (utf8 m.body.toList ++ rest) =
      .ok (utf8 m.body.toList, rest) := by
  have hann := m.announced
  rw [Announced] at hann
  rcases hlast : lastValue m.headers "content-length" with _ | length
  · rw [hlast] at hann
    rw [hann]
    rfl
  · rw [hlast] at hann
    obtain ⟨hdigits, hlen, hvalue⟩ := hann
    have hne : length ≠ "" := by
      rintro rfl
      exact hdigits.1 rfl
    simp only [readBody, if_pos hne, readLength, int_digits hdigits, if_pos hlen]
    rw [hvalue, read_nat m.body_size, List.take_left, List.drop_left]
    rfl

theorem isRead_ofParts {headers : Headers}
    (hheaders : ∀ name, headers[name]? = lastValue m.headers name) :
    let request := HttpRequest.ofParts m.method.toList m.target.toList m.version.toList headers
      (utf8 m.body.toList)
    m.IsRead request.method request.path request.version request.headers request.body where
  method_eq := by
    rw [HttpRequest.ofParts, String.ofList_toList, upper_ascii m.method_token.plain.ascii]
  path_eq := congrArg String.ofList (headD_splitOn '?' m.target.toList)
  version_eq := String.ofList_toList
  headers_eq := hheaders
  body_eq := (congrArg String.ofList (decodeUtf8_utf8 _)).trans String.ofList_toList

theorem fromSocket_bytes :
    ∃ request, HttpRequest.fromSocket (m.bytes ++ rest) = .ok (some request, rest) ∧
      m.IsRead request.method request.path request.version request.headers request.body := by
  have hsection := m.headersAt_bytes rest
  have hcolons : ∀ line ∈ (headersAt (m.bytes ++ rest)).lines, ':' ∈ latin1 line := by
    rw [hsection]
    refine List.forall_mem_map.2 fun header _ => ?_
    rw [latin1_headLine header.plain_text]
    exact List.mem_append_left _ header.colon_mem_text
  obtain ⟨headers, hheaders, hrequest⟩ :=
    HttpRequest.fromSocket_of_colons (m.split_requestLine rest) hcolons
  rw [hsection, headerLines, headersOf_headerLines] at hheaders
  rw [contentLengths, hsection, headerLines, headersOf_headerLines, getLast?_valuesOf,
    m.readBody_lastValue] at hrequest
  exact ⟨_, hrequest, m.isRead_ofParts fun name => (hheaders name).trans (getLast?_valuesOf ..)⟩

/-- Both parsers read a message and no byte after it: method, path, version, headers and body are those that
were written. -/
theorem parsed :
    (∃ request, HttpRequest.fromSocket (m.bytes ++ rest) = .ok (some request, rest) ∧
      m.IsRead request.method request.path request.version request.headers request.body) ∧
    ∃ request, App.parseRequest (m.bytes ++ rest) = .ok (some request, rest) ∧
      m.IsRead request.method request.path request.version request.headers request.body := by
  obtain ⟨request, hrequest, hread⟩ := m.fromSocket_bytes rest
  refine ⟨⟨request, hrequest, hread⟩, request.raw, ?_, hread⟩
  rw [App.parseRequest_eq, hrequest]
  rfl

/-- A length announced twice and a body of two bytes. -/
def posted : Message where
  method := "post"
  target := "/users?a=1?b"
  version := "HTTP/1.1"
  headers := [⟨"Content-Length", 1, ["7"], by decide +kernel, by decide +kernel⟩,
    ⟨"X-Name", 0, ["two", "words"], by decide +kernel, by decide +kernel⟩,
    ⟨"content-length", 1, ["02"], by decide +kernel, by decide +kernel⟩]
  body := "é"
  method_token := by decide +kernel
  target_token := by decide +kernel
  version_token := by decide +kernel
  announced := by decide +kernel
  body_size := by decide +kernel

theorem parsed_posted :
    ∃ request, HttpRequest.fromSocket (posted.bytes ++ [71, 69]) = .ok (some request, [71, 69]) ∧
      request.method = "POST" ∧ request.path = "/users" ∧ request.headers["content-length"]? = some "02" ∧
      request.body = "é" := by
  obtain ⟨⟨request, hrequest, hread⟩, -⟩ := posted.parsed [71, 69]
  refine ⟨request, hrequest, hread.method_eq.trans ?_, hread.path_eq.trans ?_,
    (hread.headers_eq _).trans ?_, hread.body_eq⟩
  · decide +kernel
  · decide +kernel
  · decide +kernel

example : latin1 posted.bytes = ("post /users?a=1?b HTTP/1.1\r\nContent-Length: 7\r\n" ++
    "X-Name:two words\r\ncontent-length: 02\r\n\r\nÃ©").toList := by decide +kernel

end Message

end Portfolio.Framework
