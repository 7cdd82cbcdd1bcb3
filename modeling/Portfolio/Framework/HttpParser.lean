import Portfolio.Framework.Router
import Portfolio.Lib.PyBytes

/-!
# The HTTP parsers

`HttpRequest.from_socket` of milestone 1.1 and `App._parse_request` of milestone 1.2, with the
connection handlers around them. A socket is the bytes it will give before it ends; a parser also
returns those it has not read. What a handler does with a request is a parameter, and so is what
becomes of an exception in it; a response stands before its encoding.
-/

namespace Portfolio.Framework
open Std Py

abbrev Headers := TreeMap String String

/-- What a parser raises, with what the message is made from. -/
inductive ParseError where
  | malformedRequestLine (line : String)
  | malformedHeaderLine (line : String)
  /-- `int(content_length)` -/
  | invalidLength (text : String)
  | read (e : ReadError)
  deriving DecidableEq, Repr

def ParseError.isValueError : ParseError → Bool
  | read .overflow => false
  | _ => true

/-! ### What the parsers share -/

/-- The lines at which the loop over the headers stops. -/
def blankLines : List (List Char) := [['\r', '\n'], ['\n'], []]

/-- `name.strip().lower()` and `value.strip()` after `name, value = raw_line.split(":", 1)` -/
def headerOf (rawLine : List Char) : String × String :=
  (lower (String.ofList (strip isSpace (rawLine.takeWhile (· ≠ ':')))),
    String.ofList (strip isSpace ((rawLine.dropWhile (· ≠ ':')).drop 1)))

/-- The loop over the headers. -/
def readHeaders (stream : Bytes) (headers : Headers) : Except ParseError (Headers × Bytes) :=
  let rawLine := latin1 (readline stream).1
  if _ : rawLine ∈ blankLines then .ok (headers, (readline stream).2)
  else if ':' ∉ rawLine then .error (.malformedHeaderLine (String.ofList rawLine))
  else readHeaders (readline stream).2 (headers.insert (headerOf rawLine).1 (headerOf rawLine).2)
termination_by stream.length
decreasing_by
  rename_i hblank _
  refine length_readline fun hnil => hblank ?_
  simp [rawLine, hnil, blankLines, latin1]

/-- `buffer.read(int(content_length))` -/
def readLength (contentLength : String) (stream : Bytes) : Except ParseError (Bytes × Bytes) :=
  match int contentLength.toList with
  | none => .error (.invalidLength contentLength)
  | some length => (read length stream).mapError .read

/-- `body = b""` and what follows it, given `headers.get("content-length")`. -/
def readBody (contentLength : Option String) (stream : Bytes) :
    Except ParseError (Bytes × Bytes) :=
  match contentLength with
  | some contentLength =>
    if contentLength ≠ "" then readLength contentLength stream else .ok ([], stream)
  | none => .ok ([], stream)

/-- `target.split("?")[0]` -/
def pathOf (target : List Char) : String := String.ofList ((target.splitOn '?').headD [])

/-! ### Milestone 1.1 -/

structure HttpRequest where
  method : String
  path : String
  version : String
  headers : Headers := ∅
  body : String := ""
  pathParams : Params := ∅

/-- `none` is `None`. -/
def HttpRequest.fromSocket (stream : Bytes) : Except ParseError (Option HttpRequest × Bytes) := do
  let (line, stream) := readline stream
  let requestLine := strip isSpace (latin1 line)
  if requestLine = [] then return (none, stream)
  match split requestLine with
  | [method, target, version] =>
    let (headers, stream) ← readHeaders stream ∅
    let (body, stream) ← readBody headers["content-length"]? stream
    let request : HttpRequest := {
      method := upper (String.ofList method)
      path := pathOf target
      version := String.ofList version
      headers := headers
      body := String.ofList (decodeUtf8 body) }
    return (some request, stream)
  | _ => throw (.malformedRequestLine (String.ofList requestLine))

structure HttpResponse where
  statusCode : Nat
  body : String := ""
  headers : List (String × String) := []
  deriving DecidableEq, Repr

namespace HttpResponse

def badRequest : HttpResponse := { statusCode := 400, body := "\x7b\"error\":\"bad_request\"\x7d" }

def notFound (message : String) : HttpResponse :=
  { statusCode := 404, body := message, headers := [("Content-Type", "application/json")] }

def serverError (message : String) : HttpResponse where
  statusCode := 500
  body := if message ≠ "" then message else "\x7b\"error\":\"internal\"\x7d"
  headers := [("Content-Type", "application/json")]

end HttpResponse

/-- What a connection comes to: the request that a route's handler ran on, and the response. -/
structure Exchange (ρ σ : Type) where
  ran : Option ρ
  sent : Option σ

/-- What a handler raises. -/
inductive Raised where
  | routeNotFound
  | other
  deriving DecidableEq, Repr

namespace HttpServer

abbrev Handler := HttpRequest → Except Raised HttpResponse

/-- `_handle_connection` -/
def handleConnection (router : Router Handler) (stream : Bytes) :
    Exchange HttpRequest HttpResponse :=
  let unresolved := HttpResponse.notFound "\x7b\"error\":\"not_found\"\x7d"
  match HttpRequest.fromSocket stream with
  | .ok (none, _) => ⟨none, none⟩
  | .ok (some request, _) => match router.resolve upper request.method request.path with
    | .error _ => ⟨none, some unresolved⟩
    | .ok (handler, params) =>
      let request := { request with pathParams := params }
      match handler request with
      | .ok response => ⟨some request, some response⟩
      | .error .routeNotFound => ⟨some request, some unresolved⟩
      | .error .other => ⟨some request, some (.serverError "")⟩
  | .error e => if e.isValueError then ⟨none, some .badRequest⟩ else ⟨none, none⟩

end HttpServer

/-! ### Milestone 1.2 -/

structure RawHttpRequest where
  method : String
  path : String
  version : String
  headers : Headers
  body : String
  pathParams : Params := ∅

structure Response where
  status : Nat := 200
  body : String := ""
  headers : List (String × String) := []
  deriving DecidableEq, Repr

/-- The JSON of a message without characters to escape. -/
def Response.error (message : String) (status : Nat) : Response where
  status := status
  body := "\x7b\"error\": \"" ++ message ++ "\"\x7d"
  headers := [("Content-Type", "application/json")]

namespace App

/-- `body = ""` and what follows it, given `headers.get("content-length")`. -/
def readText (contentLength : Option String) (stream : Bytes) :
    Except ParseError (String × Bytes) :=
  match contentLength with
  | some contentLength =>
    if contentLength ≠ "" then do
      let (bodyBytes, stream) ← readLength contentLength stream
      return (String.ofList (decodeUtf8 bodyBytes), stream)
    else .ok ("", stream)
  | none => .ok ("", stream)

/-- `_parse_request`; `none` is `None`. -/
def parseRequest (stream : Bytes) : Except ParseError (Option RawHttpRequest × Bytes) := do
  let (line, stream) := readline stream
  let requestLine := strip isSpace (latin1 line)
  if requestLine = [] then return (none, stream)
  match split requestLine with
  | [method, target, version] =>
    let (headers, stream) ← readHeaders stream ∅
    let (body, stream) ← readText headers["content-length"]? stream
    let request : RawHttpRequest := {
      method := upper (String.ofList method)
      path := pathOf target
      version := String.ofList version
      headers := headers
      body := body }
    return (some request, stream)
  | _ => throw (.malformedRequestLine (String.ofList requestLine))

/-- The route's pipeline, whose result is a response. -/
abbrev Handler := RawHttpRequest → Except Unit Response

/-- `_handle_connection`; an error that is no `ValueError` ends the task. -/
def handleConnection (app : App Handler) (stream : Bytes) : Exchange RawHttpRequest Response :=
  match parseRequest stream with
  | .error e =>
    if e.isValueError then ⟨none, some (.error "bad_request" 400)⟩ else ⟨none, none⟩
  | .ok (none, _) => ⟨none, none⟩
  | .ok (some request, _) => match app.matchRoute request.method request.path with
    | none => ⟨none, some (.error "not_found" 404)⟩
    | some (route, params) =>
      let request := { request with pathParams := params }
      match route.handler request with
      | .ok response => ⟨some request, some response⟩
      | .error _ => ⟨some request, some (.error "internal_server_error" 500)⟩

end App

end Portfolio.Framework
