import Portfolio.Framework.RequestRoundTrip
import Portfolio.Lib.PyDict

/-!
# Responses as bytes

`HttpResponse.to_bytes` of milestone 1.1, and `Response.to_http_response` with `App._send_response` of
milestone 1.2. Both merge the dictionary of the handler with the headers of the framework, in two
different orders. `parseResponse` is how a client takes the bytes apart again.
-/

namespace Portfolio.Framework
open Std Py

abbrev HeaderDict := Dict String String

/-! ### What both write -/

/-- `f"HTTP/1.1 {status} {reason}"` -/
def statusLine (status : Nat) (reason : String) : String := "HTTP/1.1 " ++ toString status ++ " " ++ reason

/-- `f"{name}: {value}"` -/
def headerText (e : String × String) : List Char := e.1.toList ++ ':' :: ' ' :: e.2.toList

def crlf : List Char := ['\r', '\n']

/-- The status line, the headers, an empty line and the payload. -/
def responseBytes (status : Nat) (reason : String) (headers : HeaderDict) (payload : Bytes) : Bytes :=
  utf8 ((statusLine status reason).toList ++ crlf ++ crlf.intercalate (headers.items.map headerText) ++
    (crlf ++ crlf)) ++ payload

/-! ### Milestone 1.1 -/

/-- `_STATUS_REASONS` -/
def statusReasons : List (Nat × String) :=
  [(200, "OK"), (201, "Created"), (204, "No Content"), (400, "Bad Request"), (404, "Not Found"),
    (405, "Method Not Allowed"), (500, "Internal Server Error")]

namespace HttpResponse

def reason (response : HttpResponse) : String := (statusReasons.lookup response.statusCode).getD "Unknown"

/-- `headers` in `to_bytes`. -/
def sentHeaders (response : HttpResponse) : HeaderDict :=
  let bodyBytes := utf8 response.body.toList
  let headers : HeaderDict := .ofItems response.headers
  ((Dict.empty.set "Content-Length" (toString bodyBytes.length)).set "Content-Type"
    ((headers.get? "Content-Type").getD
      (if response.body ≠ "" then "application/json" else "text/plain"))).update
    (headers.filterKeys fun k => lower k ≠ "content-length")

def toBytes (response : HttpResponse) : Bytes :=
  responseBytes response.statusCode response.reason response.sentHeaders (utf8 response.body.toList)

end HttpResponse

/-! ### Milestone 1.2 -/

inductive StatusBody where
  | str (s : String)
  | bytes (b : Bytes)
  deriving DecidableEq

/-- The body as `bytes`. -/
def StatusBody.payload : StatusBody → Bytes
  | str s => utf8 s.toList
  | bytes b => b

/-- `Response` with a body of either type. -/
structure FullResponse where
  status : Nat := 200
  body : StatusBody := .str ""
  headers : List (String × String) := []
  deriving DecidableEq

namespace FullResponse

def ensureSerialised (response : FullResponse) : Bytes × HeaderDict :=
  let payload := response.body.payload
  let headers := (Dict.empty.set "Content-Length" (toString payload.length)).update (.ofItems response.headers)
  if "content-type" ∉ headers.items.map fun e => lower e.1 then
    (payload, headers.set "Content-Type" (if payload ≠ [] then "application/json" else "text/plain"))
  else (payload, headers)

def toHttpResponse (response : FullResponse) : Nat × HeaderDict × Bytes :=
  let (payload, headers) := response.ensureSerialised
  (response.status, headers, payload)

end FullResponse

namespace App

/-- `_HTTP_STATUS_MESSAGES` -/
def httpStatusMessages : List (Nat × String) :=
  [(200, "OK"), (201, "Created"), (204, "No Content"), (400, "Bad Request"), (401, "Unauthorized"),
    (403, "Forbidden"), (404, "Not Found"), (405, "Method Not Allowed"), (500, "Internal Server Error")]

def reason (status : Nat) : String := (httpStatusMessages.lookup status).getD "OK"

/-- The bytes that `_send_response` sends. -/
def sendResponse (response : FullResponse) : Bytes :=
  let (status, headers, payload) := response.toHttpResponse
  responseBytes status (reason status) headers payload

end App

/-! ### What a client reads -/

/-- The text of a line without its end. -/
def lineText (line : Bytes) : List Char := (decodeUtf8 line).rdropWhile fun c => c ∈ crlf

/-- The name of a header line in lower case, and its value behind the colon and the space. -/
def fieldOf (line : Bytes) : String × String :=
  (lower (String.ofList ((lineText line).takeWhile (· ≠ ':'))),
    String.ofList (((lineText line).dropWhile (· ≠ ':')).drop 2))

structure ParsedResponse where
  statusLine : String
  fields : List (String × String)
  body : Bytes
  deriving DecidableEq

/-- A status line, header lines with a colon up to an empty line, and the body. -/
def parseResponse (stream : Bytes) : Option ParsedResponse :=
  let line := readline stream
  let s := headerSection line.2
  if s.ended ∧ ∀ line ∈ s.lines, ':' ∈ lineText line then
    some ⟨String.ofList (lineText line.1), s.lines.map fieldOf, s.rest⟩
  else none

/-- The number in a `Content-Length` header, which blanks may surround. -/
def lengthIn (value : String) : Option Nat :=
  let digits := strip (fun c => c = ' ' ∨ c = '\t') value.toList
  if Digits digits then some (decimal digits) else none

/-- One length, which is that of the body, one type, and the other headers of the dictionary. -/
structure ParsedResponse.Frames (parsed : ParsedResponse) (headers : HeaderDict) (payload : Bytes) : Prop where
  length : ∃ value, valuesOf "content-length" parsed.fields = [value] ∧
    lengthIn value = some parsed.body.length
  type : ∃ value, valuesOf "content-type" parsed.fields = [value]
  others : ∀ e ∈ headers.items, lower e.1 ≠ "content-length" → lower e.1 ≠ "content-type" →
    (lower e.1, e.2) ∈ parsed.fields
  body : parsed.body = payload

/-- The bytes are read as this status line and what frames the payload. -/
def WellFramed (line : String) (headers : HeaderDict) (payload response : Bytes) : Prop :=
  ∃ parsed, parseResponse response = some parsed ∧ parsed.statusLine = line ∧ parsed.Frames headers payload

end Portfolio.Framework
