import Std.Data.TreeMap
import Portfolio.Lib.Text

/-!
# Payloads of the chat server

`make_payload`, `escape_json` and `parse_json_object` of `lab1.3-ws-chat/websocket_session.cpp`. The
parser is the source's loop over five states; a position is the rest of the text from there. Reading a
payload gives back the fields it was made of, whatever characters they hold.
-/

namespace Portfolio.Chat
open Std

/-! ### Writing -/

/-- One pass of the loop of `escape_json`. -/
def escapeChar : Char → List Char
  | '\\' => ['\\', '\\']
  | '"' => ['\\', '"']
  | '\n' => ['\\', 'n']
  | '\r' => ['\\', 'r']
  | '\t' => ['\\', 't']
  | ch => [ch]

def escapeJson (value : String) : String := String.ofList (value.toList.flatMap escapeChar)

def makePayload (type : String) (fields : List (String × String)) : String :=
  let json := "\x7b\"type\":\"" ++ escapeJson type ++ "\""
  fields.foldl (fun json field =>
    json ++ ",\"" ++ escapeJson field.1 ++ "\":\"" ++ escapeJson field.2 ++ "\"") json ++ "\x7d"

/-! ### Reading -/

def unescape : Char → Option Char
  | '\\' => some '\\'
  | '"' => some '"'
  | '/' => some '/'
  | 'b' => some '\x08'
  | 'f' => some '\x0c'
  | 'n' => some '\n'
  | 'r' => some '\r'
  | 't' => some '\t'
  | _ => none

/-- The loop of `parse_string`, after the opening quote: the value and what follows the closing quote. -/
def scanString : List Char → Option (List Char × List Char)
  | [] => none
  | '"' :: rest => some ([], rest)
  | ['\\'] => none
  | '\\' :: esc :: rest =>
    match unescape esc with
    | none => none
    | some ch => (scanString rest).map fun r => (ch :: r.1, r.2)
  | ch :: rest => (scanString rest).map fun r => (ch :: r.1, r.2)

def parseString : List Char → Option (String × List Char)
  | '"' :: rest => (scanString rest).map fun r => (String.ofList r.1, r.2)
  | _ => none

def skipWs (input : List Char) : List Char := input.dropWhile isSpace

inductive State where
  | expectObjectStart
  | expectKeyOrEnd
  | expectColon
  | expectValue
  | expectCommaOrEnd
  deriving DecidableEq, Repr

/-- The variables of the loop. -/
structure Parse where
  state : State := .expectObjectStart
  key : String := ""
  result : TreeMap String String := ∅

/-- A pass goes on with the rest of the text, or the function returns. -/
inductive Pass where
  | next (p : Parse) (rest : List Char)
  | done (ok : Bool) (result : TreeMap String String)

namespace Parse

/-- The `switch`, at a position that is neither white space nor the end. -/
def pass (p : Parse) (input : List Char) : Pass :=
  match p.state with
  | .expectObjectStart => match input with
    | '\x7b' :: rest => .next { p with state := .expectKeyOrEnd } rest
    | _ => .done false p.result
  | .expectKeyOrEnd => match input with
    | '\x7d' :: _ => .done true p.result
    | _ => match parseString input with
      | none => .done false p.result
      | some (key, rest) => .next { p with state := .expectColon, key := key } rest
  | .expectColon => match input with
    | ':' :: rest => .next { p with state := .expectValue } rest
    | _ => .done false p.result
  | .expectValue => match parseString input with
    | none => .done false p.result
    | some (value, rest) =>
      .next { p with state := .expectCommaOrEnd, result := p.result.insert p.key value } rest
  | .expectCommaOrEnd => match input with
    | ',' :: rest => .next { p with state := .expectKeyOrEnd } rest
    | '\x7d' :: _ => .done true p.result
    | _ => .done false p.result

/-- The loop, for a number of passes that is given; the end of the text is reached before it. -/
def loop : Nat → Parse → List Char → Bool × TreeMap String String
  | 0, p, _ => (false, p.result)
  | fuel + 1, p, input =>
    match skipWs input with
    | [] => (decide (p.state = .expectCommaOrEnd), p.result)
    | ch :: rest => match p.pass (ch :: rest) with
      | .next p rest => loop fuel p rest
      | .done ok result => (ok, result)

/-- Every pass consumes a character. -/
def run (p : Parse) (input : List Char) : Bool × TreeMap String String := loop (input.length + 1) p input

end Parse

/-- The flag `ok` and the fields. -/
def parseJsonObject (payload : String) : Bool × TreeMap String String := Parse.run {} payload.toList

/-! ### The loop ends -/

theorem length_scanString {input value rest : List Char} (h : scanString input = some (value, rest)) :
    rest.length < input.length := by
  fun_induction scanString input generalizing value with
  | case1 => cases h
  | case2 input =>
    cases h
    exact Nat.lt_succ_self _
  | case3 => cases h
  | case4 esc input hesc => cases h
  | case5 esc input ch hesc ih =>
    obtain ⟨r, hr, heq⟩ := Option.map_eq_some_iff.1 h
    cases heq
    have := ih hr
    simp only [List.length_cons]
    omega
  | case6 ch input hquote hend hescape ih =>
    obtain ⟨r, hr, heq⟩ := Option.map_eq_some_iff.1 h
    cases heq
    exact Nat.lt_succ_of_lt (ih hr)

theorem length_parseString {input rest : List Char} {value : String}
    (h : parseString input = some (value, rest)) : rest.length < input.length := by
  unfold parseString at h
  split at h
  · obtain ⟨r, hr, heq⟩ := Option.map_eq_some_iff.1 h
    cases heq
    exact Nat.lt_succ_of_lt (length_scanString hr)
  · cases h

theorem Parse.length_pass {p p' : Parse} {input rest : List Char} (h : p.pass input = .next p' rest) :
    rest.length < input.length := by
  unfold Parse.pass at h
  split at h
  · split at h
    · cases h
      exact Nat.lt_succ_self _
    · cases h
  · split at h
    · cases h
    · split at h
      · cases h
      · rename_i hparse
        cases h
        exact length_parseString hparse
  · split at h
    · cases h
      exact Nat.lt_succ_self _
    · cases h
  · split at h
    · cases h
    · rename_i hparse
      cases h
      exact length_parseString hparse
  · split at h
    · cases h
      exact Nat.lt_succ_self _
    · cases h
    · cases h

/-- More passes than characters change nothing. -/
theorem Parse.loop_eq_run {fuel : Nat} {p : Parse} {input : List Char} (h : input.length < fuel) :
    loop fuel p input = p.run input := by
  have hloop : ∀ (n m : Nat) (p : Parse) (input : List Char), input.length < n → input.length < m →
      loop n p input = loop m p input := by
    intro n
    induction n with
    | zero => exact fun m p input hn => absurd hn (Nat.not_lt_zero _)
    | succ n ih =>
      intro m p input hn hm
      obtain ⟨m, rfl⟩ : ∃ k, m = k + 1 := ⟨m - 1, by omega⟩
      simp only [loop]
      have hskip : (skipWs input).length ≤ input.length := (List.dropWhile_sublist _).length_le
      cases hs : skipWs input with
      | nil => rfl
      | cons ch rest =>
        rw [hs] at hskip
        cases hp : p.pass (ch :: rest) with
        | done ok result => simp only [hp]
        | next p' rest' =>
          have := length_pass hp
          simp only [hp]
          exact ih m p' rest' (by omega) (by omega)
  exact hloop fuel _ p input h (Nat.lt_succ_self _)

/-- The pass at a position where there is no white space to skip. -/
theorem Parse.run_next {p p' : Parse} {input rest : List Char} (hp : p.pass input = .next p' rest)
    (hs : skipWs input = input) : p.run input = p'.run rest := by
  have hpass := length_pass hp
  unfold run
  rw [loop, hs]
  cases input with
  | nil => exact absurd hpass (Nat.not_lt_zero _)
  | cons ch input =>
    dsimp only
    rw [hp]
    exact loop_eq_run hpass

/-! ### Reading what was written -/

theorem scanString_of_ne {ch : Char} (hquote : ch ≠ '"') (hslash : ch ≠ '\\') (input : List Char) :
    scanString (ch :: input) = (scanString input).map fun r => (ch :: r.1, r.2) := by
  rw [scanString]
  · exact hquote
  · rintro rfl
    exact absurd rfl hslash
  · rintro esc rest rfl
    exact absurd rfl hslash

theorem scanString_escapeChar (ch : Char) (input : List Char) :
    scanString (escapeChar ch ++ input) = (scanString input).map fun r => (ch :: r.1, r.2) := by
  unfold escapeChar
  split
  · rfl
  · rfl
  · rfl
  · rfl
  · rfl
  · rename_i hslash hquote _ _ _
    exact scanString_of_ne hquote hslash input

theorem scanString_escape (value rest : List Char) :
    scanString (value.flatMap escapeChar ++ '"' :: rest) = some (value, rest) := by
  induction value with
  | nil => rfl
  | cons ch value ih =>
    rw [List.flatMap_cons, List.append_assoc, scanString_escapeChar, ih]
    rfl

/-- A string as it stands in a payload. -/
def quoted (value : String) : List Char := '"' :: value.toList.flatMap escapeChar ++ ['"']

theorem parseString_quoted (value : String) (rest : List Char) :
    parseString (quoted value ++ rest) = some (value, rest) := by
  have h := scanString_escape value.toList rest
  simp only [quoted, List.cons_append, List.append_assoc, List.nil_append, parseString]
  rw [h]
  simp

/-- A member: the key and the value, up to the comma or brace behind it. -/
theorem run_member (p : Parse) (hp : p.state = .expectKeyOrEnd) (key value : String) (rest : List Char) :
    p.run (quoted key ++ ':' :: (quoted value ++ rest)) =
      Parse.run { state := .expectCommaOrEnd, key := key, result := p.result.insert key value } rest := by
  have hkey : p.pass (quoted key ++ ':' :: (quoted value ++ rest)) =
      .next { p with state := .expectColon, key := key } (':' :: (quoted value ++ rest)) := by
    unfold Parse.pass
    rw [hp]
    dsimp only
    split
    · rename_i heq
      cases heq
    · rw [parseString_quoted]
  have hcolon : Parse.pass { p with state := .expectColon, key := key } (':' :: (quoted value ++ rest)) =
      .next { p with state := .expectValue, key := key } (quoted value ++ rest) := rfl
  have hvalue : Parse.pass { p with state := .expectValue, key := key } (quoted value ++ rest) =
      .next { state := .expectCommaOrEnd, key := key, result := p.result.insert key value } rest := by
    unfold Parse.pass
    dsimp only
    rw [parseString_quoted]
  rw [Parse.run_next hkey rfl, Parse.run_next hcolon rfl, Parse.run_next hvalue rfl]

/-- The text of the fields after the type, with the closing brace. -/
def fieldsText (fields : List (String × String)) : List Char :=
  fields.flatMap (fun field => ',' :: quoted field.1 ++ ':' :: quoted field.2) ++ ['\x7d']

theorem run_fieldsText (fields : List (String × String)) (key : String) (result : TreeMap String String) :
    Parse.run { state := .expectCommaOrEnd, key := key, result := result } (fieldsText fields) =
      (true, fields.foldl (fun m field => m.insert field.1 field.2) result) := by
  induction fields generalizing key result with
  | nil => rfl
  | cons field fields ih =>
    have htext : fieldsText (field :: fields) =
        ',' :: (quoted field.1 ++ ':' :: (quoted field.2 ++ fieldsText fields)) := by
      simp [fieldsText]
    have hcomma : Parse.pass { state := .expectCommaOrEnd, key := key, result := result }
        (fieldsText (field :: fields)) = .next { state := .expectKeyOrEnd, key := key, result := result }
          (quoted field.1 ++ ':' :: (quoted field.2 ++ fieldsText fields)) := by
      rw [htext]
      rfl
    rw [Parse.run_next hcomma (by rw [htext]; rfl), run_member _ rfl]
    exact ih field.1 (result.insert field.1 field.2)

theorem toList_makePayload (type : String) (fields : List (String × String)) :
    (makePayload type fields).toList =
      '\x7b' :: (quoted "type" ++ ':' :: (quoted type ++ fieldsText fields)) := by
  have hfold : ∀ (fields : List (String × String)) (json : String),
      (fields.foldl (fun json field =>
        json ++ ",\"" ++ escapeJson field.1 ++ "\":\"" ++ escapeJson field.2 ++ "\"") json).toList =
      json.toList ++ fields.flatMap (fun field => ',' :: quoted field.1 ++ ':' :: quoted field.2) := by
    intro fields
    induction fields with
    | nil => simp
    | cons field fields ih =>
      intro json
      rw [List.foldl_cons, ih]
      simp [quoted, escapeJson]
  unfold makePayload
  dsimp only
  rw [String.toList_append, hfold]
  simp [quoted, escapeJson, fieldsText, escapeChar]

/-- A payload is read back as the map of its bindings, the later ones winning. -/
theorem parseJsonObject_makePayload (type : String) (fields : List (String × String)) :
    parseJsonObject (makePayload type fields) =
      (true, (("type", type) :: fields).foldl (fun m field => m.insert field.1 field.2) ∅) := by
  have hstart : Parse.pass {} (makePayload type fields).toList =
      .next { state := .expectKeyOrEnd } (quoted "type" ++ ':' :: (quoted type ++ fieldsText fields)) := by
    rw [toList_makePayload]
    rfl
  unfold parseJsonObject
  rw [Parse.run_next hstart (by rw [toList_makePayload]; rfl), run_member _ rfl, run_fieldsText]
  rfl

end Portfolio.Chat
