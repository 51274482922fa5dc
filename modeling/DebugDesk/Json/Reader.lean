import DebugDesk.Json.Basic
import DebugDesk.Number.Decimal
import DebugDesk.Number.Numeral

/-!
# Reading JSON

A text is cut into tokens, and one pass over the tokens with a stack of open lists and objects
builds the value. Beyond the standard the literals `NaN`, `Infinity` and `-Infinity` are numbers.
Values that nest too deep are refused before anything else that is wrong behind the place.
-/
namespace DebugDesk.Json

inductive Token where
  | openList
  | closeList
  | openObject
  | closeObject
  | comma
  | colon
  | scalar (value : Json)

/-- Lists and objects that nest deeper are refused. -/
def maxDepth : Nat := 985

def isSpace (c : Char) : Bool := c = ' ' || c = '\t' || c = '\n' || c = '\r'

def digitsValue (base : Nat) (cs : List Char) : Nat :=
  cs.foldl (fun n c =>
    let d := if c.isDigit then c.toNat - 48 else if 'a' ≤ c then c.toNat - 87 else c.toNat - 55
    n * base + d) 0

def isHexDigit (c : Char) : Bool := c.isDigit || ('a' ≤ c && c ≤ 'f') || ('A' ≤ c && c ≤ 'F')

def unit? : List Char → Option (Nat × List Char)
  | a :: b :: c :: d :: rest =>
    if [a, b, c, d].all isHexDigit then some (digitsValue 16 [a, b, c, d], rest) else none
  | _ => none

/-- The code point of one escape after `\u`; a high surrogate takes a low one with it. -/
def unicodeEscape? (cs : List Char) : Option (Nat × List Char) := do
  let (high, rest) ← unit? cs
  if 0xD800 ≤ high ∧ high < 0xDC00 then
    match rest with
    | '\\' :: 'u' :: more =>
      match unit? more with
      | some (low, after) =>
        if 0xDC00 ≤ low ∧ low < 0xE000 then
          return (0x10000 + (high - 0xD800) * 0x400 + (low - 0xDC00), after)
        else return (high, rest)
      | none => return (high, rest)
    | _ => return (high, rest)
  else return (high, rest)

def simpleEscape? : Char → Option Char
  | '"' => some '"'
  | '\\' => some '\\'
  | '/' => some '/'
  | 'b' => some '\x08'
  | 'f' => some '\x0c'
  | 'n' => some '\n'
  | 'r' => some '\r'
  | 't' => some '\t'
  | _ => none

/-- The code points of a string literal after its opening quote; `fuel` bounds its length. -/
def stringBody : Nat → List Nat → List Char → Option (List Nat × List Char)
  | 0, _, _ => none
  | fuel + 1, done, cs =>
    match cs with
    | [] => none
    | '"' :: rest => some (done.reverse, rest)
    | '\\' :: 'u' :: rest =>
      match unicodeEscape? rest with
      | some (n, after) => stringBody fuel (n :: done) after
      | none => none
    | '\\' :: c :: rest =>
      match simpleEscape? c with
      | some c => stringBody fuel (c.toNat :: done) rest
      | none => none
    | c :: rest => if c.toNat < 0x20 then none else stringBody fuel (c.toNat :: done) rest

def fraction : List Char → List Char × List Char
  | '.' :: rest =>
    let digits := rest.takeWhile Char.isDigit
    if digits.isEmpty then ([], '.' :: rest) else (digits, rest.dropWhile Char.isDigit)
  | cs => ([], cs)

/-- The exponent, if one follows. -/
def exponent (cs : List Char) : Option Int × List Char :=
  match cs with
  | e :: rest =>
    if e = 'e' || e = 'E' then
      let (negative, body) := match rest with
        | '-' :: body => (true, body)
        | '+' :: body => (false, body)
        | body => (false, body)
      let digits := body.takeWhile Char.isDigit
      if digits.isEmpty then (none, cs)
      else
        let value : Int := digitsValue 10 digits
        (some (if negative then -value else value), body.dropWhile Char.isDigit)
    else (none, cs)
  | [] => (none, cs)

/-- The whole part: a zero alone, or digits that begin with another. -/
def wholePart : List Char → Option (List Char × List Char)
  | '0' :: rest => some (['0'], rest)
  | cs =>
    let digits := cs.takeWhile Char.isDigit
    if digits.isEmpty then none else some (digits, cs.dropWhile Char.isDigit)

/-- A number after its sign. It is an integer unless a fraction or an exponent is written. -/
def number? (negative : Bool) (cs : List Char) : Option (Json × List Char) := do
  let (whole, rest) ← wholePart cs
  let (places, rest) := fraction rest
  let (power, rest) := exponent rest
  if places.isEmpty && power.isNone then
    if whole.length > Numeral.maxDigits then none
    else
      let value : Int := digitsValue 10 whole
      return (int (if negative then -value else value), rest)
  else
    let value := Binary64.ofDecimal negative (digitsValue 10 (whole ++ places))
      (power.getD 0 - places.length)
    return (float value, rest)

def after? (word : String) (cs : List Char) : Option (List Char) :=
  if word.toList.isPrefixOf cs then some (cs.drop word.length) else none

/-- The first token of a text that does not begin with a space. -/
def token? (cs : List Char) : Option (Token × List Char) :=
  match cs with
  | [] => none
  | '[' :: rest => some (.openList, rest)
  | ']' :: rest => some (.closeList, rest)
  | '{' :: rest => some (.openObject, rest)
  | '}' :: rest => some (.closeObject, rest)
  | ',' :: rest => some (.comma, rest)
  | ':' :: rest => some (.colon, rest)
  | '"' :: rest =>
    (stringBody (rest.length + 1) [] rest).map fun (points, rest) =>
      (.scalar (ofPoints points), rest)
  | 'n' :: _ => (after? "null" cs).map (.scalar null, ·)
  | 't' :: _ => (after? "true" cs).map (.scalar (bool true), ·)
  | 'f' :: _ => (after? "false" cs).map (.scalar (bool false), ·)
  | 'N' :: _ => (after? "NaN" cs).map (.scalar (float (0.0 / 0.0)), ·)
  | 'I' :: _ => (after? "Infinity" cs).map (.scalar (float (1.0 / 0.0)), ·)
  | '-' :: 'I' :: _ => (after? "-Infinity" cs).map (.scalar (float (-1.0 / 0.0)), ·)
  | '-' :: rest => (number? true rest).map fun (v, rest) => (.scalar v, rest)
  | _ => (number? false cs).map fun (v, rest) => (.scalar v, rest)

/-- The tokens of a text, as far as it can be cut into tokens, and whether that is to its end;
`fuel` bounds their number. -/
def tokens : Nat → List Token → List Char → List Token × Bool
  | 0, done, _ => (done.reverse, false)
  | fuel + 1, done, cs =>
    match cs.dropWhile isSpace with
    | [] => (done.reverse, true)
    | c :: rest =>
      match token? (c :: rest) with
      | some (t, after) => tokens fuel (t :: done) after
      | none => (done.reverse, false)

/-- A container that is still open. The items of a list are kept last first. -/
inductive Frame where
  | items (done : List Json)
  | members (done : List (String × Json)) (name : String)

/-- What the next token may be. -/
inductive Expect where
  | value
  /-- A first item or the end of the list. -/
  | item
  /-- A first name or the end of the object. -/
  | firstName
  | name
  | colon (name : String)
  /-- A comma or the end of the innermost container. -/
  | next
  | finished (value : Json)

structure Building where
  expect : Expect
  frames : List Frame

def Building.complete (frames : List Frame) (value : Json) : Building :=
  match frames with
  | [] => ⟨.finished value, []⟩
  | .items done :: rest => ⟨.next, .items (value :: done) :: rest⟩
  | .members done name :: rest => ⟨.next, .members (setMember name value done) "" :: rest⟩

def Building.enter (expect : Expect) (frame : Frame) (frames : List Frame) :
    Except Fault Building :=
  if frames.length < maxDepth then .ok ⟨expect, frame :: frames⟩ else .error .tooDeep

def Building.start (frames : List Frame) : Token → Except Fault Building
  | .openList => enter .item (.items []) frames
  | .openObject => enter .firstName (.members [] "") frames
  | .scalar v => .ok (complete frames v)
  | _ => .error .notJson

def Building.named (value : Json) (frames : List Frame) : Except Fault Building :=
  match value.name? with
  | some name => .ok ⟨.colon name, frames⟩
  | none => .error .notJson

def Building.step (b : Building) (t : Token) : Except Fault Building :=
  match b.expect, t, b.frames with
  | .value, t, frames => start frames t
  | .item, .closeList, .items _ :: rest => .ok (complete rest (list []))
  | .item, t, frames => start frames t
  | .firstName, .closeObject, _ :: rest => .ok (complete rest (object []))
  | .firstName, .scalar value, frames => named value frames
  | .name, .scalar value, frames => named value frames
  | .colon name, .colon, .members done _ :: rest => .ok ⟨.value, .members done name :: rest⟩
  | .next, .comma, .items done :: rest => .ok ⟨.value, .items done :: rest⟩
  | .next, .comma, .members done _ :: rest => .ok ⟨.name, .members done "" :: rest⟩
  | .next, .closeList, .items done :: rest => .ok (complete rest (list done.reverse))
  | .next, .closeObject, .members done _ :: rest => .ok (complete rest (object done))
  | _, _, _ => .error .notJson

/-- The value that a text is; it has to be exactly one. -/
def parse (text : String) : Except Fault Json := do
  let (ts, complete) := tokens (text.length + 1) [] text.toList
  let b ← ts.foldlM Building.step ⟨.value, []⟩
  match complete, b.expect with
  | true, .finished v => .ok v
  | _, _ => .error .notJson

end DebugDesk.Json
