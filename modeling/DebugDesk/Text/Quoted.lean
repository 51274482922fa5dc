import DebugDesk.Text.Printable

/-!
# Quoted text

A string inside a message stands in single quotes, or in double quotes if it holds a single quote
and no double one. The quote in use, the backslash and what does not print are escaped.
-/
namespace DebugDesk.Text

def hexPadded (width n : Nat) : String :=
  let digits := String.ofList (Nat.toDigits 16 n)
  "".pushn '0' (width - digits.length) ++ digits

def escapeCode (n : Nat) : String :=
  if n < 0x100 then "\\x" ++ hexPadded 2 n
  else if n < 0x10000 then "\\u" ++ hexPadded 4 n
  else "\\U" ++ hexPadded 8 n

def escapeChar (quote c : Char) : String :=
  if c = quote || c = '\\' then "\\" ++ c.toString
  else if c = '\n' then "\\n"
  else if c = '\r' then "\\r"
  else if c = '\t' then "\\t"
  else if isPrintable c then c.toString
  else escapeCode c.toNat

def escapePoint (quote : Char) (n : Nat) : String :=
  if n.isValidChar then escapeChar quote (Char.ofNat n) else escapeCode n

def quoteFor (points : List Nat) : Char :=
  if points.contains '\''.toNat && !points.contains '"'.toNat then '"' else '\''

def quotedPoints (points : List Nat) : String :=
  let q := quoteFor points
  q.toString ++ String.join (points.map (escapePoint q)) ++ q.toString

def quoted (s : String) : String := quotedPoints (s.toList.map Char.toNat)

/-- A sequence of quoted strings in parentheses; a single one is followed by a comma. -/
def quotedTuple : List String → String
  | [s] => "(" ++ quoted s ++ ",)"
  | ss => "(" ++ ", ".intercalate (ss.map quoted) ++ ")"

def quotedList (ss : List String) : String := "[" ++ ", ".intercalate (ss.map quoted) ++ "]"

end DebugDesk.Text
