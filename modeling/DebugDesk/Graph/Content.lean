import DebugDesk.Color
import DebugDesk.Random.Twister
import DebugDesk.Text.Quoted

/-!
# Text of vertices

A vertex shows lines of text, each made of runs in one color and font. A content provider fills in
the lines of new vertices: none, the same ones for all, or a random listing of instructions that
goes on from vertex to vertex.
-/
namespace DebugDesk

structure TextRun where
  text : String
  color : Option (Color Float)
  /-- The family; without one the font of the style is used. -/
  font : Option String
  deriving Repr

abbrev TextLine := List TextRun

namespace TextRun

def summary (r : TextRun) : String := s!"TextRun({Text.quoted r.text})"

end TextRun

namespace TextLine

def raw (line : TextLine) : String := String.join (line.map TextRun.text)

def summary (line : TextLine) : String := s!"Line({Text.quoted (raw line)})"

def rawLines (lines : List TextLine) : String := "\n".intercalate (lines.map raw)

end TextLine

/-- A listing in progress: the generator, the number of lines per vertex, the next address. -/
structure Listing where
  generator : Twister
  minLines : Nat
  maxLines : Nat
  address : Nat

namespace Listing

def make (seed minLines maxLines : Int) : Except Fault Listing :=
  if 1 ≤ minLines ∧ minLines ≤ maxLines then
    .ok ⟨Twister.ofSeed seed, minLines.toNat, maxLines.toNat, 0⟩
  else .error (.listingLines minLines maxLines)

def instructions : Array String :=
  #["MOVE", "LOADK", "LOADBOOL", "LOADNIL", "GETUPVAL", "GETGLOBAL", "GETTABLE", "SETGLOBAL",
    "SETUPVAL", "SETTABLE", "NEWTABLE", "SELF", "ADD", "SUB", "MUL", "DIV", "MOD", "POW", "UNM",
    "NOT", "LEN", "CONCAT", "JMP", "EQ", "LT", "LE", "TEST", "TESTSET", "CALL", "TAILCALL",
    "RETURN", "FORLOOP", "FORPREP", "TFORLOOP", "SETLIST", "CLOSE", "CLOSURE", "VARARG"]

def highlighted : List String := ["LOADK", "FORPREP"]

def addressColor : Color Float := Color.ofComponents (0x9b, 0x9b, 0x9b) 1.0

def instructionColor : Color Float := Color.ofComponents (0xb6, 0x86, 0xc1) 1.0

def highlightedColor : Color Float := Color.ofComponents (0xad, 0x97, 0x64) 1.0

def operandColor : Color Float := Color.ofComponents (0x3f, 0xaa, 0xb5) 1.0

/-- Address in at least four hexadecimal digits and two spaces. -/
def addressText (address : Nat) : String := (Text.hexPadded 4 address).toUpper ++ "  "

def instructionText (name : String) : String := name.pushn ' ' (10 - name.length)

/-- So many random operands. -/
def operands : Nat → Twister → List String × Twister
  | 0, t => ([], t)
  | n + 1, t =>
    let (value, t) := t.below 256
    let (rest, t) := operands n t
    (toString value :: rest, t)

/-- The next line of the listing. -/
def line (l : Listing) : TextLine × Listing :=
  let (choice, t) := l.generator.below instructions.size
  let name := instructions.getD choice ""
  let (extra, t) := t.below 2
  let (values, t) := operands (2 + extra) t
  let color := if highlighted.contains name then highlightedColor else instructionColor
  ([⟨addressText l.address, some addressColor, none⟩, ⟨instructionText name, some color, none⟩,
    ⟨" ".intercalate values, some operandColor, none⟩],
    { l with generator := t, address := l.address + 4 })

def lines : Nat → Listing → List TextLine × Listing
  | 0, l => ([], l)
  | n + 1, l =>
    let (first, l) := l.line
    let (rest, l) := lines n l
    (first :: rest, l)

def provide (l : Listing) : List TextLine × Listing :=
  let (n, t) := l.generator.below (l.maxLines - l.minLines + 1)
  lines (l.minLines + n) { l with generator := t }

end Listing

inductive ContentProvider where
  | nothing
  /-- The same lines for every vertex. -/
  | fixed (lines : List TextLine)
  | listing (l : Listing)

/-- The lines of a new vertex, and the provider for the next one. -/
def ContentProvider.provide : ContentProvider → List TextLine × ContentProvider
  | nothing => ([], nothing)
  | fixed lines => (lines, fixed lines)
  | listing l =>
    let (lines, l) := l.provide
    (lines, listing l)

end DebugDesk
