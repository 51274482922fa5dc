import DebugDesk.Effect
import DebugDesk.Number.Scalar

/-!
# Toolkit

What a toolkit can be asked for, and one that keeps the windows and widgets on the screen as items
with options and children. All that is asked of that one is written down as calls. Its items are
named by tags given to them, or by the order of creation.
-/
namespace DebugDesk

namespace Toolkit

inductive Value where
  | nothing
  | flag (b : Bool)
  | number (x : Float)
  | text (s : String)
  /-- A text that is no sequence of characters, by its code points. -/
  | broken (points : List Nat)
  | list (values : List Value)
  /-- What the toolkit does not look into, such as something to be called back. -/
  | hidden

namespace Value

instance : Inhabited Value := ⟨nothing⟩

def point (x y : Float) : Value := list [number x, number y]

def ofOption : Option String → Value
  | some s => text s
  | none => nothing

end Value

abbrev Options := List (String × Value)

structure Call where
  function : String
  arguments : List Value
  options : Options

/-- An item of the screen; `κ` is what its callback does. -/
structure Item (κ : Type) where
  id : String
  /-- The function that made it. -/
  kind : String
  options : Options
  parent : Option String
  callback : Option κ

/-- What the toolkit can tell about the size of text. -/
inductive TextMode where
  /-- Nothing yet. -/
  | unknown
  | zero
  | measured
  deriving DecidableEq, Repr

/-- What the children of a table are deleted by: all of them, or the rows but not the columns. -/
inductive Slot where
  | all
  | rows
  deriving DecidableEq, Repr

end Toolkit

open Toolkit in
/-- What can be asked of a toolkit `τ` whose callbacks do `κ`. -/
class Gui (τ : Type) (κ : outParam Type) where
  /-- Nothing is made yet. -/
  empty : τ
  /-- Makes an item: its id and the toolkit with it. -/
  make (t : τ) (kind : String) (arguments : List Value) (options : Options) (callback : Option κ) :
    String × τ
  enter (t : τ) (id : String) : τ
  leave (t : τ) : τ
  container? (t : τ) : Option String
  /-- Calls a function that tells nothing. -/
  call (t : τ) (function : String) (arguments : List Value) (options : Options) : τ
  /-- Draws a shape above an item: its id and the toolkit with it. -/
  draw (t : τ) (kind : String) (arguments : List Value) (options : Options) (above : String) :
    String × τ
  /-- Deletes an item; tells whether there was one. -/
  delete (t : τ) (id : Option String) : Bool × τ
  /-- Deletes the children of an item; fails if there is no such item. -/
  deleteChildren (id : Option String) (slot : Slot) : Effect τ Unit
  /-- Changes options of an item; fails if there is no such item. -/
  configure (id : String) (options : Options) : Effect τ Unit
  extentOf (t : τ) (id : String) : Float × Float
  mouse (t : τ) : Point Float
  setMouse (t : τ) (position : Point Float) : τ
  mouseIn (t : τ) (id : String) : Except Fault (Point Float)
  isMouseInside (t : τ) (id : String) : Except Fault Bool
  scrollMax (t : τ) (id : String) : Float
  /-- The size of a text in a font, if it is known. -/
  textSize (t : τ) (text : String) (font : Value) : Option (Float × Float)
  setTextMode (t : τ) (mode : TextMode) : τ
  /-- The callbacks of all items of a kind, in order of creation. -/
  callbacksOf (t : τ) (kind : String) : List κ
  /-- The first button of a label, inside a window of a given label if one is given. -/
  button? (t : τ) (label : String) (window : Option String) : Option (Item κ)
  menuItem? (t : τ) (path : List String) : Option (Item κ)
  /-- Where all widgets are, as far as the toolkit tells. -/
  rectMin (t : τ) : Point Float
  setRectMin (t : τ) (position : Point Float) : τ
  /-- Forgets what it was asked, if it keeps that. -/
  forget (t : τ) : τ

structure Toolkit (κ : Type) where
  /-- The items that exist, in order of creation. -/
  items : List (Toolkit.Item κ)
  /-- How many items were ever made, apart from drawn shapes. -/
  made : Nat
  /-- How many shapes were ever drawn. -/
  drawn : Nat
  /-- The containers that new items go into, innermost first. -/
  containers : List String
  /-- What was asked of the toolkit, latest first. -/
  calls : List Toolkit.Call
  mouse : Point Float
  /-- Where all widgets are, as far as the toolkit tells. -/
  rectMin : Point Float
  textMode : Toolkit.TextMode

namespace Toolkit

variable {κ : Type}

def empty : Toolkit κ := ⟨[], 0, 0, [], [], ⟨0, 0⟩, ⟨0, 0⟩, .unknown⟩

def record (t : Toolkit κ) (function : String) (arguments : List Value) (options : Options) :
    Toolkit κ :=
  { t with calls := ⟨function, arguments, options⟩ :: t.calls }

def takeCalls (t : Toolkit κ) : List Call × Toolkit κ := (t.calls.reverse, { t with calls := [] })

def numberOption (options : Options) (name : String) (absent : Float) : Float :=
  match options.lookup name with
  | some (.number x) => x
  | _ => absent

/-- Gives an option a value, in place of the one it has. -/
def setOption (options : Options) (name : String) (value : Value) : Options :=
  if (options.lookup name).isSome then
    options.map fun (n, v) => if n = name then (n, value) else (n, v)
  else options ++ [(name, value)]

def find? (t : Toolkit κ) (id : String) : Option (Item κ) := t.items.find? fun item => item.id = id

def exists? (t : Toolkit κ) (id : String) : Bool := (t.find? id).isSome

/-- Puts an item in the place of the one with its id, or else behind all others. -/
def put (t : Toolkit κ) (item : Item κ) : Toolkit κ :=
  { t with items :=
      if t.exists? item.id then t.items.map fun old => if old.id = item.id then item else old
      else t.items ++ [item] }

/-- Makes an item: its id and the toolkit with it. Its parent is the one given, or else the
innermost open container. -/
def make (t : Toolkit κ) (kind : String) (arguments : List Value) (options : Options)
    (callback : Option κ) : String × Toolkit κ :=
  let made := t.made + 1
  let (id, made) := match options.lookup "tag" with
    | some (.text tag) => (tag, t.made)
    | _ => (s!"#{made}", made)
  let parent := match options.lookup "parent" with
    | some (.text parent) => some parent
    | _ => t.containers.head?
  (id, { (t.record kind arguments options).put ⟨id, kind, options, parent, callback⟩ with made })

def enter (t : Toolkit κ) (id : String) : Toolkit κ := { t with containers := id :: t.containers }

def leave (t : Toolkit κ) : Toolkit κ := { t with containers := t.containers.tail }

/-- Draws a shape: its id and the toolkit with it. Shapes are no items, but one takes the place of
an item with its id. -/
def draw (t : Toolkit κ) (kind : String) (arguments : List Value) (options : Options)
    (above : String) :
    String × Toolkit κ :=
  let id := s!"d{t.drawn + 1}"
  let options := options ++ [("parent", .text above)]
  let t := { t.record kind arguments options with drawn := t.drawn + 1 }
  (id, if t.exists? id then t.put ⟨id, kind, options, some above, none⟩ else t)

/-- The ids given and those of all items below them. An item may be made before its parent, and be
its own. -/
def withBelow (t : Toolkit κ) (ids : List String) : List String :=
  let rec go : Nat → List String → List String
    | 0, ids => ids
    | levels + 1, ids =>
      let below := t.items.filter fun item =>
        !ids.contains item.id && item.parent.any ids.contains
      if below.isEmpty then ids else go levels (below.map Item.id ++ ids)
  go t.items.length ids

def drop (t : Toolkit κ) (ids : List String) : Toolkit κ :=
  { t with items := t.items.filter fun item => !ids.contains item.id }

def childrenOf (t : Toolkit κ) (id : String) : List (Item κ) :=
  t.items.filter fun item => item.parent = some id

def delete (t : Toolkit κ) (id : Option String) : Bool × Toolkit κ :=
  let t := t.record "delete_item" [.ofOption id] []
  match id with
  | some id => if t.exists? id then (true, t.drop (t.withBelow [id])) else (false, t)
  | none => (false, t)

/-- Deletes the children of an item with all that is below them, but not the item; fails if there is
no such item. -/
def deleteChildren (id : Option String) (slot : Slot) : Effect (Toolkit κ) Unit := do
  modify (·.record "delete_item" [.ofOption id] (("children_only", .flag true) ::
    match slot with
    | .all => []
    | .rows => [("slot", .number 1)]))
  match id with
  | none => throw .unknownItem
  | some id =>
    let t ← get
    if !t.exists? id then throw .unknownItem
    let goes := (t.childrenOf id).filter fun item =>
      slot = .all || item.kind != "add_table_column"
    set (t.drop ((t.withBelow (goes.map Item.id)).filter (· != id)))

def modifyOptions (t : Toolkit κ) (id : String) (f : Options → Options) : Toolkit κ :=
  { t with items := t.items.map fun item =>
      if item.id = id then { item with options := f item.options } else item }

/-- Changes options of an item; fails if there is no such item. -/
def configure (id : String) (options : Options) : Effect (Toolkit κ) Unit := do
  modify (·.record "configure_item" [.text id] options)
  if !(← get).exists? id then throw .unknownItem
  modify (·.modifyOptions id fun old => options.foldl (fun os (n, v) => setOption os n v) old)

def isWindow (item : Item κ) : Bool := item.kind = "window"

def isChildWindow (item : Item κ) : Bool :=
  item.kind = "child_window" || item.kind = "add_child_window"

/-- Where an item is in the viewport. Windows tell it by an option. -/
def positionOf (t : Toolkit κ) (id : String) : Except Fault (Point Float) :=
  match t.find? id with
  | none => .error .unknownItem
  | some item =>
    if isWindow item || isChildWindow item then
      match item.options.lookup "pos" with
      | some (.list [.number x, .number y]) => .ok ⟨x, y⟩
      | _ => .ok ⟨0, 0⟩
    else .ok t.rectMin

def extent (item : Item κ) : Float × Float :=
  (numberOption item.options "width" 0, numberOption item.options "height" 0)

def extentOf (t : Toolkit κ) (id : String) : Float × Float := ((t.find? id).map extent).getD (0, 0)

/-- Width and height of an item. A child window without them has none. -/
def sizeOf (t : Toolkit κ) (id : String) : Except Fault (Float × Float) :=
  match t.find? id with
  | none => .error .unknownItem
  | some item =>
    if isChildWindow item then
      match item.options.lookup "width", item.options.lookup "height" with
      | some (.number w), some (.number h) => .ok (w, h)
      | _, _ => .error .unknownName
    else .ok (extent item)

def mouseIn (t : Toolkit κ) (id : String) : Except Fault (Point Float) := do
  let origin ← t.positionOf id
  return ⟨t.mouse.x - origin.x, t.mouse.y - origin.y⟩

def isMouseInside (t : Toolkit κ) (id : String) : Except Fault Bool := do
  let p ← t.mouseIn id
  let (w, h) ← t.sizeOf id
  return 0 ≤ p.x && p.x < w && 0 ≤ p.y && p.y < h

/-- How far an item can be scrolled: ten per child. -/
def scrollMax (t : Toolkit κ) (id : String) : Float :=
  Binary64.ofInt (10 * ((t.childrenOf id).length : Int))

/-- The size of a text in a font, if it is known. -/
def textSize (t : Toolkit κ) (text : String) (font : Value) : Option (Float × Float) :=
  let length := Binary64.ofInt (text.length : Int)
  match t.textMode with
  | .unknown => none
  | .zero => some (0, 0)
  | .measured =>
    match font with
    | .number x => some (if x == 0 then (7 * length, 13) else (9 * length, 18))
    | _ => some (9 * length, 18)

def callbacksOf (t : Toolkit κ) (kind : String) : List κ :=
  (t.items.filter fun item => item.kind = kind).filterMap Item.callback

def labelOf (item : Item κ) : Option String :=
  match item.options.lookup "label" with
  | some (.text s) => some s
  | _ => none

/-- The topmost item above an item, or the item itself. Only so many steps are taken. -/
def topOf (t : Toolkit κ) : Nat → Item κ → Item κ
  | 0, item => item
  | steps + 1, item =>
    match item.parent.bind t.find? with
    | some above => topOf t steps above
    | none => item

/-- The first button of a label, inside a window of a given label if one is given. -/
def button? (t : Toolkit κ) (label : String) (window : Option String) : Option (Item κ) :=
  t.items.find? fun item =>
    item.kind = "add_button" && labelOf item = some label &&
      match window with
      | none => true
      | some w => labelOf (t.topOf t.items.length item) = some w

/-- Whether a value is a list of given texts. -/
def isPath (value : Value) (path : List String) : Bool :=
  match value with
  | .list values => values.length = path.length && (values.zip path).all fun (v, s) =>
    match v with
    | .text t => t = s
    | _ => false
  | _ => false

def menuItem? (t : Toolkit κ) (path : List String) : Option (Item κ) :=
  t.items.find? fun item =>
    item.kind = "add_menu_item" && match item.options.lookup "user_data" with
      | some value => isPath value path
      | none => false

instance : Gui (Toolkit κ) κ where
  empty := empty
  make := make
  enter := enter
  leave := leave
  container? t := t.containers.head?
  call := record
  draw := draw
  delete := delete
  deleteChildren := deleteChildren
  configure := configure
  extentOf := extentOf
  mouse := mouse
  setMouse t position := { t with mouse := position }
  mouseIn := mouseIn
  isMouseInside := isMouseInside
  scrollMax := scrollMax
  textSize := textSize
  setTextMode t mode := { t with textMode := mode }
  callbacksOf := callbacksOf
  button? := button?
  menuItem? := menuItem?
  rectMin := rectMin
  setRectMin t position := { t with rectMin := position }
  forget t := { t with calls := [] }

end Toolkit

end DebugDesk
