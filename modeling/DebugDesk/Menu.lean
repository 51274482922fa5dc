import DebugDesk.Fault
import DebugDesk.Text.Quoted

/-!
# Menus

A menu is a list of items: an action, with what it calls, or a category with items of its own. Items
are addressed by the path of labels that leads to them.
-/
namespace DebugDesk

inductive MenuItem (β : Type) where
  | action (label : String) (call : β)
  | category (label : String) (children : List (MenuItem β))

namespace MenuItem

variable {β : Type}

def label : MenuItem β → String
  | action label _ | category label _ => label

/-- The labels that occur more than once, each once, in ascending order. -/
def repeatedLabels (labels : List String) : List String :=
  ((labels.filter fun l => labels.count l > 1).eraseDups).mergeSort fun a b => !(b < a)

def makeCategory (label : String) (children : List (MenuItem β)) : Except Fault (MenuItem β) :=
  match repeatedLabels (children.map MenuItem.label) with
  | [] => .ok (category label children)
  | repeated => .error (.repeatedLabels label repeated)

/-- Descends along the path; `above` is the part of the path already taken. -/
def findFrom (above : List String) : List (MenuItem β) → List String → Except Fault (MenuItem β)
  | _, [] => .error .emptyPath
  | items, step :: path =>
    match items.find? fun item => item.label = step, path with
    | none, _ => .error (.noSuchItem step above)
    | some item, [] => .ok item
    | some (category _ children), path => findFrom (above ++ [step]) children path
    | some (action ..), _ => .error (.belowAction (above ++ [step]))

def find (items : List (MenuItem β)) (path : List String) : Except Fault (MenuItem β) :=
  findFrom [] items path

mutual

def walkItem (above : List String) : MenuItem β → List (List String × MenuItem β)
  | action label call => [(above ++ [label], action label call)]
  | category label children =>
    (above ++ [label], category label children) :: walk (above ++ [label]) children

def walk (above : List String) : List (MenuItem β) → List (List String × MenuItem β)
  | [] => []
  | item :: rest => walkItem above item ++ walk above rest

end

def actionAt (items : List (MenuItem β)) (path : List String) : Except Fault β := do
  match ← find items path with
  | action _ call => .ok call
  | category label _ => .error (.categoryActivated label path)

def activate {m : Type → Type} [Monad m] [MonadExceptOf Fault m] (run : β → m Unit)
    (items : List (MenuItem β)) (path : List String) : m Unit :=
  match actionAt items path with
  | .ok call => run call
  | .error fault => throwThe Fault fault

end MenuItem

end DebugDesk
