import DebugDesk.Number.Merge
import DebugDesk.Number.Scalar

/-!
# Sorting by a number

Stable and ascending. A value that is not a number has no place in that order, so with such keys the
outcome hangs on which comparisons are made: those of a sort by natural runs. It finds the runs that
are there, lengthens short ones by binary insertion, and merges neighbours in the order of a nearly
optimal merge tree.
-/
namespace DebugDesk.Sorting

variable {β : Type}

/-- Inserts an element by bisection behind those it is not less than. -/
def insert (less : β → β → Bool) (xs : Array β) (x : β) : Array β :=
  xs.insertIdxIfInBounds (bisect .front (fun y => !less x y) xs 0 xs.size) x

/-- The elements that go on descending strictly from `last`, last first, and the rest. -/
def descending (less : β → β → Bool) (run : List β) (last : β) : List β → List β × List β
  | [] => (last :: run, [])
  | x :: xs =>
    if less x last then descending less (last :: run) x xs else (last :: run, x :: xs)

/-- The elements that go on without descending from `last`, last first, and the rest. -/
def ascending (less : β → β → Bool) (run : List β) (last : β) : List β → List β × List β
  | [] => (last :: run, [])
  | x :: xs =>
    if less x last then (last :: run, x :: xs) else ascending less (last :: run) x xs

/-- The run at the beginning of a list, in ascending order, and the rest. -/
def naturalRun (less : β → β → Bool) : List β → List β × List β
  | x :: y :: rest =>
    if less y x then descending less [x] y rest
    else
      let (run, rest) := ascending less [x] y rest
      (run.reverse, rest)
  | xs => (xs, [])

/-- The least length of a run: all of a short list, else such that the number of runs is a power of
two or just below one. -/
def leastRun (n : Nat) : Nat :=
  let rec halve : Nat → Nat → Nat → Nat
    | 0, n, odd => n + odd
    | fuel + 1, n, odd => if n < 64 then n + odd else halve fuel (n / 2) (max odd (n % 2))
  halve n n 0

/-- The runs of a list, each but the last of a least length. -/
def runs (less : β → β → Bool) (least : Nat) : Nat → List β → List (List β)
  | 0, _ | _, [] => []
  | fuel + 1, xs =>
    let (run, rest) := naturalRun less xs
    let missing := least - run.length
    let run := ((rest.take missing).foldl (insert less) run.toArray).toList
    run :: runs less least fuel (rest.drop missing)

/-- The depth in the merge tree of the border between two neighbouring runs, the first of which
begins at `start`, in a list of `n`: the first binary place in which the midpoints of the runs
differ as fractions of the list. -/
def borderDepth (n start first second : Nat) : Nat :=
  let rec place : Nat → Nat → Nat → Nat → Nat
    | 0, depth, _, _ => depth
    | fuel + 1, depth, a, b =>
      if n ≤ a then place fuel (depth + 1) (2 * (a - n)) (2 * (b - n))
      else if n ≤ b then depth + 1
      else place fuel (depth + 1) (2 * a) (2 * b)
  place (2 * n) 0 (2 * start + first) (2 * start + 2 * first + second)

/-- Runs that wait to be merged. -/
structure Pending (β : Type) where
  top : List β
  /-- The runs before it, the nearest first, each with the depth of the border behind it. -/
  below : List (List β × Nat)
  /-- What merges have learned about leaps. -/
  patience : Nat

namespace Pending

variable (less : β → β → Bool)

/-- Merges runs as long as the border between them lies deeper than a new one. -/
def collapse (depth : Nat) : List (List β × Nat) → List β → Nat → Pending β
  | [], top, patience => ⟨top, [], patience⟩
  | (run, border) :: below, top, patience =>
    if depth < border then
      let (merged, patience) := mergeRuns less patience run top
      collapse depth below merged patience
    else ⟨top, (run, border) :: below, patience⟩

def push (n : Nat) (p : Pending β) (run : List β) : Pending β :=
  let start := p.below.foldl (fun length (run, _) => length + run.length) 0
  let depth := borderDepth n start p.top.length run.length
  let q := collapse less depth p.below p.top p.patience
  ⟨run, (q.top, depth) :: q.below, q.patience⟩

/-- Merges all runs that wait, the last first: each time the second to last with the shorter of its
neighbours. -/
def finish : Nat → List (List β) → Nat → List β
  | fuel + 1, z :: y :: x :: rest, patience =>
    if x.length < z.length then
      let (merged, patience) := mergeRuns less patience x y
      finish fuel (z :: merged :: rest) patience
    else
      let (merged, patience) := mergeRuns less patience y z
      finish fuel (merged :: x :: rest) patience
  | _, [z, y], patience => (mergeRuns less patience y z).1
  | _, waiting, _ => waiting.reverse.flatten

end Pending

/-- Sorts by natural runs, for any comparison. -/
def sortRuns (less : β → β → Bool) (xs : List β) : List β :=
  match runs less (leastRun xs.length) xs.length xs with
  | [] => []
  | run :: rest =>
    let p := rest.foldl (Pending.push less xs.length) ⟨run, [], leapWorth⟩
    Pending.finish less (rest.length + 1) (p.top :: p.below.map (·.1)) p.patience

/-- Sorts by a key, equal keys in their order. -/
def sortOn {α : Type} [Scalar α] (key : β → α) (xs : List β) : List β :=
  if xs.all fun x => key x == key x then xs.mergeSort fun x y => !decide (key y < key x)
  else sortRuns (fun x y => decide (key x < key y)) xs

example : sortRuns (fun a b => decide (a < b)) [3, 1, 2, 5, 4] = [1, 2, 3, 4, 5] := by
  decide +kernel

end DebugDesk.Sorting
