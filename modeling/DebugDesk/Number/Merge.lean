/-!
# Merging runs

Two neighbouring runs become one. The shorter of them is set aside, so that the merge goes from the
front or from the back; elements are taken one by one as long as the runs alternate, and in leaps
once one run yields many in a row. For a total preorder this is the stable merge; for other
comparisons it fixes the outcome all the same.
-/
namespace DebugDesk.Sorting

variable {β : Type}

/-- The end of a run that a merge begins at. -/
inductive End where
  | front
  | back
  deriving DecidableEq, Repr

/-- How many elements pass a test, when all that do come first: bisection. The middle of a range of
even size is the one nearer to the far end of the run. -/
def bisect (e : End) (passes : β → Bool) (xs : Array β) (low high : Nat) : Nat :=
  let rec go : Nat → Nat → Nat → Nat
    | 0, low, _ => low
    | fuel + 1, low, high =>
      if low < high then
        let middle := match e with
          | .front => low + (high - low) / 2
          | .back => high - 1 - (high - low) / 2
        match xs[middle]? with
        | some x => if passes x then go fuel (middle + 1) high else go fuel low middle
        | none => low
      else low
  go (high - low + 1) low high

/-- The same count, found in leaps that double, and by bisection in the last of them. -/
def leapOver (e : End) (passes : β → Bool) (xs : Array β) : Nat :=
  let rec leap : Nat → Nat → Nat → Nat
    | 0, passed, _ => passed
    | fuel + 1, passed, next =>
      match xs[next]? with
      | some x =>
        if passes x then leap fuel (next + 1) (2 * next + 1) else bisect e passes xs passed next
      | none => bisect e passes xs passed xs.size
  match xs[0]? with
  | some x => if passes x then leap xs.size 1 1 else 0
  | none => 0

/-- So many elements in a row from one run make leaps worth while. -/
def leapWorth : Nat := 7

/-- A merge that is under way. Each run begins with the element that it would yield next. -/
structure Merge (β : Type) where
  /-- The run set aside: it yields unless the other one has to. -/
  aside : List β
  other : List β
  /-- What has been taken, last first. -/
  taken : List β
  /-- After so many elements in a row from one run the merge goes on in leaps. -/
  patience : Nat

namespace Merge

/-- The merged run and the patience that is left, once no choice remains. The last element of the
run set aside goes behind the other run. -/
def settle (m : Merge β) : Except (List β × Nat) (Merge β) :=
  match m.aside, m.other with
  | [], other => .error (m.taken.reverse ++ other, m.patience)
  | aside, [] => .error (m.taken.reverse ++ aside, m.patience)
  | [x], other => .error (m.taken.reverse ++ other ++ [x], m.patience)
  | _, _ => .ok m

def takeAside (n : Nat) (m : Merge β) : Except (List β × Nat) (Merge β) :=
  settle { m with aside := m.aside.drop n, taken := (m.aside.take n).reverse ++ m.taken }

def takeOther (n : Nat) (m : Merge β) : Except (List β × Nat) (Merge β) :=
  settle { m with other := m.other.drop n, taken := (m.other.take n).reverse ++ m.taken }

variable (e : End) (wins : β → β → Bool)

/-- One by one, until one run has yielded as many in a row as the patience allows. -/
def walk : Nat → Nat → Nat → Merge β → Except (List β × Nat) (Merge β)
  | 0, _, _, m => .ok m
  | fuel + 1, fromAside, fromOther, m =>
    match m.aside, m.other with
    | x :: _, y :: _ => do
      if wins y x then
        let m ← m.takeOther 1
        if m.patience ≤ fromOther + 1 then return m else walk fuel 0 (fromOther + 1) m
      else
        let m ← m.takeAside 1
        if m.patience ≤ fromAside + 1 then return m else walk fuel (fromAside + 1) 0 m
    | _, _ => .ok m

/-- All that the run set aside yields at once, then one element of the other run; tells how many. -/
def leapAside (m : Merge β) : Except (List β × Nat) (Nat × Merge β) := do
  match m.other with
  | y :: _ =>
    let n := leapOver e (fun x => !wins y x) m.aside.toArray
    let m ← m.takeAside n
    return (n, ← m.takeOther 1)
  | [] => return (0, m)

/-- All that the other run yields at once, then one element of the run set aside; tells how many. -/
def leapOther (m : Merge β) : Except (List β × Nat) (Nat × Merge β) := do
  match m.aside with
  | x :: _ =>
    let n := leapOver e (fun y => wins y x) m.other.toArray
    let m ← m.takeOther n
    return (n, ← m.takeAside 1)
  | [] => return (0, m)

/-- A leap over each run, first over the run that lies at the end where the merge begins. -/
def leapBoth (m : Merge β) : Except (List β × Nat) (Nat × Merge β) := do
  match e with
  | .front =>
    let (n, m) ← leapAside e wins m
    let (k, m) ← leapOther e wins m
    return (max n k, m)
  | .back =>
    let (n, m) ← leapOther e wins m
    let (k, m) ← leapAside e wins m
    return (max n k, m)

/-- In leaps, as long as they are worth while. Patience shrinks with each leap after the first one,
and grows in the end. -/
def leaps : Nat → Merge β → Except (List β × Nat) (Merge β)
  | 0, m => .ok m
  | fuel + 1, m => do
    let (n, m) ← leapBoth e wins m
    if leapWorth ≤ n then
      leaps fuel { m with patience := if 1 < m.patience then m.patience - 1 else m.patience }
    else return { m with patience := m.patience + 1 }

/-- Walks and leaps in turn. -/
def run : Nat → Merge β → List β × Nat
  | 0, m => (m.taken.reverse ++ m.aside ++ m.other, m.patience)
  | fuel + 1, m =>
    let size := m.aside.length + m.other.length
    match walk wins size 0 0 m >>= leaps e wins size with
    | .ok m => run fuel m
    | .error result => result

/-- Merges two runs in the order in which they yield; the other run yields first. -/
def start (aside other : List β) (patience : Nat) : List β × Nat :=
  match takeOther 1 ⟨aside, other, [], patience⟩ with
  | .ok m => run e wins (aside.length + other.length) m
  | .error result => result

end Merge

/-- Merges a run with the one behind it. What of the first run precedes the second, and what of the
second follows the first, is left where it is. -/
def mergeRuns (less : β → β → Bool) (patience : Nat) (xs ys : List β) : List β × Nat :=
  match ys with
  | [] => (xs, patience)
  | y :: _ =>
    let before := leapOver .front (fun x => !less y x) xs.toArray
    let inner := xs.drop before
    match inner.getLast? with
    | none => (xs ++ ys, patience)
    | some x =>
      let behind := leapOver .back (fun y => !less y x) ys.reverse.toArray
      let overlap := ys.take (ys.length - behind)
      let (merged, patience) :=
        if overlap.isEmpty then (inner, patience)
        else if inner.length ≤ overlap.length then
          Merge.start .front less inner overlap patience
        else
          let (merged, patience) :=
            Merge.start .back (fun x y => less y x) overlap.reverse inner.reverse patience
          (merged.reverse, patience)
      (xs.take before ++ merged ++ ys.drop overlap.length, patience)

end DebugDesk.Sorting
