import DebugDesk.Fault
import DebugDesk.Number.Binary64

/-!
# Random numbers

What draws random numbers does so from a source: a state with two ways to draw. A lawful source
answers every range that is not empty, from inside the range. The Mersenne twister is a source: it
has 624 words of state and is seeded by an integer of any size, and numbers below a bound are drawn
by rejection from as many bits as the bound has.
-/
namespace DebugDesk

structure RandomSource (σ : Type) where
  /-- A number from `low` up to but not including `high`. -/
  range : (low high : Nat) → σ → Except Fault (Nat × σ)
  /-- A number from 0 up to but not including 1. -/
  unit : σ → Float × σ

namespace RandomSource

variable {σ : Type}

/-- Draws from each range that is not empty a number of the range. -/
def Lawful (source : RandomSource σ) : Prop :=
  ∀ low high s, low < high → ∃ n t, source.range low high s = .ok (n, t) ∧ low ≤ n ∧ n < high

end RandomSource

structure Twister where
  words : Array UInt32
  /-- Words already given out since the last twist. -/
  used : Nat
  deriving Repr

namespace Twister

def size : Nat := 624

def word (ws : Array UInt32) (i : Nat) : UInt32 := ws.getD i 0

def expand (seed : UInt32) : Array UInt32 :=
  (List.range (size - 1)).foldl (fun (ws : Array UInt32) (i : Nat) =>
    let last : UInt32 := word ws i
    ws.push ((1812433253 : UInt32) * (last ^^^ (last >>> 30)) + UInt32.ofNat (i + 1))) #[seed]

/-- The least significant 32-bit words of a number first; zero is one word. -/
def keyWords (n : Nat) : List UInt32 :=
  let rec more : Nat → Nat → List UInt32
    | 0, _ => []
    | fuel + 1, n =>
      if n = 0 then [] else UInt32.ofNat (n % UInt32.size) :: more fuel (n / UInt32.size)
  if n = 0 then [0] else more (n.log2 + 1) n

/-- Where a pass over the state stands: the state and the index of the word to change next. -/
structure Mixing where
  words : Array UInt32
  index : Nat

/-- Changes one word by its left neighbour; past the end the last word is copied to the front. -/
def Mixing.step (factor : UInt32) (combine : UInt32 → Nat → UInt32) (m : Mixing) : Mixing :=
  let left := word m.words (m.index - 1)
  let mixed := word m.words m.index ^^^ ((left ^^^ (left >>> 30)) * factor)
  let words := m.words.setIfInBounds m.index (combine mixed m.index)
  if m.index + 1 < size then ⟨words, m.index + 1⟩
  else ⟨words.setIfInBounds 0 (word words (size - 1)), 1⟩

def ofKey (key : List UInt32) : Twister :=
  let rounds := max size key.length
  let keyAt (i : Nat) : UInt32 := key.getD (i % key.length) 0
  let first := (List.range rounds).foldl (fun (m : Mixing) (i : Nat) =>
    m.step 1664525 fun w _ => w + keyAt i + UInt32.ofNat (i % key.length))
    ⟨expand 19650218, 1⟩
  let second := (List.range (size - 1)).foldl (fun (m : Mixing) _ =>
    m.step 1566083941 fun w i => w - UInt32.ofNat i) first
  ⟨second.words.setIfInBounds 0 0x80000000, size⟩

/-- The generator for a seed; the sign does not count. -/
def ofSeed (seed : Int) : Twister := ofKey (keyWords seed.natAbs)

def twist (ws : Array UInt32) : Array UInt32 :=
  (List.range size).foldl (fun ws i =>
    let y := (word ws i &&& 0x80000000) ||| (word ws ((i + 1) % size) &&& 0x7fffffff)
    let odd : UInt32 := if y &&& 1 = 1 then 0x9908b0df else 0
    ws.setIfInBounds i (word ws ((i + 397) % size) ^^^ (y >>> 1) ^^^ odd)) ws

def temper (w : UInt32) : UInt32 :=
  let w := w ^^^ (w >>> 11)
  let w := w ^^^ ((w <<< 7) &&& 0x9d2c5680)
  let w := w ^^^ ((w <<< 15) &&& 0xefc60000)
  w ^^^ (w >>> 18)

def next (t : Twister) : UInt32 × Twister :=
  let t := if t.used < size then t else ⟨twist t.words, 0⟩
  (temper (word t.words t.used), { t with used := t.used + 1 })

/-- A number from 0 up to but not including 1, of 53 bits. -/
def unit (t : Twister) : Float × Twister :=
  let (a, t) := t.next
  let (b, t) := t.next
  let bits := (a >>> 5).toNat * 67108864 + (b >>> 6).toNat
  (Binary64.ofInt bits / 9007199254740992.0, t)

def bitLength (n : Nat) : Nat := if n = 0 then 0 else n.log2 + 1

def maxDraws : Nat := 10000

/-- A number below a positive bound of at most 32 bits. -/
def below (bound : Nat) (t : Twister) : Nat × Twister :=
  let shift := UInt32.ofNat (32 - bitLength bound)
  let rec draw : Nat → Twister → Nat × Twister
    | 0, t => (0, t)
    | fuel + 1, t =>
      let (w, t) := t.next
      let r := (w >>> shift).toNat
      if r < bound then (r, t) else draw fuel t
  draw maxDraws t

def range (low high : Nat) (t : Twister) : Except Fault (Nat × Twister) :=
  if low < high then
    let (n, t) := t.below (high - low)
    .ok (low + n, t)
  else .error .emptyRange

def source : RandomSource Twister := ⟨range, unit⟩

end Twister

end DebugDesk
