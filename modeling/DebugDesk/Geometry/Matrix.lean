import DebugDesk.Number.Scalar

/-!
# Matrices of the plane

Transforms of the plane are 3 by 3 matrices on points with a third coordinate 1. Products add from
left to right, and the inverse comes from elimination without exchanging rows.
-/
namespace DebugDesk

structure Vector3 (α : Type) where
  x : α
  y : α
  z : α
  deriving Repr

/-- Rows from top to bottom. -/
structure Matrix3 (α : Type) where
  first : Vector3 α
  second : Vector3 α
  third : Vector3 α
  deriving Repr

namespace Vector3

variable {α : Type} [Scalar α]

def dot (a b : Vector3 α) : α := a.x * b.x + a.y * b.y + a.z * b.z

def toList (a : Vector3 α) : List α := [a.x, a.y, a.z]

end Vector3

namespace Matrix3

variable {α : Type} [Scalar α]

def one : Matrix3 α := ⟨⟨1.0, 0.0, 0.0⟩, ⟨0.0, 1.0, 0.0⟩, ⟨0.0, 0.0, 1.0⟩⟩

def translation (x y : α) : Matrix3 α := ⟨⟨1.0, 0.0, x⟩, ⟨0.0, 1.0, y⟩, ⟨0.0, 0.0, 1.0⟩⟩

def scaling (s : α) : Matrix3 α := ⟨⟨s, 0.0, 0.0⟩, ⟨0.0, s, 0.0⟩, ⟨0.0, 0.0, 1.0⟩⟩

def apply (m : Matrix3 α) (v : Vector3 α) : Vector3 α :=
  ⟨m.first.dot v, m.second.dot v, m.third.dot v⟩

def transpose (m : Matrix3 α) : Matrix3 α :=
  ⟨⟨m.first.x, m.second.x, m.third.x⟩, ⟨m.first.y, m.second.y, m.third.y⟩,
    ⟨m.first.z, m.second.z, m.third.z⟩⟩

def mul (m n : Matrix3 α) : Matrix3 α :=
  let columns := n.transpose
  let row (r : Vector3 α) : Vector3 α :=
    ⟨r.dot columns.first, r.dot columns.second, r.dot columns.third⟩
  ⟨row m.first, row m.second, row m.third⟩

def map (m : Matrix3 α) (p : Point α) : Point α :=
  let v := m.apply ⟨p.x, p.y, 1.0⟩
  ⟨v.x, v.y⟩

/-- Factors below the diagonal of a matrix, and what elimination leaves on and above it. -/
structure Eliminated (α : Type) where
  below₂₁ : α
  below₃₁ : α
  below₃₂ : α
  upper : Matrix3 α

/-- Subtracts multiples of the upper rows from the lower ones. -/
def eliminate (m : Matrix3 α) : Eliminated α :=
  let pivot := 1.0 / m.first.x
  let l₂₁ := m.second.x * pivot
  let l₃₁ := m.third.x * pivot
  let u₂₂ := m.second.y - l₂₁ * m.first.y
  let u₂₃ := m.second.z - l₂₁ * m.first.z
  let l₃₂ := (m.third.y - l₃₁ * m.first.y) * (1.0 / u₂₂)
  let u₃₃ := m.third.z - (l₃₁ * m.first.z + l₃₂ * u₂₃)
  ⟨l₂₁, l₃₁, l₃₂, ⟨m.first, ⟨0.0, u₂₂, u₂₃⟩, ⟨0.0, 0.0, u₃₃⟩⟩⟩

/-- The vector that an eliminated matrix maps to `b`. -/
def Eliminated.solve (e : Eliminated α) (b : Vector3 α) : Vector3 α :=
  let y₂ := b.y - e.below₂₁ * b.x
  let y₃ := b.z - (e.below₃₁ * b.x + e.below₃₂ * y₂)
  let x₃ := y₃ * (1.0 / e.upper.third.z)
  let x₂ := (y₂ - x₃ * e.upper.second.z) * (1.0 / e.upper.second.y)
  let x₁ := (b.x - x₃ * e.upper.first.z - x₂ * e.upper.first.y) * (1.0 / e.upper.first.x)
  ⟨x₁, x₂, x₃⟩

def inverse (m : Matrix3 α) : Matrix3 α :=
  let e := m.eliminate
  (⟨e.solve ⟨1.0, 0.0, 0.0⟩, e.solve ⟨0.0, 1.0, 0.0⟩, e.solve ⟨0.0, 0.0, 1.0⟩⟩ :
    Matrix3 α).transpose

end Matrix3

end DebugDesk
