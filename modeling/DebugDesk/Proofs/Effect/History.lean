import Mathlib.Data.List.Infix
import DebugDesk.Proofs.Effect.Respecting

/-!
# Histories

A traced state keeps a history of its changes and of what happened in it. A component that works
on a part of a state works on the same part of a traced one, and every change it makes is recorded.
-/
namespace DebugDesk

/-- A moment of a history: the state changes, or something happens that leaves it as it is. -/
inductive Moment (τ ε : Type) where
  | changed (before after : τ)
  | noted (event : ε) (now : τ)

namespace Moment

variable {τ ε : Type}

def before : Moment τ ε → τ
  | changed t _ => t
  | noted _ t => t

def after : Moment τ ε → τ
  | changed _ t => t
  | noted _ t => t

def event? : Moment τ ε → Option ε
  | changed .. => none
  | noted e _ => some e

end Moment

/-- The moments of a history have a property that may depend on what came before. -/
def Throughout {μ : Type} (F : μ → List μ → Prop) : List μ → Prop
  | [] => True
  | x :: past => F x past ∧ Throughout F past

theorem Throughout.of_split {μ : Type} {F : μ → List μ → Prop} {x : μ} {later past : List μ}
    (h : Throughout F (later ++ x :: past)) : F x past := by
  induction later with
  | nil => exact h.1
  | cons y later ih => exact ih h.2

structure Traced (τ ε : Type) where
  now : τ
  /-- Latest first. -/
  history : List (Moment τ ε)

namespace Traced

variable {τ υ ε : Type} {s t : Traced τ ε}

def start (t : τ) : Traced τ ε := ⟨t, []⟩

def put (s : Traced τ ε) (t : τ) : Traced τ ε := ⟨t, .changed s.now t :: s.history⟩

def note (s : Traced τ ε) (e : ε) : Traced τ ε := ⟨s.now, .noted e s.now :: s.history⟩

def events (s : Traced τ ε) : List ε := s.history.filterMap Moment.event?

/-- A part of the state, whose changes are recorded as changes of the state. -/
def part (p : Part τ υ) : Part (Traced τ ε) υ where
  get s := p.get s.now
  set u s := s.put (p.set u s.now)

def happen (e : ε) : Effect (Traced τ ε) Unit := modify (·.note e)

def look {β : Type} (f : Traced τ ε → β) : Effect (Traced τ ε) β := return f (← getThe (Traced τ ε))

@[simp] theorem now_put (s : Traced τ ε) (t : τ) : (s.put t).now = t := rfl

@[simp] theorem now_note (s : Traced τ ε) (e : ε) : (s.note e).now = s.now := rfl

@[simp] theorem history_put (s : Traced τ ε) (t : τ) :
    (s.put t).history = .changed s.now t :: s.history := rfl

@[simp] theorem history_note (s : Traced τ ε) (e : ε) :
    (s.note e).history = .noted e s.now :: s.history := rfl

@[simp] theorem events_start (t : τ) : (start t : Traced τ ε).events = [] := rfl

@[simp] theorem events_put (s : Traced τ ε) (t : τ) : (s.put t).events = s.events := rfl

@[simp] theorem events_note (s : Traced τ ε) (e : ε) : (s.note e).events = e :: s.events := rfl

@[simp] theorem get_part (p : Part τ υ) (s : Traced τ ε) : (part p).get s = p.get s.now := rfl

@[simp] theorem set_part (p : Part τ υ) (u : υ) (s : Traced τ ε) :
    (part p).set u s = s.put (p.set u s.now) := rfl

@[simp] theorem map_part (p : Part τ υ) (f : υ → υ) (s : Traced τ ε) :
    (part p).map f s = s.put (p.map f s.now) := rfl

@[simp] theorem outcome_happen (e : ε) (s : Traced τ ε) :
    (happen e).outcome s = (.ok (), s.note e) := rfl

@[simp] theorem outcome_look {β : Type} (f : Traced τ ε → β) (s : Traced τ ε) :
    (look f).outcome s = (.ok (f s), s) := rfl

/-- Each moment of a history begins as the one before it ended. -/
def LinkedTo (t₀ : τ) : List (Moment τ ε) → τ → Prop
  | [], t => t = t₀
  | x :: past, t => x.after = t ∧ LinkedTo t₀ past x.before

/-- The history leads from a first state to the present one without a gap. -/
def Linked (t₀ : τ) (s : Traced τ ε) : Prop := LinkedTo t₀ s.history s.now

theorem Linked.start (t : τ) : (start t : Traced τ ε).Linked t := rfl

theorem Linked.put {t₀ : τ} (h : s.Linked t₀) (t : τ) : (s.put t).Linked t₀ := ⟨rfl, h⟩

theorem Linked.note {t₀ : τ} (h : s.Linked t₀) (e : ε) : (s.note e).Linked t₀ := ⟨rfl, h⟩

theorem Linked.after {t₀ : τ} (h : s.Linked t₀) {x : Moment τ ε} {past : List (Moment τ ε)}
    (hx : s.history = x :: past) : x.after = s.now := by
  rw [Linked, hx] at h
  exact h.1

def Extends (s t : Traced τ ε) : Prop := s.history <:+ t.history

instance : IsPreorder (Traced τ ε) Extends where
  refl s := List.suffix_refl s.history
  trans _ _ _ := List.IsSuffix.trans

theorem Extends.put (h : s.Extends t) (u : τ) : s.Extends (t.put u) :=
  List.IsSuffix.trans h (List.suffix_cons _ _)

theorem Extends.note (h : s.Extends t) (e : ε) : s.Extends (t.note e) :=
  List.IsSuffix.trans h (List.suffix_cons _ _)

theorem Extends.events (h : s.Extends t) {e : ε} (he : e ∈ s.events) : e ∈ t.events :=
  (List.IsSuffix.filterMap Moment.event? h).subset he

end Traced

end DebugDesk
