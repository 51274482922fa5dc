import Mathlib.Logic.Relation
import DebugDesk.Proofs.Effect.Code

/-!
# Threads

Threads share a state. Each of them carries out the code of its role, and any of them may make its
next move at any time, so that their moves are interleaved in all ways. What holds of the moves of a
thread whatever happens in between is shown for its code alone.
-/
namespace DebugDesk

/-- Moves that lead from one state to another, each of them from where the last one led. -/
def Links {τ σ : Type} (x : σ) : List (Move τ σ) → σ → Prop
  | [], y => x = y
  | m :: ms, y => m.before = x ∧ Links m.after ms y

namespace Links

variable {τ σ : Type} {x y : σ} {ms : List (Move τ σ)}

theorem snoc (h : Links x ms y) (tag : τ) (z : σ) : Links x (ms ++ [⟨tag, y, z⟩]) z := by
  induction ms generalizing x with
  | nil => exact ⟨h.symm, rfl⟩
  | cons m ms ih => exact ⟨h.1, ih h.2⟩

/-- What holds at first and is kept by the moves holds all the time. -/
theorem all {I : σ → Prop} (h : Links x ms y) (hx : I x)
    (hms : ∀ m ∈ ms, I m.before → I m.after) : I y ∧ ∀ m ∈ ms, I m.before ∧ I m.after := by
  induction ms generalizing x with
  | nil => exact ⟨h ▸ hx, by simp⟩
  | cons m ms ih =>
    obtain ⟨hm, hrest⟩ := List.forall_mem_cons.mp hms
    have hbefore : I m.before := h.1 ▸ hx
    obtain ⟨hy, hall⟩ := ih h.2 (hm hbefore) hrest
    exact ⟨hy, List.forall_mem_cons.mpr ⟨⟨hbefore, hm hbefore⟩, hall⟩⟩

/-- What a move leads to is what the later ones make of it. -/
theorem later {R : σ → σ → Prop} [IsPreorder σ R] (h : Links x ms y)
    (hms : ∀ m ∈ ms, R m.before m.after) : R x y ∧ ∀ m ∈ ms, R m.before y ∧ R m.after y := by
  induction ms generalizing x with
  | nil =>
    obtain rfl : x = y := h
    exact ⟨refl_of R x, by simp⟩
  | cons m ms ih =>
    obtain ⟨hm, hrest⟩ := List.forall_mem_cons.mp hms
    obtain ⟨hy, hall⟩ := ih h.2 hrest
    have hlast : R m.before y := trans_of R hm hy
    exact ⟨h.1 ▸ hlast, List.forall_mem_cons.mpr ⟨⟨hlast, hy⟩, hall⟩⟩

theorem turning {P : σ → Prop} (h : Links x ms y) (hx : ¬P x) (hy : P y) :
    ∃ m ∈ ms, ¬P m.before ∧ P m.after := by
  refine Classical.byContradiction fun hnone => ?_
  have hkept : ∀ m ∈ ms, ¬P m.before → ¬P m.after :=
    fun m hm hb ha => hnone ⟨m, hm, hb, ha⟩
  exact (h.all (I := fun z => ¬P z) hx hkept).1 hy

end Links

structure Pool (ρ τ σ : Type) : Type 1 where
  now : σ
  /-- Their roles, and what is left of their code. -/
  crew : List (ρ × Code τ σ Unit)
  /-- Who made which move, oldest first. -/
  past : List (Nat × Move τ σ)

namespace Pool

variable {ρ τ σ : Type} {code : ρ → Code τ σ Unit} {x : σ} {s t : Pool ρ τ σ}

def start (x : σ) : Pool ρ τ σ := ⟨x, [], []⟩

/-- A thread is added, or one of them makes its next move. -/
inductive Step (code : ρ → Code τ σ Unit) : Pool ρ τ σ → Pool ρ τ σ → Prop
  | join (s : Pool ρ τ σ) (role : ρ) : Step code s { s with crew := s.crew ++ [(role, code role)] }
  | move {s : Pool ρ τ σ} {k : Nat} {role : ρ} {β : Type} {tag : τ} {e : Effect σ β}
      {next : Except Fault β → Code τ σ Unit} (h : s.crew[k]? = some (role, .step tag e next)) :
      Step code s
        { now := (e.outcome s.now).2
          crew := s.crew.set k (role, next (e.outcome s.now).1)
          past := s.past ++ [(k, ⟨tag, s.now, (e.outcome s.now).2⟩)] }

abbrev Reaches (code : ρ → Code τ σ Unit) (x : σ) (s : Pool ρ τ σ) : Prop :=
  Relation.ReflTransGen (Step code) (start x) s

def movesOf (s : Pool ρ τ σ) (k : Nat) : List (Move τ σ) :=
  (s.past.filter (·.1 = k)).map Prod.snd

theorem mem_movesOf {k : Nat} {m : Move τ σ} : m ∈ s.movesOf k ↔ (k, m) ∈ s.past := by
  simp [movesOf]

/-- What is known of threads, whatever they do. -/
structure Sound (code : ρ → Code τ σ Unit) (x : σ) (s : Pool ρ τ σ) : Prop where
  linked : Links x (s.past.map Prod.snd) s.now
  leads : ∀ k role c, s.crew[k]? = some (role, c) → (code role).Leads (s.movesOf k) c
  known : ∀ p ∈ s.past, p.1 < s.crew.length

theorem Sound.step (h : Sound code x s) (hs : Step code s t) : Sound code x t := by
  cases hs with
  | join role =>
    refine ⟨h.linked, fun k role' c hk => ?_, fun p hp => ?_⟩
    · rcases Nat.lt_trichotomy k s.crew.length with hlt | rfl | hlt
      · rw [List.getElem?_append_left hlt] at hk
        exact h.leads k role' c hk
      · simp only [List.getElem?_concat_length, Option.some.injEq, Prod.mk.injEq] at hk
        obtain ⟨rfl, rfl⟩ := hk
        have hnone : s.movesOf s.crew.length = [] :=
          List.eq_nil_iff_forall_not_mem.mpr fun m hm =>
            Nat.lt_irrefl _ (h.known _ (mem_movesOf.mp hm))
        exact hnone ▸ .refl _
      · rw [List.getElem?_eq_none (by simpa using Nat.succ_le_of_lt hlt)] at hk
        cases hk
    · simpa using Nat.lt_succ_of_lt (h.known p hp)
  | @move k role β tag e next hk =>
    have hlt : k < s.crew.length := (List.getElem?_eq_some_iff.mp hk).1
    refine ⟨?_, fun j role' c hj => ?_, fun p hp => ?_⟩
    · rw [List.map_append]
      exact h.linked.snoc tag _
    · simp only [movesOf, List.filter_append, List.map_append]
      by_cases hjk : k = j
      · subst hjk
        simp only [List.getElem?_set_self hlt, Option.some.injEq, Prod.mk.injEq] at hj
        obtain ⟨rfl, rfl⟩ := hj
        simpa [movesOf] using (h.leads k role _ hk).trans (.move (.refl _))
      · rw [List.getElem?_set_ne hjk] at hj
        simpa [movesOf, hjk] using h.leads j role' c hj
    · rw [List.length_set]
      rcases List.mem_append.mp hp with hp | hp
      · exact h.known p hp
      · exact List.mem_singleton.mp hp ▸ hlt

theorem Reaches.sound (h : Reaches code x s) : Sound code x s := by
  induction h with
  | refl => exact ⟨rfl, by simp [start], by simp [start]⟩
  | tail _ hs ih => exact ih.step hs

/-- What every step of all code does, every move did. -/
theorem Sound.every (h : Sound code x s) {F : τ → σ → σ → Prop}
    (hF : ∀ role, (code role).Every F) : ∀ p ∈ s.past, F p.2.tag p.2.before p.2.after := by
  rintro ⟨k, m⟩ hp
  obtain ⟨⟨role, c⟩, hk⟩ : ∃ member, s.crew[k]? = some member :=
    ⟨_, List.getElem?_eq_getElem (h.known _ hp)⟩
  exact ((hF role).leads (h.leads k role c hk)).2 m (mem_movesOf.mpr hp)

/-- What comes to hold once, and holds from then on, comes to hold by one move of one thread. -/
theorem turning_unique {H : σ → Prop} {ps : List (Nat × Move τ σ)} {y : σ}
    (h : Links x (ps.map Prod.snd) y) (hH : ∀ p ∈ ps, H p.2.before → H p.2.after)
    {p q : Nat × Move τ σ} (hp : p ∈ ps) (hq : q ∈ ps) (hpb : ¬H p.2.before) (hpa : H p.2.after)
    (hqb : ¬H q.2.before) (hqa : H q.2.after) : p = q := by
  induction ps generalizing x with
  | nil => cases hp
  | cons a ps ih =>
    have hrest : ∀ p ∈ ps, H p.2.before → H p.2.after :=
      fun p hp => hH p (List.mem_cons_of_mem a hp)
    have hlater (ha : H a.2.after) : ∀ r ∈ ps, H r.2.before := fun r hr =>
      ((h.2.all ha (List.forall_mem_map.mpr hrest)).2 r.2 (List.mem_map_of_mem hr)).1
    rcases List.mem_cons.mp hp with hpa' | hp <;> rcases List.mem_cons.mp hq with hqa' | hq
    · exact hpa'.trans hqa'.symm
    · exact absurd (hlater (hpa' ▸ hpa) q hq) hqb
    · exact absurd (hlater (hqa' ▸ hqa) p hp) hpb
    · exact ih h.2 hrest hp hq

/-- A thread that nobody interrupts does what its code does at once. -/
theorem Reaches.atOnce {k : Nat} {role : ρ} {c : Code τ σ Unit} (h : Reaches code x s)
    (hk : s.crew[k]? = some (role, c)) : ∃ t, Reaches code x t ∧
      t.now = (c.atOnce.outcome s.now).2 ∧
      t.crew = s.crew.set k (role, .result (c.atOnce.outcome s.now).1) := by
  induction c generalizing s with
  | result r =>
    obtain ⟨hlt, hself⟩ := List.getElem?_eq_some_iff.mp hk
    exact ⟨s, h, rfl, by simp [Code.atOnce, ← hself]⟩
  | step tag e next ih =>
    have hlt := (List.getElem?_eq_some_iff.mp hk).1
    obtain ⟨t, ht, hnow, hcrew⟩ :=
      ih (e.outcome s.now).1 (h.tail (.move hk)) (List.getElem?_set_self hlt)
    refine ⟨t, ht, ?_, ?_⟩
    · rw [hnow, Code.atOnce, Effect.outcome_bind_ok (Effect.outcome_attempt e s.now)]
    · rw [hcrew, List.set_set, Code.atOnce, Effect.outcome_bind_ok (Effect.outcome_attempt e s.now)]

theorem Reaches.call (h : Reaches code x s) (role : ρ) :
    ∃ t, Reaches code x t ∧ t.now = ((code role).atOnce.outcome s.now).2 := by
  obtain ⟨t, ht, hnow, -⟩ := Reaches.atOnce (h.tail (.join s role))
    (by simp : (s.crew ++ [(role, code role)])[s.crew.length]? = some (role, code role))
  exact ⟨t, ht, hnow⟩

end Pool

end DebugDesk
