import DebugDesk.Proofs.Effect.Respecting

/-!
# Code that may be interrupted

An effect happens at once. Code is a sequence of effects, between which others may change the state.
If nobody does, then code is an effect again. Each step bears a tag that tells what it is good for.
-/
namespace DebugDesk

theorem Effect.ext_outcome {σ α : Type} {e f : Effect σ α} (h : ∀ x, e.outcome x = f.outcome x) :
    e = f := funext h

inductive Code (τ σ α : Type) : Type 1 where
  | result (r : Except Fault α)
  | step {β : Type} (tag : τ) (e : Effect σ β) (next : Except Fault β → Code τ σ α)

structure Move (τ σ : Type) where
  tag : τ
  before : σ
  after : σ

namespace Code

variable {τ σ α β γ : Type}

def bind : Code τ σ α → (α → Code τ σ β) → Code τ σ β
  | result (.ok a), f => f a
  | result (.error fault), _ => result (.error fault)
  | step tag e next, f => step tag e fun r => (next r).bind f

instance : Monad (Code τ σ) where
  pure a := result (.ok a)
  bind := bind

def one (tag : τ) (e : Effect σ α) : Code τ σ α := step tag e result

def fail (fault : Fault) : Code τ σ α := result (.error fault)

def attempt : Code τ σ α → Code τ σ (Except Fault α)
  | result r => result (.ok r)
  | step tag e next => step tag e fun r => (next r).attempt

/-- Goes on after a failure as if there were none. -/
def quietly (c : Code τ σ Unit) : Code τ σ Unit := c.attempt >>= fun _ => pure ()

def atOnce : Code τ σ α → Effect σ α
  | result r => Effect.ofExcept r
  | step _ e next => e.attempt >>= fun r => (next r).atOnce

@[simp] theorem pure_bind (a : α) (f : α → Code τ σ β) : (pure a >>= f) = f a := rfl

@[simp] theorem step_bind (tag : τ) (e : Effect σ γ) (next : Except Fault γ → Code τ σ α)
    (f : α → Code τ σ β) : (step tag e next >>= f) = step tag e fun r => next r >>= f := rfl

theorem forM_cons (f : α → Code τ σ Unit) (a : α) (l : List α) :
    (a :: l).forM f = (f a >>= fun _ => l.forM f) := rfl

theorem attempt_bind_ofExcept (e : Effect σ α) : (e.attempt >>= Effect.ofExcept) = e := by
  refine Effect.ext_outcome fun x => ?_
  rw [Effect.outcome_bind_ok (Effect.outcome_attempt e x), Effect.outcome_ofExcept]

@[simp] theorem atOnce_pure (a : α) : (pure a : Code τ σ α).atOnce = pure a := rfl

@[simp] theorem atOnce_fail (fault : Fault) :
    (fail fault : Code τ σ α).atOnce = throw fault := rfl

@[simp] theorem atOnce_one (tag : τ) (e : Effect σ α) : (one tag e).atOnce = e :=
  attempt_bind_ofExcept e

@[simp] theorem atOnce_bind (c : Code τ σ α) (f : α → Code τ σ β) :
    (c >>= f).atOnce = c.atOnce >>= fun a => (f a).atOnce := by
  induction c with
  | result r =>
    cases r with
    | ok a => rfl
    | error fault => rfl
  | step tag e next ih =>
    rw [step_bind, atOnce, atOnce, bind_assoc]
    exact bind_congr ih

@[simp] theorem atOnce_attempt (c : Code τ σ α) : c.attempt.atOnce = c.atOnce.attempt := by
  induction c with
  | result r => rfl
  | step tag e next ih =>
    refine Effect.ext_outcome fun x => ?_
    rw [attempt, atOnce, atOnce, Effect.outcome_bind_ok (Effect.outcome_attempt e x), ih,
      Effect.outcome_attempt, Effect.outcome_attempt,
      Effect.outcome_bind_ok (Effect.outcome_attempt e x)]

@[simp] theorem atOnce_quietly (c : Code τ σ Unit) : c.quietly.atOnce = c.atOnce.quietly := by
  rw [quietly, atOnce_bind, atOnce_attempt]
  rfl

@[simp] theorem atOnce_forM (f : α → Code τ σ Unit) (l : List α) :
    (l.forM f).atOnce = l.forM fun a => (f a).atOnce := by
  induction l with
  | nil => rfl
  | cons a l ih => rw [forM_cons, atOnce_bind, ih, Effect.forM_cons]

/-- The moves that code makes until some of it is left, each in whatever state it finds. -/
inductive Leads : Code τ σ α → List (Move τ σ) → Code τ σ α → Prop
  | refl (c : Code τ σ α) : Leads c [] c
  | move {β : Type} {tag : τ} {e : Effect σ β} {next : Except Fault β → Code τ σ α} {x : σ}
      {ms : List (Move τ σ)} {d : Code τ σ α} (h : Leads (next (e.outcome x).1) ms d) :
      Leads (step tag e next) (⟨tag, x, (e.outcome x).2⟩ :: ms) d

variable {c d : Code τ σ α} {ms : List (Move τ σ)} {f : α → Code τ σ β}

theorem Leads.trans {b : Code τ σ α} {ns : List (Move τ σ)} (h : c.Leads ms d)
    (h' : d.Leads ns b) : c.Leads (ms ++ ns) b := by
  induction h with
  | refl => exact h'
  | move _ ih => exact .move (ih h')

theorem leads_result (c : Code τ σ α) (x : σ) :
    ∃ ms r, c.Leads ms (result r) ∧ ∀ m ∈ ms, m.before = x := by
  induction c with
  | result r => exact ⟨[], r, .refl _, by simp⟩
  | step tag e next ih =>
    obtain ⟨ms, r, h, hms⟩ := ih (e.outcome x).1
    exact ⟨_, r, .move h, List.forall_mem_cons.mpr ⟨rfl, hms⟩⟩

theorem leads_of_result {r : Except Fault α} (h : (result r).Leads ms d) :
    ms = [] ∧ d = result r := by
  cases h
  exact ⟨rfl, rfl⟩

theorem leads_of_step {tag : τ} {e : Effect σ γ} {next : Except Fault γ → Code τ σ α}
    {r : Except Fault α} (h : (step tag e next).Leads ms (result r)) :
    ∃ x ns, ms = ⟨tag, x, (e.outcome x).2⟩ :: ns ∧
      (next (e.outcome x).1).Leads ns (result r) := by
  cases h with
  | move h => exact ⟨_, _, rfl, h⟩

theorem leads_of_one {tag : τ} {e : Effect σ α} (h : (one tag e).Leads ms d) :
    (ms = [] ∧ d = one tag e) ∨
      ∃ x, ms = [⟨tag, x, (e.outcome x).2⟩] ∧ d = result (e.outcome x).1 := by
  cases h with
  | refl => exact .inl ⟨rfl, rfl⟩
  | @move _ _ _ _ x _ _ h =>
    obtain ⟨rfl, rfl⟩ := leads_of_result h
    exact .inr ⟨x, rfl, rfl⟩

theorem leads_one_result {tag : τ} {e : Effect σ α} {r : Except Fault α}
    (h : (one tag e).Leads ms (result r)) :
    ∃ x, ms = [⟨tag, x, (e.outcome x).2⟩] ∧ (e.outcome x).1 = r := by
  rcases leads_of_one h with ⟨-, hr⟩ | ⟨x, hms, hr⟩
  · cases hr
  · exact ⟨x, hms, (Code.result.inj hr).symm⟩

/-- Either the first part is not done, or what it comes to is gone on with. -/
theorem leads_of_bind {b : Code τ σ β} (h : (c >>= f).Leads ms b) :
    (∃ d, c.Leads ms d ∧ b = d >>= f) ∨
      ∃ ms' ns a, ms = ms' ++ ns ∧ c.Leads ms' (result (.ok a)) ∧ (f a).Leads ns b := by
  induction c generalizing ms with
  | result r =>
    cases r with
    | ok a => exact .inr ⟨[], ms, a, rfl, .refl _, h⟩
    | error fault =>
      obtain ⟨rfl, rfl⟩ := leads_of_result h
      exact .inl ⟨_, .refl _, rfl⟩
  | step tag e next ih =>
    rw [step_bind] at h
    cases h with
    | refl => exact .inl ⟨_, .refl _, rfl⟩
    | move h =>
      rcases ih _ h with ⟨d, hd, rfl⟩ | ⟨ms', ns, a, rfl, hc, hf⟩
      · exact .inl ⟨d, .move hd, rfl⟩
      · exact .inr ⟨_, ns, a, rfl, .move hc, hf⟩

/-- Code that came to its end failed in its first part, or went on. -/
theorem leads_result_of_bind {r : Except Fault β} (h : (c >>= f).Leads ms (result r)) :
    (∃ fault, c.Leads ms (result (.error fault))) ∨
      ∃ ms' ns a, ms = ms' ++ ns ∧ c.Leads ms' (result (.ok a)) ∧ (f a).Leads ns (result r) := by
  rcases leads_of_bind h with ⟨d, hd, hr⟩ | hgo
  · rcases d with (fault | a) | ⟨tag, e, next⟩
    · exact .inl ⟨fault, hd⟩
    · exact .inr ⟨ms, [], a, (List.append_nil ms).symm, hd, hr ▸ .refl _⟩
    · cases hr
  · exact .inr hgo

theorem leads_of_attempt {b : Code τ σ (Except Fault α)} (h : c.attempt.Leads ms b) :
    ∃ d, c.Leads ms d ∧ b = d.attempt := by
  induction c generalizing ms with
  | result r =>
    obtain ⟨rfl, rfl⟩ := leads_of_result h
    exact ⟨_, .refl _, rfl⟩
  | step tag e next ih =>
    cases h with
    | refl => exact ⟨_, .refl _, rfl⟩
    | move h =>
      obtain ⟨d, hd, rfl⟩ := ih _ h
      exact ⟨d, .move hd, rfl⟩

theorem leads_of_quietly {c : Code τ σ Unit} {r : Except Fault Unit}
    (h : c.quietly.Leads ms (result r)) : r = .ok () ∧ ∃ q, c.Leads ms (result q) := by
  have hattempt {ns : List (Move τ σ)} {p : Except Fault (Except Fault Unit)}
      (h : c.attempt.Leads ns (result p)) : ∃ q, p = .ok q ∧ c.Leads ns (result q) := by
    obtain ⟨d, hd, hp⟩ := leads_of_attempt h
    cases d with
    | result q => exact ⟨q, Code.result.inj hp, hd⟩
    | step tag e next => cases hp
  rcases leads_result_of_bind h with ⟨fault, hc⟩ | ⟨ms', ns, a, rfl, hc, hrest⟩
  · obtain ⟨q, hq, -⟩ := hattempt hc
    cases hq
  · obtain ⟨rfl, hr⟩ := leads_of_result hrest
    obtain ⟨q, -, hq⟩ := hattempt hc
    exact ⟨Code.result.inj hr, q, (List.append_nil ms').symm ▸ hq⟩

/-- Every step of the code relates the state that it finds to the one that it leaves. -/
def Every (F : τ → σ → σ → Prop) : Code τ σ α → Prop
  | result _ => True
  | step tag e next => e.Respects (F tag) ∧ ∀ r, (next r).Every F

namespace Every

variable {F : τ → σ → σ → Prop}

theorem pure (a : α) : (pure a : Code τ σ α).Every F := trivial

theorem mono {G : τ → σ → σ → Prop} (hc : c.Every F) (h : ∀ tag x y, F tag x y → G tag x y) :
    c.Every G := by
  induction c with
  | result r => exact trivial
  | step tag e next ih => exact ⟨fun x => h _ _ _ (hc.1 x), fun r => ih r (hc.2 r)⟩

theorem one {tag : τ} {e : Effect σ α} (h : e.Respects (F tag)) : (one tag e).Every F :=
  ⟨h, fun _ => trivial⟩

theorem bind (hc : c.Every F) (hf : ∀ a, (f a).Every F) : (c >>= f).Every F := by
  induction c with
  | result r =>
    cases r with
    | ok a => exact hf a
    | error fault => exact trivial
  | step tag e next ih => exact ⟨hc.1, fun r => ih r (hc.2 r)⟩

theorem attempt (hc : c.Every F) : c.attempt.Every F := by
  induction c with
  | result r => exact trivial
  | step tag e next ih => exact ⟨hc.1, fun r => ih r (hc.2 r)⟩

theorem quietly {c : Code τ σ Unit} (hc : c.Every F) : c.quietly.Every F :=
  hc.attempt.bind fun _ => pure ()

theorem forM {f : γ → Code τ σ Unit} (l : List γ) (hf : ∀ a ∈ l, (f a).Every F) :
    (l.forM f).Every F := by
  induction l with
  | nil => exact pure ()
  | cons a l ih =>
    rw [forM_cons]
    exact (hf a List.mem_cons_self).bind fun _ => ih fun b hb => hf b (List.mem_cons_of_mem a hb)

theorem leads (hc : c.Every F) (h : c.Leads ms d) :
    d.Every F ∧ ∀ m ∈ ms, F m.tag m.before m.after := by
  induction h with
  | refl => exact ⟨hc, by simp⟩
  | @move _ _ _ _ x _ _ _ ih =>
    obtain ⟨hd, hms⟩ := ih (hc.2 _)
    exact ⟨hd, List.forall_mem_cons.mpr ⟨hc.1 x, hms⟩⟩

end Every

end Code

end DebugDesk
