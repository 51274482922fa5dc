import DebugDesk.Fault

/-!
# Effects

An effect changes a state and may fail; what it changed before it failed stays changed. Components
whose hooks are chosen by whoever uses them work on a `Part` of a larger state, which the hooks see
and change too.
-/
namespace DebugDesk

abbrev Effect (σ β : Type) := ExceptT Fault (StateM σ) β

namespace Effect

variable {σ β : Type}

def outcome (e : Effect σ β) (s : σ) : Except Fault β × σ := e.run.run s

/-- Goes on after a failure, which becomes the result. -/
def attempt (e : Effect σ β) : Effect σ (Except Fault β) := ExceptT.mk (Except.ok <$> e.run)

def quietly (e : Effect σ Unit) : Effect σ Unit := do
  let _ ← e.attempt
  return ()

def ofExcept (r : Except Fault β) : Effect σ β := ExceptT.mk (pure r)

def change (f : σ → β × σ) : Effect σ β := ExceptT.mk fun s => ((.ok (f s).1), (f s).2)

def step (f : σ → Except Fault (β × σ)) : Effect σ β := ExceptT.mk fun s =>
  match f s with
  | .ok (b, s) => (.ok b, s)
  | .error fault => (.error fault, s)

variable {γ : Type}

@[simp] theorem ok_bind (b : β) (f : β → Except Fault γ) : (Except.ok b >>= f) = f b := rfl

@[simp] theorem error_bind (fault : Fault) (f : β → Except Fault γ) :
    ((Except.error fault : Except Fault β) >>= f) = .error fault := rfl

theorem bind_eq_ok {e : Except Fault β} {f : β → Except Fault γ} {c : γ}
    (h : (e >>= f) = .ok c) : ∃ b, e = .ok b ∧ f b = .ok c := by
  cases e with
  | error fault => exact nomatch h
  | ok b => exact ⟨b, rfl, h⟩

@[simp] theorem outcome_pure (b : β) (s : σ) : (pure b : Effect σ β).outcome s = (.ok b, s) := rfl

@[simp] theorem outcome_throw (fault : Fault) (s : σ) :
    (throw fault : Effect σ β).outcome s = (.error fault, s) := rfl

theorem outcome_bind (e : Effect σ β) (f : β → Effect σ γ) (s : σ) :
    (e >>= f).outcome s =
      match e.outcome s with
      | (.ok b, t) => (f b).outcome t
      | (.error fault, t) => (.error fault, t) := by
  simp only [outcome, bind, ExceptT.bind, ExceptT.run, ExceptT.mk, StateT.bind, StateT.run]
  rcases h : e s with ⟨r, t⟩
  cases r <;> rfl

theorem outcome_attempt (e : Effect σ β) (s : σ) :
    e.attempt.outcome s = (.ok (e.outcome s).1, (e.outcome s).2) := rfl

@[simp] theorem outcome_get (s : σ) : (get : Effect σ σ).outcome s = (.ok s, s) := rfl

@[simp] theorem outcome_set (t s : σ) : (set t : Effect σ Unit).outcome s = (.ok (), t) := rfl

@[simp] theorem outcome_ofThrown (r : Except Fault β) (s : σ) :
    (MonadExcept.ofExcept r : Effect σ β).outcome s = (r, s) := by cases r <;> rfl

@[simp] theorem outcome_modify (f : σ → σ) (s : σ) :
    (modify f : Effect σ Unit).outcome s = (.ok (), f s) := rfl

@[simp] theorem outcome_change (f : σ → β × σ) (s : σ) :
    (change f).outcome s = (.ok (f s).1, (f s).2) := rfl

@[simp] theorem outcome_ofExcept (r : Except Fault β) (s : σ) :
    (ofExcept r : Effect σ β).outcome s = (r, s) := rfl

@[simp] theorem outcome_step (f : σ → Except Fault (β × σ)) (s : σ) :
    (step f).outcome s =
      match f s with
      | .ok (b, t) => (.ok b, t)
      | .error fault => (.error fault, s) := by
  simp only [outcome, step, ExceptT.run, ExceptT.mk, StateT.run]
  rcases f s with _ | ⟨b, t⟩ <;> rfl

end Effect

/-- A part of a state that can be read and replaced. -/
structure Part (σ τ : Type) where
  get : σ → τ
  set : τ → σ → σ

namespace Part

variable {σ τ : Type}

/-- What is put is what is found, the latest part put counts, and putting what is there changes
nothing. -/
structure Lawful (p : Part σ τ) : Prop where
  get_set : ∀ t s, p.get (p.set t s) = t
  set_get : ∀ s, p.set (p.get s) s = s
  set_set : ∀ t u s, p.set u (p.set t s) = p.set u s

def whole : Part σ σ := ⟨id, fun t _ => t⟩

def map (p : Part σ τ) (f : τ → τ) (s : σ) : σ := p.set (f (p.get s)) s

def read (p : Part σ τ) : Effect σ τ := return p.get (← getThe σ)

def update (p : Part σ τ) (f : τ → τ) : Effect σ Unit := modifyThe σ (p.map f)

@[simp] theorem outcome_read (p : Part σ τ) (s : σ) :
    p.read.outcome s = (.ok (p.get s), s) := rfl

@[simp] theorem outcome_update (p : Part σ τ) (f : τ → τ) (s : σ) :
    (p.update f).outcome s = (.ok (), p.map f s) := rfl

def within {β : Type} (p : Part σ τ) (e : Effect τ β) : Effect σ β := ExceptT.mk fun s =>
  let (result, t) := e.outcome (p.get s)
  (result, p.set t s)

end Part

end DebugDesk
