import DebugDesk.Animation.Animator
import Mathlib.Order.Defs.Unbundled

/-!
# Relations that effects respect

What every effect of a component does to the state is told by one relation. If it is reflexive and
transitive, then what respects it may be put together in any way, and failures change nothing about
that. What all animations respect, and every change of the registry, an animator does as well.
-/
namespace DebugDesk

namespace Effect

variable {σ α β γ : Type} {P Q : σ → σ → Prop}

/-- Whatever state an effect starts from, the one it leaves is related to it. -/
def Respects (P : σ → σ → Prop) (e : Effect σ β) : Prop := ∀ s, P s (e.outcome s).2

theorem forM_cons (f : α → Effect σ Unit) (a : α) (l : List α) :
    (a :: l).forM f = (f a >>= fun _ => l.forM f) := rfl

theorem outcome_bind_ok {e : Effect σ β} {s t : σ} {b : β} (h : e.outcome s = (.ok b, t))
    (f : β → Effect σ γ) : (e >>= f).outcome s = (f b).outcome t := by
  rw [outcome_bind, h]

theorem outcome_bind_error {e : Effect σ β} {s t : σ} {fault : Fault}
    (h : e.outcome s = (.error fault, t)) (f : β → Effect σ γ) :
    (e >>= f).outcome s = (.error fault, t) := by
  rw [outcome_bind, h]

theorem ite_bind (c : Prop) [Decidable c] (e : Effect σ Unit) (f : Unit → Effect σ β) :
    ((if c then e else pure ()) >>= f) = if c then e >>= f else f () := by
  split
  · rfl
  · rw [pure_bind]

theorem outcome_bind_pure (e : Effect σ β) (f : β → γ) (s : σ) :
    ((e >>= fun b => (pure (f b) : Effect σ γ)).outcome s).2 = (e.outcome s).2 := by
  rcases he : e.outcome s with ⟨fault | b, t⟩
  · rw [outcome_bind_error he]
  · rw [outcome_bind_ok he, outcome_pure]

theorem of_bind_ok {e : Effect σ β} {f : β → Effect σ γ} {s u : σ} {c : γ}
    (h : (e >>= f).outcome s = (.ok c, u)) :
    ∃ b t, e.outcome s = (.ok b, t) ∧ (f b).outcome t = (.ok c, u) := by
  rw [outcome_bind] at h
  rcases he : e.outcome s with ⟨fault | b, t⟩
  · simp [he] at h
  · exact ⟨b, t, rfl, by simpa only [he] using h⟩

/-- What holds after a failure, and after all that may follow a success. -/
theorem after_bind {e : Effect σ β} {f : β → Effect σ γ} {s : σ} {p : σ → Prop}
    (he : p (e.outcome s).2) (hf : ∀ b t, e.outcome s = (.ok b, t) → p ((f b).outcome t).2) :
    p ((e >>= f).outcome s).2 := by
  rcases h : e.outcome s with ⟨fault | b, t⟩
  · rw [outcome_bind_error h]
    simpa only [h] using he
  · rw [outcome_bind_ok h]
    exact hf b t h

theorem related_bind [IsPreorder σ P] {e : Effect σ β} {f : β → Effect σ γ} {s : σ}
    (he : P s (e.outcome s).2) (hf : ∀ b t, e.outcome s = (.ok b, t) → P t ((f b).outcome t).2) :
    P s ((e >>= f).outcome s).2 := by
  refine after_bind he fun b t h => ?_
  have hs : P s t := by simpa only [h] using he
  exact trans_of P hs (hf b t h)

theorem related_rest [IsPreorder σ P] {f : β → Effect σ γ} (hf : ∀ b, (f b).Respects P)
    (e : Effect σ β) (s : σ) : P (e.outcome s).2 ((e >>= f).outcome s).2 := by
  refine after_bind (refl_of P _) fun b t h => ?_
  rw [h]
  exact hf b t

namespace Respects

theorem mono {e : Effect σ β} (he : e.Respects P) (h : ∀ s t, P s t → Q s t) : e.Respects Q :=
  fun s => h _ _ (he s)

theorem of_outcome {e : Effect σ β} (he : e.Respects P) {s t : σ} {r : Except Fault β}
    (h : e.outcome s = (r, t)) : P s t := by
  have hs := he s
  rwa [h] at hs

theorem reading {e : Effect σ β} {f : β → Effect σ γ} (he : e.Respects Eq)
    (hrefl : ∀ s, P s s) (hf : ∀ b, (f b).Respects P) : (e >>= f).Respects P := by
  intro s
  refine after_bind ((he s) ▸ hrefl s) fun b t h => ?_
  have hs : s = t := he.of_outcome h
  exact hs ▸ hf b s

theorem attempt {e : Effect σ β} (he : e.Respects P) : e.attempt.Respects P := he

variable [IsPreorder σ P]

theorem pure (b : β) : (Pure.pure b : Effect σ β).Respects P := fun s => refl_of P s

theorem throw (fault : Fault) : (throw fault : Effect σ β).Respects P := fun s => refl_of P s

theorem get : (get : Effect σ σ).Respects P := fun s => refl_of P s

theorem read {τ : Type} (p : Part σ τ) : p.read.Respects P := fun s => refl_of P s

theorem ofExcept (r : Except Fault β) : (Effect.ofExcept r : Effect σ β).Respects P :=
  fun s => refl_of P s

theorem ofExcept_bind {r : Except Fault β} {f : β → Effect σ γ}
    (h : ∀ b, r = .ok b → (f b).Respects P) : (Effect.ofExcept r >>= f).Respects P := by
  cases r with
  | error fault => exact fun s => refl_of P s
  | ok b => exact h b rfl

theorem bind {e : Effect σ β} {f : β → Effect σ γ} (he : e.Respects P)
    (hf : ∀ b, (f b).Respects P) : (e >>= f).Respects P :=
  fun s => related_bind (he s) fun b t _ => hf b t

theorem quietly {e : Effect σ Unit} (he : e.Respects P) : e.quietly.Respects P :=
  he.attempt.bind fun _ => pure ()

theorem forM {f : α → Effect σ Unit} (l : List α) (hf : ∀ a ∈ l, (f a).Respects P) :
    (l.forM f).Respects P := by
  induction l with
  | nil => exact pure ()
  | cons a l ih =>
    rw [forM_cons]
    exact (hf a List.mem_cons_self).bind fun _ => ih fun b hb => hf b (List.mem_cons_of_mem a hb)

end Respects

/-- Where something holds, it goes on to hold, and the states are related. -/
def During (I : σ → Prop) (P : σ → σ → Prop) (s t : σ) : Prop := I s → I t ∧ P s t

instance {I : σ → Prop} [IsPreorder σ P] : IsPreorder σ (During I P) where
  refl s h := ⟨h, refl_of P s⟩
  trans _ _ _ h h' hs := ⟨(h' (h hs).1).1, trans_of P (h hs).2 (h' (h hs).1).2⟩

/-- What related states have in common may be taken for granted as well. -/
theorem Respects.also {I H : σ → Prop} {e : Effect σ β} (he : e.Respects (During I P))
    (hH : ∀ s t, P s t → H s → H t) : e.Respects (During (fun s => I s ∧ H s) P) :=
  fun s h => ⟨⟨(he s h.1).1, hH _ _ (he s h.1).2 h.2⟩, (he s h.1).2⟩

end Effect

namespace Animator

variable {σ ι : Type} {A : Animator σ ι} {P : σ → σ → Prop} [IsPreorder σ P]

theorem renderOne_respects (hrender : ∀ a time, (A.render a time).Respects P)
    (hfinish : ∀ a, (A.finish a).Respects P) (time : Int) (a : ι) :
    (A.renderOne time a).Respects P := by
  refine .bind (hrender a time) fun action => ?_
  cases action with
  | keep => exact .pure false
  | finish => exact .bind (hfinish a) fun _ => .pure true
  | drop => exact .pure true
  | unknown word => exact .throw _

theorem renderAll_respects (hone : ∀ time a, (A.renderOne time a).Respects P) (time : Int)
    (l : List ι) : (A.renderAll time l).Respects P := by
  induction l with
  | nil => exact .pure []
  | cons a l ih =>
    refine .bind (hone time a) fun ends => ?_
    split
    · exact .bind ih fun _ => .pure _
    · exact ih

theorem renderFrame_respects [DecidableEq ι] (hrender : ∀ a time, (A.render a time).Respects P)
    (hfinish : ∀ a, (A.finish a).Respects P) (hregistry : ∀ f, (A.registry.update f).Respects P)
    (time : Int) : (A.renderFrame time).Respects P :=
  .bind (.read _) fun l =>
    .bind (renderAll_respects (renderOne_respects hrender hfinish) time l) fun _ => hregistry _

theorem clear_respects (hfinish : ∀ a, (A.finish a).Respects P)
    (hregistry : ∀ f, (A.registry.update f).Respects P) : A.clear.Respects P :=
  .bind (.read _) fun _ => .bind (.forM _ fun a _ => hfinish a) fun _ => hregistry _

end Animator

end DebugDesk
