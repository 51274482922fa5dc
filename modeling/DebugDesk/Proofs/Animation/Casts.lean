import DebugDesk.Animation.Animator
import DebugDesk.Proofs.Effect.History

/-!
# Casts of animations

What an animation does in a frame, and when it is finished, is a program: it adds and cancels
animations, looks at what happened so far, and answers or fails. A cast has such programs for all
its animations. What its animator does is kept in a history, with every change of the registry.
-/
namespace DebugDesk.AnimationHistory

inductive Event (ι : Type) where
  | began (a : ι) (time : Int)
  | answered (a : ι) (action : FrameAction)
  | finishing (a : ι)
  | finished (a : ι)
  | added (a : ι)
  | cancelled (a : ι)
  deriving DecidableEq

/-- The registry of an animator, and what happened. -/
abbrev Chronicle (ι : Type) := Traced (List ι) (Event ι)

inductive Program (ι β : Type) where
  | answer (b : β)
  | fail (fault : Fault)
  | add (a : ι) (next : Program ι β)
  | cancel (a : ι) (finalize : Bool) (next : Program ι β)
  /-- Goes on as the registry and what happened so far demand. -/
  | look (next : Chronicle ι → Program ι β)

structure Cast (ι : Type) where
  render : ι → (time : Int) → Program ι FrameAction
  finish : ι → Program ι Unit

variable {ι β : Type}

/-- A program never fails, and what it answers is good. -/
def Program.Ends (good : β → Prop) : Program ι β → Prop
  | answer b => good b
  | fail _ => False
  | add _ next => next.Ends good
  | cancel _ _ next => next.Ends good
  | look next => ∀ s, (next s).Ends good

/-- One of the three actions that an animator knows. -/
def Known (action : FrameAction) : Prop := ∀ word, action ≠ .unknown word

/-- No animation ever fails or answers with an unknown action. -/
structure Cast.Graceful (C : Cast ι) : Prop where
  render : ∀ a time, (C.render a time).Ends Known
  finish : ∀ a, (C.finish a).Ends fun _ => True

/-- A program fails only as it may, and what it answers is good. -/
def Program.Fares (good : β → Prop) (fails : Fault → Prop) : Program ι β → Prop
  | answer b => good b
  | fail fault => fails fault
  | add _ next => next.Fares good fails
  | cancel _ _ next => next.Fares good fails
  | look next => ∀ s, (next s).Fares good fails

theorem Program.fares_any (p : Program ι β) {good : β → Prop} (hgood : ∀ b, good b) :
    p.Fares good fun _ => True := by
  induction p with
  | answer b => exact hgood b
  | fail fault => exact trivial
  | add _ _ ih => exact ih
  | cancel _ _ _ ih => exact ih
  | look _ ih => exact ih

theorem Program.Ends.fares {p : Program ι β} {good good' : β → Prop} {fails : Fault → Prop}
    (h : p.Ends good) (hgood : ∀ b, good b → good' b) : p.Fares good' fails := by
  induction p with
  | answer b => exact hgood b h
  | fail fault => exact h.elim
  | add _ _ ih => exact ih h
  | cancel _ _ _ ih => exact ih h
  | look _ ih => exact fun s => ih s (h s)

variable [DecidableEq ι]

/-- Carries out a program, call by call. -/
def Program.carryOut (A : Animator (Chronicle ι) ι) : Program ι β → Effect (Chronicle ι) β
  | answer b => return b
  | fail fault => throw fault
  | add a next => do
    A.add a
    Traced.happen (.added a)
    next.carryOut A
  | cancel a finalize next => do
    A.cancel a finalize
    Traced.happen (.cancelled a)
    next.carryOut A
  | look next => do
    let s ← getThe (Chronicle ι)
    (next s).carryOut A

namespace Cast

/-- The animator of a cast, with limited nesting: its animations call an animator that may go less
deep. -/
def animator (C : Cast ι) : Nat → Animator (Chronicle ι) ι
  | 0 =>
    { registry := Traced.part .whole
      restart := fun _ => return ()
      render := fun _ _ => throw .tooDeep
      finish := fun _ => throw .tooDeep }
  | depth + 1 =>
    { registry := Traced.part .whole
      restart := fun _ => return ()
      render := fun a time => do
        Traced.happen (.began a time)
        let action ← (C.render a time).carryOut (C.animator depth)
        Traced.happen (.answered a action)
        return action
      finish := fun a => do
        Traced.happen (.finishing a)
        (C.finish a).carryOut (C.animator depth)
        Traced.happen (.finished a) }

theorem registry_animator (C : Cast ι) (depth : Nat) :
    (C.animator depth).registry = Traced.part .whole := by cases depth <;> rfl

theorem restart_animator (C : Cast ι) (depth : Nat) (a : ι) :
    (C.animator depth).restart a = pure () := by cases depth <;> rfl

end Cast

/-- An effect does what another one does, unless that one is nested too deep. -/
def Deepens (e e' : Effect (Chronicle ι) β) : Prop :=
  ∀ s, (e.outcome s).1 = .error .tooDeep ∨ e'.outcome s = e.outcome s

omit [DecidableEq ι] in
theorem Deepens.refl (e : Effect (Chronicle ι) β) : Deepens e e := fun _ => .inr rfl

omit [DecidableEq ι] in
theorem Deepens.trans {e e' e'' : Effect (Chronicle ι) β} (h : Deepens e e')
    (h' : Deepens e' e'') : Deepens e e'' := by
  intro s
  rcases h s with hdeep | hsame
  · exact .inl hdeep
  · rw [← hsame]
    exact h' s

omit [DecidableEq ι] in
theorem Deepens.bind {γ : Type} {e e' : Effect (Chronicle ι) β}
    {f f' : β → Effect (Chronicle ι) γ} (he : Deepens e e') (hf : ∀ b, Deepens (f b) (f' b)) :
    Deepens (e >>= f) (e' >>= f') := by
  intro s
  rcases hs : e.outcome s with ⟨fault | b, t⟩
  · rw [Effect.outcome_bind_error hs]
    rcases he s with hdeep | hsame
    · rw [hs] at hdeep
      cases hdeep
      exact .inl rfl
    · exact .inr (Effect.outcome_bind_error (hsame.trans hs) f')
  · rcases he s with hdeep | hsame
    · rw [hs] at hdeep
      cases hdeep
    · rw [Effect.outcome_bind_ok hs, Effect.outcome_bind_ok (hsame.trans hs)]
      exact hf b t

namespace Cast

variable {C : Cast ι} {depth : Nat}

theorem deepens_add (C : Cast ι) (depth : Nat) (a : ι) :
    Deepens ((C.animator depth).add a) ((C.animator (depth + 1)).add a) := by
  simp only [Animator.add, C.restart_animator, C.registry_animator]
  exact .refl _

theorem deepens_cancel
    (h : ∀ a, Deepens ((C.animator depth).finish a) ((C.animator (depth + 1)).finish a)) (a : ι)
    (finalize : Bool) :
    Deepens ((C.animator depth).cancel a finalize)
      ((C.animator (depth + 1)).cancel a finalize) := by
  simp only [Animator.cancel, C.registry_animator]
  cases finalize with
  | false => exact .refl _
  | true => exact (h a).bind fun _ => .refl _

theorem deepens_carryOut
    (h : ∀ a, Deepens ((C.animator depth).finish a) ((C.animator (depth + 1)).finish a))
    (p : Program ι β) :
    Deepens (p.carryOut (C.animator depth)) (p.carryOut (C.animator (depth + 1))) := by
  induction p with
  | answer b => exact .refl _
  | fail fault => exact .refl _
  | add a next ih => exact (deepens_add C depth a).bind fun _ => (Deepens.refl _).bind fun _ => ih
  | cancel a finalize next ih =>
    exact (deepens_cancel h a finalize).bind fun _ => (Deepens.refl _).bind fun _ => ih
  | look next ih => exact (Deepens.refl _).bind ih

theorem deepens_finish (C : Cast ι) (depth : Nat) (a : ι) :
    Deepens ((C.animator depth).finish a) ((C.animator (depth + 1)).finish a) := by
  -- A finish only calls what is one level below, for which both animators are one level apart.
  induction depth generalizing a with
  | zero => exact fun _ => .inl rfl
  | succ depth ih =>
    exact (Deepens.refl _).bind fun _ => (deepens_carryOut ih (C.finish a)).bind fun _ => .refl _

theorem deepens_render (C : Cast ι) (depth : Nat) (a : ι) (time : Int) :
    Deepens ((C.animator depth).render a time) ((C.animator (depth + 1)).render a time) := by
  cases depth with
  | zero => exact fun _ => .inl rfl
  | succ depth =>
    exact (Deepens.refl _).bind fun _ =>
      (deepens_carryOut (C.deepens_finish depth) (C.render a time)).bind fun _ => .refl _

theorem deepens_renderAll (C : Cast ι) (depth : Nat) (time : Int) (registry : List ι) :
    Deepens ((C.animator depth).renderAll time registry)
      ((C.animator (depth + 1)).renderAll time registry) := by
  induction registry with
  | nil => exact .refl _
  | cons a rest ih =>
    refine Deepens.bind ((C.deepens_render depth a time).bind fun action => ?_) fun ends => ?_
    · cases action with
      | finish => exact (C.deepens_finish depth a).bind fun _ => .refl _
      | _ => exact .refl _
    · cases ends with
      | false => exact ih
      | true => exact ih.bind fun _ => .refl _

/-- How deep calls may be nested does not matter as long as it is deep enough. -/
theorem deepens_renderFrame (C : Cast ι) (time : Int) {depth depth' : Nat} (h : depth ≤ depth') :
    Deepens ((C.animator depth).renderFrame time) ((C.animator depth').renderFrame time) := by
  induction h with
  | refl => exact .refl _
  | step _ ih =>
    refine ih.trans ?_
    simp only [Animator.renderFrame, C.registry_animator]
    exact (Deepens.refl _).bind fun registry =>
      (C.deepens_renderAll _ time registry).bind fun _ => .refl _

end Cast

end DebugDesk.AnimationHistory
