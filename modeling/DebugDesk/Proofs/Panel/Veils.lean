import DebugDesk.Proofs.Panel.Departures

/-!
# Veils

How much of a panel is faded is its veil. Only the frames of its own closing change the veil of a
panel, and the frames of other closings leave the closing of a panel as it is.
-/
namespace DebugDesk

namespace Panel

variable {α β : Type}

/-- How much is left of a panel, and how much of its size is gone. -/
structure Veil (α : Type) where
  body : α
  header : α
  collapse : α

def veil (p : Panel α β) : Veil α := ⟨p.bodyOpacity, p.headerOpacity, p.collapse⟩

theorem veil_endMove (p : Panel α β) : p.endMove.1.veil = p.veil := by
  unfold endMove
  split <;> rfl

theorem veil_endResize (p : Panel α β) : p.endResize.1.veil = p.veil := by
  unfold endResize
  split <;> rfl

theorem veil_cancelGesture (p : Panel α β) : p.cancelGesture.1.veil = p.veil := by
  unfold cancelGesture
  split
  · exact p.veil_endMove
  · exact p.veil_endResize
  · rfl

variable [Scalar α]

def Veil.none : Veil α := ⟨1.0, 1.0, 0.0⟩

theorem IsNew.veil {p : Panel α β} (h : p.IsNew) : p.veil = Veil.none := by
  obtain ⟨_, _, _, _, _, _, _, _, _, rfl⟩ := h
  rfl

theorem veil_toggleExpanded (p : Panel α β) : p.toggleExpanded.1.veil = p.veil := by
  unfold toggleExpanded
  split <;> rfl

variable {p q : Panel α β} {grid : α} {pointer : Point α} {b : Bool}

theorem veil_moveTo (h : p.moveTo grid pointer = .ok (b, q)) : q.veil = p.veil := by
  simp only [moveTo, Bind.bind, Except.bind, pure, Except.pure] at h
  repeat' split at h
  all_goals cases h
  all_goals rfl

theorem veil_resizeTo (h : p.resizeTo grid pointer = .ok (b, q)) : q.veil = p.veil := by
  simp only [resizeTo, Bind.bind, Except.bind, pure, Except.pure] at h
  repeat' split at h
  all_goals cases h
  all_goals rfl

end Panel

namespace Workspace

variable {α β : Type} {w w' : Workspace α β} {m i j : Nat} {p q : Panel α β}

def veil? (w : Workspace α β) (i : Nat) : Option (Panel.Veil α) := (w.panel? i).map Panel.veil

theorem veil?_eq_some {v : Panel.Veil α} :
    w.veil? i = some v ↔ ∃ p, w.panel? i = some p ∧ p.veil = v := by
  simp [veil?]

def KeepsVeil (i : Nat) (w w' : Workspace α β) : Prop :=
  ∀ v, w.veil? i = some v → w'.veil? i = some v

instance : IsPreorder (Workspace α β) (KeepsVeil i) where
  refl _ _ := id
  trans _ _ _ h h' v hv := h' v (h v hv)

theorem KeepsVeil.of_eq (h : w'.veil? i = w.veil? i) : KeepsVeil i w w' := fun _ => h.trans

theorem veil?_of_alone {f : Panel α β → Panel α β} (hf : ∀ p, (f p).veil = p.veil)
    (h : (w'.panel? i).map Panel.alone = (w.panel? i).map f) : w'.veil? i = w.veil? i := by
  have hveil := congrArg (Option.map Panel.veil) h
  have hkept : Panel.veil ∘ f = (Panel.veil : Panel α β → _) := funext hf
  rw [Option.map_map, Option.map_map, hkept] at hveil
  exact hveil

theorem veil?_signalling (w : Workspace α β) (j i : Nat)
    {f : Panel α β → Panel α β × List (PanelSignal α β)} (hf : ∀ p, (f p).1.veil = p.veil) :
    (w.signalling j f).veil? i = w.veil? i := map_panel?_signalling w j i hf

theorem veil?_replace (hp : w.panel? j = some p) (hq : q.veil = p.veil) (i : Nat) :
    (w.modifyPanel j fun _ => q).veil? i = w.veil? i := by
  rw [← signalling_const hp q, veil?, panel?_signalling, Option.map_map, veil?]
  by_cases h : j = i
  · subst h
    simp [hp, hq]
  · simp [h, Function.comp_def]

theorem veil?_raise (w : Workspace α β) (m j i : Nat) : (w.raise m j).veil? i = w.veil? i :=
  map_panel?_raise w m j i fun _ _ _ => rfl

theorem veil?_raiseTopmost (w : Workspace α β) (m i : Nat) :
    (w.raiseTopmost m).veil? i = w.veil? i := by
  unfold raiseTopmost
  split
  · exact veil?_raise w m _ i
  · rfl

theorem veil?_raiseManaged (w : Workspace α β) (j i : Nat) :
    (w.raiseManaged j).veil? i = w.veil? i := by
  unfold raiseManaged
  split
  · exact veil?_raise w _ j i
  · rfl

theorem veil?_detach (w : Workspace α β) (m j z i : Nat) :
    (w.detach m j z).veil? i = w.veil? i := by
  refine veil?_of_alone (fun p => ?_) (alone_detach w m j z i)
  split <;> rfl

theorem veil?_remove (h : w.remove m j = .ok w') (i : Nat) : w'.veil? i = w.veil? i := by
  unfold Workspace.remove at h
  split at h
  · cases h
  next p hp =>
    split at h
    · cases h
    · cases h
      have htold (w : Workspace α β) : (w.tell j [.destroyed]).veil? i = w.veil? i := rfl
      rw [veil?_raiseTopmost, veil?_signalling _ j i fun _ => rfl, htold, veil?_detach,
        veil?_signalling _ j i Panel.veil_cancelGesture]

theorem veil?_beginClose (w : Workspace α β) (j i : Nat) :
    (w.beginClose j).2.veil? i = w.veil? i := by
  unfold Workspace.beginClose
  split
  · rfl
  · split
    · rfl
    · rw [veil?_signalling _ j i Panel.veil_cancelGesture]
      exact map_panel?_modifyPanel w j i fun _ => rfl

theorem veil?_closeAtOnce (w : Workspace α β) (m j i : Nat) :
    (w.closeAtOnce m j).2.veil? i = w.veil? i := by
  have hbegin := veil?_beginClose w j i
  unfold Workspace.closeAtOnce
  split
  next v hv => rwa [hv] at hbegin
  next v hv =>
    rw [hv] at hbegin
    split
    next hremove => exact (veil?_remove hremove i).trans hbegin
    next => exact hbegin

theorem veil?_finishClosing (h : w.finishClosing j = .ok w') (i : Nat) :
    w'.veil? i = w.veil? i := by
  unfold Workspace.finishClosing at h
  split at h
  · split at h
    · cases h
      rfl
    · exact veil?_remove h i
  · cases h
    rfl

theorem veil?_focus (h : w.focus m j = .ok w') (i : Nat) : w'.veil? i = w.veil? i := by
  unfold Workspace.focus at h
  split at h
  · cases h
    exact veil?_raise w m j i
  · cases h

theorem veil?_add (h : w.add m j = .ok w') (i : Nat) : w'.veil? i = w.veil? i := by
  refine veil?_of_alone (fun p => ?_) (alone_add h i)
  split <;> rfl

theorem keepsVeil_push (w : Workspace α β) (p : Panel α β) : KeepsVeil i w (w.push p) := by
  intro v hv
  obtain ⟨q, hq, rfl⟩ := veil?_eq_some.mp hv
  exact veil?_eq_some.mpr ⟨q, panel?_push_of_some w p hq, rfl⟩

theorem veil?_beginMove (w : Workspace α β) (j : Nat) (pointer : Point α) (i : Nat) :
    (w.beginMove j pointer).veil? i = w.veil? i := by
  unfold Workspace.beginMove
  split
  · rfl
  · split
    · rfl
    · rw [veil?_signalling _ j i fun _ => rfl, veil?_raiseManaged]

theorem veil?_beginResize (w : Workspace α β) (j : Nat) (pointer : Point α) (i : Nat) :
    (w.beginResize j pointer).2.veil? i = w.veil? i := by
  unfold Workspace.beginResize
  split
  · rfl
  · split
    · rfl
    · rw [veil?_signalling _ j i fun _ => rfl, veil?_raiseManaged]

variable [Scalar α]

theorem veil?_moveTo {pointer : Point α} {b : Bool} (h : w.moveTo j pointer = .ok (b, w'))
    (i : Nat) : w'.veil? i = w.veil? i := by
  unfold Workspace.moveTo at h
  split at h
  · cases h
  next p hp =>
    obtain ⟨moved, hmove, h⟩ := Effect.bind_eq_ok h
    cases h
    exact veil?_replace hp (Panel.veil_moveTo hmove) i

theorem veil?_resizeTo {pointer : Point α} {b : Bool} (h : w.resizeTo j pointer = .ok (b, w'))
    (i : Nat) : w'.veil? i = w.veil? i := by
  unfold Workspace.resizeTo at h
  split at h
  · cases h
  next p hp =>
    obtain ⟨resized, hresize, h⟩ := Effect.bind_eq_ok h
    cases h
    have hveil := veil?_replace hp (Panel.veil_resizeTo hresize) i
    split <;> exact hveil

/-- The frame of another panel. -/
theorem veil?_closingFrame {time : Int} {action : FrameAction}
    (h : w.closingFrame j time = .ok (action, w')) (hji : j ≠ i) : w'.veil? i = w.veil? i := by
  unfold Workspace.closingFrame at h
  split at h
  · obtain ⟨stages, _, h⟩ := Effect.bind_eq_ok h
    cases h
    rw [veil?, panel?_modifyPanel, veil?]
    simp [hji]
  · cases h
    rfl

end Workspace

namespace PanelScript.Stage

open Workspace hiding bind

variable {α β : Type} [Scalar α] {s t : Stage α β} {w : Workspace α β} {m i j : Nat}
  {p q : Panel α β}

theorem keepsVeil_close (m j : Nat) (animate : Bool) :
    (close (α := α) (β := β) m j animate).Respects (Along (KeepsVeil i)) := by
  intro s
  cases animate with
  | false =>
    rw [close_at_once]
    exact .of_eq (veil?_closeAtOnce s.workspace m j i)
  | true =>
    have hbegin := veil?_beginClose s.workspace j i
    simp only [close, ↓reduceIte, Effect.outcome_bind, Effect.outcome_change]
    rcases hv : s.workspace.beginClose j with ⟨_ | _, v⟩
    · rw [hv] at hbegin
      exact .of_eq hbegin
    · rw [hv] at hbegin
      exact .of_eq hbegin

theorem keepsVeil_finish (j : Nat) :
    ((animator (α := α) (β := β)).finish j).Respects (Along (KeepsVeil i)) := by
  refine along_step fun s b t h => ?_
  obtain ⟨w, hw, h⟩ := Effect.bind_eq_ok h
  cases h
  exact .of_eq (veil?_finishClosing hw i)

/-- Only frames fade panels. -/
theorem keepsVeil_act (s : Stage α β) {x : Action α β} (hx : ∀ time, x ≠ .command (.frame time)) :
    Along (KeepsVeil i) s (s.act x) := by
  cases x with
  | clear => exact Animator.clear_respects keepsVeil_finish along_registry s
  | command c =>
    suffices h : (perform c).Respects (Along (KeepsVeil i)) from h s
    have htrying (m : Nat) {f : Workspace α β → Except Fault (Workspace α β)}
        (hf : ∀ w w', f w = .ok w' → w'.veil? i = w.veil? i) :
        (do needManager m; trying f : Effect (Stage α β) Answer).Respects (Along (KeepsVeil i)) :=
      .bind (along_needManager m) fun _ => along_trying fun w w' h => .of_eq (hf w w' h)
    have hquiet (j : Nat) {f : Panel α β → Panel α β × List (PanelSignal α β)}
        (hf : ∀ p, (f p).1.veil = p.veil) :
        (change (·.signalling j f)).Respects (Along (KeepsVeil i)) :=
      along_change fun w => .of_eq (veil?_signalling w j i hf)
    cases c with
    | create => exact along_change fun w => keepsVeil_push w _
    | add m j => exact htrying m fun w w' h => veil?_add h i
    | focus m j => exact htrying m fun w w' h => veil?_focus h i
    | remove m j => exact htrying m fun w w' h => veil?_remove h i
    | close m j animate =>
      exact .bind (along_needManager m) fun _ =>
        .bind (keepsVeil_close m j animate) fun _ => .pure _
    | closeAll m =>
      exact .bind .get fun _ =>
        .bind (.forM _ fun j _ => keepsVeil_close m j false) fun _ => .pure _
    | frame time => exact absurd rfl (hx time)
    | toggle j =>
      refine along_asking fun w b w' h => .of_eq ?_
      cases h
      exact veil?_signalling w j i Panel.veil_toggleExpanded
    | beginMove j pointer => exact along_change fun w => .of_eq (veil?_beginMove w j pointer i)
    | moveTo j pointer => exact along_asking fun _ _ _ h => .of_eq (veil?_moveTo h i)
    | endMove j => exact hquiet j Panel.veil_endMove
    | beginResize j pointer =>
      refine along_asking fun w b w' h => .of_eq ?_
      have hresize := veil?_beginResize w j pointer i
      rw [Except.ok.inj h] at hresize
      exact hresize
    | resizeTo j pointer => exact along_asking fun _ _ _ h => .of_eq (veil?_resizeTo h i)
    | endResize j => exact hquiet j Panel.veil_endResize
    | cancelGesture j => exact hquiet j Panel.veil_cancelGesture
    | bind j binding =>
      refine along_change fun w => .of_eq ?_
      exact map_panel?_modifyPanel w j i fun _ => rfl
    | releaseBindings j => exact hquiet j fun _ => rfl
    | setClock time => exact .bind (fun s => refl_of (Along (KeepsVeil i)) s) fun _ => .pure _

/-- What the frame of another panel leaves of the closing of a panel. -/
structure Beside (i : Nat) (s t : Stage α β) : Prop where
  withers : Withers s t
  veil : t.workspace.veil? i = s.workspace.veil? i
  status : t.workspace.status? i = s.workspace.status? i

instance : IsPreorder (Stage α β) (Beside i) where
  refl s := ⟨refl_of Withers s, rfl, rfl⟩
  trans _ _ _ h h' := ⟨trans_of Withers h.withers h'.withers, h'.veil.trans h.veil,
    h'.status.trans h.status⟩

theorem beside_renderOne (hji : j ≠ i) (time : Int) :
    ((animator (α := α) (β := β)).renderOne time j).Respects (Beside i) := by
  intro s
  refine ⟨withers_renderOne time j s, ?_, ?_⟩
  · rw [renderOne_outcome]
    rcases hf : s.workspace.closingFrame j time with fault | ⟨action, w⟩
    · rfl
    · have hframe := veil?_closingFrame hf hji
      cases action with
      | finish =>
        dsimp only
        rcases hfinish : w.finishClosing j with fault | w'
        · exact hframe
        · exact (veil?_finishClosing hfinish i).trans hframe
      | _ => exact hframe
  · have hfate := renderOne_fate s time j
    rcases hf : s.workspace.fate time j with fault | _ | n
    · rw [hf] at hfate
      obtain ⟨w, hw, hu⟩ := hfate
      rw [hw]
      exact hu.status i
    · rw [hf] at hfate
      obtain ⟨b, w, hw, hu⟩ := hfate
      rw [hw]
      exact hu.status i
    · rw [hf] at hfate
      obtain ⟨v, w, hw, hu, hremove⟩ := hfate
      rw [hw]
      have hremoved := status?_remove hremove i
      simp only [hji, ↓reduceIte, Option.map_id'] at hremoved
      exact hremoved.trans (hu.status i)

theorem renderAll_beside {is : List Nat} (hi : i ∉ is) (time : Int) :
    ((animator (α := α) (β := β)).renderAll time is).Respects (Beside i) := by
  induction is with
  | nil => exact .pure []
  | cons j is ih =>
    have hrest := ih (List.not_mem_of_not_mem_cons hi)
    refine .bind (beside_renderOne (Ne.symm (List.ne_of_not_mem_cons hi)) time) fun ends => ?_
    split
    · exact .bind hrest fun _ => .pure _
    · exact hrest

/-- Of the frames of some panels, one after the other, only that of one panel may fail. -/
def Calm (i : Nat) (time : Int) (s : Stage α β) : List Nat → Prop
  | [] => True
  | j :: rest => (j ≠ i → ∃ b, ((animator.renderOne time j).outcome s).1 = .ok b) ∧
      Calm i time ((animator.renderOne time j).outcome s).2 rest

theorem renderAll_step {time : Int} {is ended : List Nat} {b : Bool} {u v : Stage α β}
    (hone : (animator.renderOne time j).outcome s = (.ok b, u))
    (hall : (animator.renderAll time is).outcome u = (.ok ended, v)) :
    (animator.renderAll time (j :: is)).outcome s =
      (.ok (if b then j :: ended else ended), v) := by
  rw [Animator.renderAll, Effect.outcome_bind_ok hone]
  cases b with
  | false => exact hall
  | true => exact Effect.outcome_bind_ok hall _

/-- The frame of a panel among frames of others. -/
structure Rendered (i : Nat) (time : Int) (is : List Nat) (s t u v : Stage α β) (b : Bool)
    (ended : List Nat) : Prop where
  before : Beside i s t
  turn : (animator.renderOne time i).outcome t = (.ok b, u)
  after : Beside i u v
  all : (animator.renderAll time is).outcome s = (.ok ended, v)
  ends : i ∈ ended ↔ b = true

theorem renderAll_calm {time : Int} {is : List Nat} (hi : i ∉ is) (h : Calm i time s is) :
    ∃ ended t, (animator.renderAll time is).outcome s = (.ok ended, t) ∧ i ∉ ended ∧
      Beside i s t := by
  induction is generalizing s with
  | nil => exact ⟨[], s, rfl, List.not_mem_nil, refl_of (Beside i) s⟩
  | cons j is ih =>
    have hij := List.ne_of_not_mem_cons hi
    obtain ⟨hone, hrest⟩ := h
    obtain ⟨b, hb⟩ := hone (Ne.symm hij)
    have hbeside := beside_renderOne (Ne.symm hij) time s
    obtain ⟨ended, t, hall, hnot, ht⟩ := ih (List.not_mem_of_not_mem_cons hi) hrest
    refine ⟨_, t, renderAll_step (Prod.ext hb rfl) hall, ?_, trans_of (Beside i) hbeside ht⟩
    split
    · exact List.not_mem_cons_of_ne_of_not_mem hij hnot
    · exact hnot

/-- Where only the frame of a panel may fail, and does not, its turn comes. -/
theorem rendered_of_calm {time : Int} {is : List Nat} (hd : is.Nodup) (hi : i ∈ is)
    (h : Calm i time s is)
    (hone : ∀ t, Beside i s t → ∃ b, ((animator.renderOne time i).outcome t).1 = .ok b) :
    ∃ t u v b ended, Rendered i time is s t u v b ended := by
  induction is generalizing s with
  | nil => cases hi
  | cons j is ih =>
    obtain ⟨hj, hd⟩ := List.nodup_cons.mp hd
    obtain ⟨hfirst, hrest⟩ := h
    by_cases hji : j = i
    · subst hji
      obtain ⟨b, hb⟩ := hone s (refl_of (Beside j) s)
      obtain ⟨ended, v, hall, hnot, hv⟩ := renderAll_calm hj hrest
      refine ⟨s, _, v, b, _, refl_of (Beside j) s, Prod.ext hb rfl, hv,
        renderAll_step (Prod.ext hb rfl) hall, ?_⟩
      cases b <;> simp [hnot]
    · have hmem := (List.mem_cons.mp hi).resolve_left (Ne.symm hji)
      obtain ⟨b, hb⟩ := hfirst hji
      have hbeside := beside_renderOne hji time s
      obtain ⟨t, u, v, c, ended, hrendered⟩ :=
        ih hd hmem hrest fun t ht => hone t (trans_of (Beside i) hbeside ht)
      refine ⟨t, u, v, c, _, trans_of (Beside i) hbeside hrendered.before, hrendered.turn,
        hrendered.after, renderAll_step (Prod.ext hb rfl) hrendered.all, ?_⟩
      rw [← hrendered.ends]
      cases b <;> simp [Ne.symm hji]

/-- A frame leaves panels alone that do not fade out. -/
theorem keepsVeil_frame (hi : i ∉ s.registry) (time : Option Int) :
    Along (KeepsVeil i) s (s.act (.command (.frame time))) := by
  have hact : s.act (.command (.frame time)) =
      ((animator.renderFrame (time.getD s.clock)).outcome s).2 :=
    congrArg Prod.snd (step_frame s time)
  have hall := renderAll_beside hi (time.getD s.clock) s
  rw [hact, Animator.renderFrame, Effect.outcome_bind_ok (outcome_registry s)]
  refine Effect.after_bind (p := fun t => Along (KeepsVeil i) s t) (.of_eq hall.veil)
    fun ended t h => ?_
  rw [h] at hall
  exact .of_eq hall.veil

end PanelScript.Stage

end DebugDesk
