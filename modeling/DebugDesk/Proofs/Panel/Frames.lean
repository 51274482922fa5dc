import DebugDesk.Proofs.Panel.Closings

/-!
# Frames of closing panels

A frame of the animator drops the panels that have faded out, as its plan tells from the state
before it. Panels that are closed at once are dropped, unless another manager than theirs closes
them.
-/
namespace DebugDesk

namespace Panel

variable {α β : Type}

/-- A change that neither stacking nor closing sees. -/
def Steady (f : Panel α β → Panel α β × List (PanelSignal α β)) : Prop :=
  ∀ p, (f p).1.place = p.place ∧ (f p).1.status = p.status

theorem steady_cancelGesture : Steady (cancelGesture : Panel α β → _) :=
  fun p => ⟨place_cancelGesture p, status_cancelGesture p⟩

theorem steady_endMove : Steady (endMove : Panel α β → _) := by
  intro p
  unfold endMove
  split <;> exact ⟨rfl, rfl⟩

theorem steady_endResize : Steady (endResize : Panel α β → _) := by
  intro p
  unfold endResize
  split <;> exact ⟨rfl, rfl⟩

theorem steady_releaseBindings : Steady (releaseBindings : Panel α β → _) := fun _ => ⟨rfl, rfl⟩

theorem steady_beginMove (pointer : Point α) : Steady (β := β) (beginMove · pointer) :=
  fun _ => ⟨rfl, rfl⟩

theorem steady_beginResize (pointer : Point α) : Steady (β := β) (beginResize · pointer) :=
  fun _ => ⟨rfl, rfl⟩

variable [Scalar α]

theorem steady_toggleExpanded : Steady (toggleExpanded : Panel α β → _) := by
  intro p
  unfold toggleExpanded
  split <;> exact ⟨rfl, rfl⟩

theorem steady_moveTo {p p' : Panel α β} {grid : α} {pointer : Point α} {b : Bool}
    (h : p.moveTo grid pointer = .ok (b, p')) : p'.place = p.place ∧ p'.status = p.status := by
  simp only [moveTo, Bind.bind, Except.bind, pure, Except.pure] at h
  repeat' split at h
  all_goals cases h
  all_goals exact ⟨rfl, rfl⟩

theorem steady_resizeTo {p p' : Panel α β} {grid : α} {pointer : Point α} {b : Bool}
    (h : p.resizeTo grid pointer = .ok (b, p')) : p'.place = p.place ∧ p'.status = p.status := by
  simp only [resizeTo, Bind.bind, Except.bind, pure, Except.pure] at h
  repeat' split at h
  all_goals cases h
  all_goals exact ⟨rfl, rfl⟩

end Panel

namespace Workspace

variable {α β : Type} {w w' : Workspace α β} {S : Stacks} {m i : Nat}

theorem Unmoved.signalling (w : Workspace α β) (i : Nat)
    {f : Panel α β → Panel α β × List (PanelSignal α β)} (hf : Panel.Steady f) :
    Unmoved w (w.signalling i f) :=
  ⟨.signalling w i fun p => (hf p).1, inStep_signalling w i f,
    fun j => status?_signalling w i j fun p => (hf p).2⟩

theorem panel?_push_of_some (w : Workspace α β) (p : Panel α β) {q : Panel α β}
    (hq : w.panel? i = some q) : (w.push p).panel? i = some q := by
  obtain ⟨hi, _⟩ := List.getElem?_eq_some_iff.mp hq
  rw [← hq]
  exact List.getElem?_append_left hi

theorem Follows.push (w : Workspace α β) (p : Panel α β) : Follows w (w.push p) := by
  refine ⟨⟨rfl, rfl⟩, fun j q hq => ⟨q, ?_, .refl q⟩⟩
  obtain ⟨r, hr, rfl⟩ := Option.map_eq_some_iff.mp hq
  rw [status?, panel?_push_of_some w p hr, Option.map_some]

/-- A panel that no manager has joins the workspace, and no stack. -/
theorem Arranged.push (h : w.Arranged S) {p : Panel α β} (hp : p.manager = none) :
    (w.push p).Arranged S := by
  refine fun m => (h m).congr rfl fun j => ?_
  cases hj : w.panel? j with
  | some q =>
    left
    rw [place?, place?, panel?_push_of_some w p hj, hj]
  | none =>
    refine .inr ⟨by simp [owner?, place?, hj], ?_⟩
    have hle : w.panels.length ≤ j := List.getElem?_eq_none_iff.mp hj
    have hpush : (w.push p).panel? j = [p][j - w.panels.length]? := List.getElem?_append_right hle
    cases hk : j - w.panels.length with
    | zero => simp [owner?, place?, hpush, hk, Panel.place, hp]
    | succ k => simp [owner?, place?, hpush, hk]

/-- Marks a panel as closing, which ends its gesture. -/
theorem beginClose_eq (w : Workspace α β) {q : Panel.Status} (hq : w.status? i = some q) :
    w.beginClose i =
      if q.isOpen then
        (true, (w.modifyPanel i fun p => { p with closing := true }).signalling i
          Panel.cancelGesture)
      else (false, w) := by
  obtain ⟨p, hp, _, hc, hd⟩ := status?_eq_some hq
  have ho : q.isOpen = !(q.closing || q.closed) := by simp [Panel.Status.isOpen]
  simp only [beginClose, hp, hc, hd, ho]
  cases h : q.closing || q.closed <;> simp

theorem Arranged.of_remove (h : w.Arranged S) (hr : w.remove m i = .ok w') :
    w'.Arranged (S.restack (.drop m i)) := by
  cases hp : w.panel? i with
  | none => simp [Workspace.remove, hp] at hr
  | some p =>
    by_cases hm : p.manager = some m
    · obtain ⟨v, hv, hva⟩ := h.remove hp hm
      rw [hr] at hv
      cases hv
      exact hva
    · simp [Workspace.remove, hp, hm] at hr

/-- What is marked as closing keeps its place in the stacks. -/
theorem beginClose_of_isOpen {q : Panel.Status} (hq : w.status? i = some q)
    (ho : q.isOpen = true) :
    ∃ v, w.beginClose i = (true, v) ∧ Alike w v ∧ Follows w v ∧
      ∀ j, v.status? j =
        (w.status? j).map fun r => if i = j then { r with closing := true } else r := by
  refine ⟨_, by rw [beginClose_eq w hq, if_pos ho], ?_, ?_⟩
  · have ha : Alike w (w.modifyPanel i fun p => { p with closing := true }) :=
      .modifyPanel w i fun _ _ => rfl
    exact ha.trans (.signalling _ i Panel.place_cancelGesture)
  · have hs : ∀ j, ((w.modifyPanel i fun p => { p with closing := true }).signalling i
        Panel.cancelGesture).status? j =
        (w.status? j).map fun r => if i = j then { r with closing := true } else r := by
      intro j
      rw [status?_signalling _ i j Panel.status_cancelGesture,
        status?_modifyPanel w i j (g := fun r => { r with closing := true })]
      exact fun _ => rfl
    refine ⟨⟨(inStep_modifyPanel w i _).trans (inStep_signalling _ i _), ?_⟩, hs⟩
    refine .of_map hs fun j r _ => ?_
    split
    · exact ⟨fun _ => rfl, id, fun _ h => .inr h⟩
    · exact .refl r

theorem beginClose_of_not_isOpen (h : ∀ q, w.status? i = some q → q.isOpen = false) :
    w.beginClose i = (false, w) := by
  cases hq : w.status? i with
  | none => simp [beginClose, status?_eq_none.mp hq]
  | some q => simp [beginClose_eq w hq, h q hq]

theorem closeAtOnce_of_not_isOpen (h : ∀ q, w.status? i = some q → q.isOpen = false) :
    w.closeAtOnce m i = (.ok (), w) := by
  simp only [closeAtOnce, beginClose_of_not_isOpen h]

/-- A manager closes a panel of its own at once. -/
theorem Arranged.closeAtOnce (h : w.Arranged S) {q : Panel.Status} (hq : w.status? i = some q)
    (ho : q.isOpen = true) (hm : q.manager = some m) :
    ∃ w', w.closeAtOnce m i = (.ok (), w') ∧ w'.Arranged (S.restack (.drop m i)) ∧
      Follows w w' ∧ ∀ j, i ≠ j → w'.status? j = w.status? j := by
  obtain ⟨v, hv, ha, hf, hs⟩ := beginClose_of_isOpen hq ho
  have hqv : v.status? i = some { q with closing := true } := by simp [hs, hq]
  obtain ⟨p, hp, hpm, _⟩ := status?_eq_some hqv
  obtain ⟨w', hw', hr⟩ := (h.alike ha).remove hp (hpm.trans hm)
  refine ⟨w', by simp only [Workspace.closeAtOnce, hv, hw'], hr, hf.trans (.remove hw'), ?_⟩
  intro j hj
  simp [status?_remove hw', hs, hj]

theorem closeAtOnce_of_foreign {q : Panel.Status} (hq : w.status? i = some q)
    (ho : q.isOpen = true) (hm : q.manager ≠ some m) :
    w.closeAtOnce m i = (.error .panelNotManaged, (w.beginClose i).2) := by
  obtain ⟨v, hv, _, _, hs⟩ := beginClose_of_isOpen hq ho
  have hqv : v.status? i = some { q with closing := true } := by simp [hs, hq]
  have hr := remove_of_status (m := m) hqv
  rw [if_neg hm] at hr
  simp only [closeAtOnce, hv, hr]

end Workspace

namespace PanelScript.Stage

open Workspace hiding bind

variable {α β : Type} [Scalar α] {s : Stage α β} {S : Stacks} {w w' : Workspace α β} {m i : Nat}

omit [Scalar α] in
theorem finishClosing_eq (w : Workspace α β) (i : Nat) :
    w.finishClosing i =
      match w.closing? i, w.status? i with
      | some c, some q => if q.closed then .ok w else w.remove c.manager i
      | _, _ => .ok w := by
  unfold finishClosing status?
  cases w.closing? i <;> cases w.panel? i <;> rfl

theorem closingFrame_eq (w : Workspace α β) (i : Nat) (time : Int) {c : Closing} {p : Panel α β}
    (hc : w.closing? i = some c) (hp : w.panel? i = some p) :
    w.closingFrame i time =
      match w.stages c time with
      | .error fault => .error fault
      | .ok stages => .ok (if (p.fade stages).1 then .finish else .keep,
          w.modifyPanel i fun _ => (p.fade stages).2) := by
  simp only [closingFrame, hc, hp]
  cases w.stages c time <;> rfl

theorem fade_ended (p : Panel α β) (stages : α) :
    (p.fade stages).1 = true ↔ ¬(stages < 1.0 ∨ stages < 2.0) := by
  unfold Panel.fade
  split
  · simp [*]
  · split <;> simp [*]

theorem unmoved_fade (w : Workspace α β) {p : Panel α β} (hp : w.panel? i = some p) (stages : α) :
    Unmoved w (w.modifyPanel i fun _ => (p.fade stages).2) := by
  refine .modifyPanel w i fun q hq => ?_
  rw [hp] at hq
  cases hq
  unfold Panel.fade
  split
  · exact ⟨rfl, rfl⟩
  · split <;> exact ⟨rfl, rfl⟩

theorem renderOne_outcome (s : Stage α β) (time : Int) (i : Nat) :
    (animator.renderOne time i).outcome s =
      match s.workspace.closingFrame i time with
      | .error fault => (.error fault, s)
      | .ok (.finish, w) =>
        match w.finishClosing i with
        | .error fault => (.error fault, { s with workspace := w })
        | .ok w => (.ok true, { s with workspace := w })
      | .ok (.keep, w) => (.ok false, { s with workspace := w })
      | .ok (.drop, w) => (.ok true, { s with workspace := w })
      | .ok (.unknown word, w) => (.error (.unknownAction word), { s with workspace := w }) := by
  simp only [Animator.renderOne, animator, Effect.outcome_bind, Effect.outcome_step]
  rcases s.workspace.closingFrame i time with fault | ⟨action, w⟩
  · rfl
  · cases action with
    | finish =>
      simp only [Effect.ok_bind, pure, Except.pure, Effect.outcome_bind, Effect.outcome_step]
      cases w.finishClosing i <;> rfl
    | _ => rfl

/-- The frame of one panel: it fades on, it is let go by its manager, or the frame fails. -/
theorem renderOne_fate (s : Stage α β) (time : Int) (i : Nat) :
    match s.workspace.fate time i with
    | .ok none => ∃ b w, (animator.renderOne time i).outcome s =
        (.ok b, { s with workspace := w }) ∧ Unmoved s.workspace w
    | .ok (some m) => ∃ v w, (animator.renderOne time i).outcome s =
        (.ok true, { s with workspace := w }) ∧ Unmoved s.workspace v ∧ v.remove m i = .ok w
    | .error fault => ∃ w, (animator.renderOne time i).outcome s =
        (.error fault, { s with workspace := w }) ∧ Unmoved s.workspace w := by
  rw [renderOne_outcome]
  cases hc : s.workspace.closing? i with
  | none =>
    simp only [closingFrame, finishClosing, fate, hc]
    exact ⟨true, _, rfl, .refl _⟩
  | some c =>
    cases hp : s.workspace.panel? i with
    | none =>
      simp only [closingFrame, finishClosing, fate, status?, hc, hp]
      exact ⟨true, _, rfl, .refl _⟩
    | some p =>
      have hq : s.workspace.status? i = some p.status := by simp [status?, hp]
      simp only [closingFrame_eq _ i time hc hp, fate, hc, hq]
      cases hs : s.workspace.stages c time with
      | error f => exact ⟨_, rfl, .refl _⟩
      | ok st =>
        have hu := unmoved_fade s.workspace hp st
        by_cases he : st < 1.0 ∨ st < 2.0
        · simp only [show (p.fade st).1 = false by simpa [he] using fade_ended p st, he, true_or,
            ← or_assoc]
          exact ⟨false, _, rfl, hu⟩
        · have hc' : (s.workspace.modifyPanel i fun _ => (p.fade st).2).closing? i = some c := by
            rw [closing?, hu.closings, ← closing?, hc]
          have hq' := (hu.status i).trans hq
          have hf := finishClosing_eq (s.workspace.modifyPanel i fun _ => (p.fade st).2) i
          simp only [hc', hq'] at hf
          simp only [(fade_ended p st).mpr he, ← or_assoc, he, false_or, ↓reduceIte, hf]
          cases hcl : p.status.closed with
          | true => exact ⟨true, _, rfl, hu⟩
          | false =>
            have hr := remove_of_status (m := c.manager) hq'
            by_cases hm : p.status.manager = some c.manager
            · rw [if_pos hm] at hr
              obtain ⟨w', hw'⟩ := hr
              simp only [hm, hw', Bool.false_eq_true, ↓reduceIte]
              exact ⟨_, _, rfl, hu, hw'⟩
            · rw [if_neg hm] at hr
              simp only [hm, hr, Bool.false_eq_true, ↓reduceIte]
              exact ⟨_, rfl, hu⟩

theorem renderAll_cons {time : Int} {b : Bool} {t : Stage α β} (is : List Nat)
    (h : (animator.renderOne time i).outcome s = (.ok b, t)) :
    ((animator.renderAll time (i :: is)).outcome s).2 =
        ((animator.renderAll time is).outcome t).2 ∧
      ∀ fault, ((animator.renderAll time (i :: is)).outcome s).1 = .error fault →
        ((animator.renderAll time is).outcome t).1 = .error fault := by
  simp only [Animator.renderAll, Effect.outcome_bind, h]
  cases b with
  | false => exact ⟨rfl, fun _ => id⟩
  | true =>
    simp only [↓reduceIte, Effect.outcome_bind]
    rcases (animator.renderAll time is).outcome t with ⟨_ | _, u⟩
    · exact ⟨rfl, fun _ => id⟩
    · exact ⟨rfl, nofun⟩

/-- A frame drops the panels that its plan tells, and where it fails, it does so for one of them. -/
theorem renderAll_plan (time : Int) {is : List Nat} (hd : is.Nodup) (s : Stage α β)
    (hs : s.workspace.Arranged S) :
    ∃ w, ((animator.renderAll time is).outcome s).2 = { s with workspace := w } ∧
      w.Arranged (S.restackAll (framePlan (s.workspace.fate time) is)) ∧ Follows s.workspace w ∧
      ∀ fault, ((animator.renderAll time is).outcome s).1 = .error fault →
        ∃ i ∈ is, s.workspace.fate time i = .error fault := by
  induction is generalizing s S with
  | nil => exact ⟨s.workspace, rfl, hs, (Unmoved.refl _).follows, nofun⟩
  | cons i is ih =>
    obtain ⟨hi, hd⟩ := List.nodup_cons.mp hd
    have hone := renderOne_fate s time i
    cases hf : s.workspace.fate time i with
    | error fault =>
      simp only [hf] at hone
      obtain ⟨w, hw, hu⟩ := hone
      refine ⟨w, ?_, ?_, hu.follows, ?_⟩
      · simp only [Animator.renderAll, Effect.outcome_bind, hw]
      · simpa [framePlan, hf] using hs.alike hu.toAlike
      · simp only [Animator.renderAll, Effect.outcome_bind, hw]
        rintro fault' ⟨⟩
        exact ⟨i, by simp, hf⟩
    | ok let_go =>
      -- Whatever becomes of the first panel, the others have the same fate afterwards.
      obtain ⟨b, v, hv, harr, hfol, hsame⟩ : ∃ b v, (animator.renderOne time i).outcome s =
          (.ok b, { s with workspace := v }) ∧
          v.Arranged (S.restackAll (framePlan (s.workspace.fate time) [i])) ∧
          Follows s.workspace v ∧ ∀ j ∈ is, v.fate time j = s.workspace.fate time j := by
        cases let_go with
        | none =>
          simp only [hf] at hone
          obtain ⟨b, v, hv, hu⟩ := hone
          refine ⟨b, v, hv, ?_, hu.follows, fun j _ => fate_congr hu.toInStep (hu.status j) time⟩
          simpa [framePlan, hf] using hs.alike hu.toAlike
        | some m =>
          simp only [hf] at hone
          obtain ⟨u, v, hv, hu, hr⟩ := hone
          refine ⟨true, v, hv, ?_, hu.follows.trans (.remove hr), fun j hj => ?_⟩
          · simpa [framePlan, hf] using (hs.alike hu.toAlike).of_remove hr
          · have hij : i ≠ j := fun he => hi (he ▸ hj)
            refine fate_congr (hu.toInStep.trans (inStep_remove hr)) ?_ time
            simp [status?_remove hr, hij, hu.status]
      obtain ⟨w, hw, hwa, hwf, hwe⟩ := ih hd { s with workspace := v } harr
      obtain ⟨h₂, h₁⟩ := renderAll_cons is hv
      have hplan : framePlan (v.fate time) is = framePlan (s.workspace.fate time) is :=
        framePlan_congr hsame
      refine ⟨w, h₂.trans hw, ?_, hfol.trans hwf, fun fault he => ?_⟩
      · rw [hplan] at hwa
        cases let_go <;> simpa [framePlan, hf] using hwa
      · obtain ⟨j, hj, hje⟩ := hwe fault (h₁ fault he)
        exact ⟨j, List.mem_cons_of_mem i hj, (hsame j hj).symm.trans hje⟩

theorem frame_plan (s : Stage α β) (time : Int) (hd : s.registry.Nodup)
    (hs : s.workspace.Arranged S) :
    ∃ w r, ((animator.renderFrame time).outcome s).2 = ⟨w, r, s.clock⟩ ∧
      r.Sublist s.registry ∧
      w.Arranged (S.restackAll (framePlan (s.workspace.fate time) s.registry)) ∧
      Follows s.workspace w ∧
      ∀ fault, ((animator.renderFrame time).outcome s).1 = .error fault →
        ∃ i ∈ s.registry, s.workspace.fate time i = .error fault := by
  obtain ⟨w, hw, harr, hfol, herr⟩ := renderAll_plan time hd s hs
  have hreg : (animator (α := α) (β := β)).registry.get s = s.registry := rfl
  simp only [Animator.renderFrame, Effect.outcome_bind, Part.outcome_read, hreg]
  rcases ho : (animator.renderAll time s.registry).outcome s with ⟨fault | ended, t⟩
  · simp only [ho] at hw herr
    refine ⟨w, s.registry, hw, .refl _, harr, hfol, ?_⟩
    rintro fault ⟨⟩
    exact herr _ rfl
  · simp only [ho] at hw herr
    subst hw
    exact ⟨w, _, rfl, List.filter_sublist, harr, hfol, nofun⟩

def isOpen (w : Workspace α β) (i : Nat) : Bool := (w.status? i).any Panel.Status.isOpen

theorem close_at_once (s : Stage α β) (m i : Nat) :
    (close m i false).outcome s =
      ((s.workspace.closeAtOnce m i).1,
        { s with workspace := (s.workspace.closeAtOnce m i).2 }) := by
  simp only [close, Bool.false_eq_true, ↓reduceIte, Effect.outcome_bind, Effect.outcome_change,
    Effect.outcome_ofExcept]

/-- Closing all panels of a list that a manager has drops those that are open. -/
theorem closeAll_plan {is : List Nat} (hd : is.Nodup) (s : Stage α β)
    (hs : s.workspace.Arranged S)
    (hm : ∀ i ∈ is, ∃ q, s.workspace.status? i = some q ∧ q.manager = some m) :
    ∃ w, (is.forM (close m · false)).outcome s = (.ok (), { s with workspace := w }) ∧
      w.Arranged (S.restackAll ((is.filter (isOpen s.workspace)).map (.drop m))) ∧
      Follows s.workspace w := by
  induction is generalizing s S with
  | nil => exact ⟨s.workspace, rfl, hs, (Unmoved.refl _).follows⟩
  | cons i is ih =>
    obtain ⟨hi, hd⟩ := List.nodup_cons.mp hd
    obtain ⟨q, hq, hqm⟩ := hm i (by simp)
    have hcons : (i :: is).forM (close (α := α) (β := β) m · false) =
      (close m i false >>= fun _ => is.forM (close m · false)) := rfl
    simp only [hcons, Effect.outcome_bind, close_at_once]
    cases ho : q.isOpen with
    | false =>
      rw [closeAtOnce_of_not_isOpen fun r hr => by rw [hq] at hr; cases hr; exact ho]
      obtain ⟨w, hw, harr, hfol⟩ := ih hd s hs fun j hj => hm j (List.mem_cons_of_mem i hj)
      refine ⟨w, hw, ?_, hfol⟩
      rwa [List.filter_cons_of_neg (by simp [isOpen, hq, ho])]
    | true =>
      obtain ⟨v, hv, hva, hvf, hvs⟩ := hs.closeAtOnce hq ho hqm
      simp only [hv]
      have hne : ∀ j ∈ is, i ≠ j := fun j hj he => hi (he ▸ hj)
      obtain ⟨w, hw, harr, hfol⟩ := ih hd { s with workspace := v } hva fun j hj => by
        rw [hvs j (hne j hj)]
        exact hm j (List.mem_cons_of_mem i hj)
      have hopen : is.filter (isOpen v) = is.filter (isOpen s.workspace) :=
        List.filter_congr fun j hj => by rw [isOpen, isOpen, hvs j (hne j hj)]
      refine ⟨w, hw, ?_, hvf.trans hfol⟩
      rw [List.filter_cons_of_pos (by simp [isOpen, hq, ho])]
      rwa [hopen] at harr

end PanelScript.Stage

end DebugDesk
