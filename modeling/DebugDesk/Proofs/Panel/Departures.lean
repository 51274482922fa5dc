import DebugDesk.Proofs.Panel.Leaving
import DebugDesk.Proofs.Panel.Waning

/-!
# Departures

What was bound to a panel is released or still bound, whatever happens to the panel. A panel leaves
by being removed, by being closed at once, and when its fading ends.
-/
namespace DebugDesk

namespace Workspace

variable {α β : Type} {w w' : Workspace α β} {S : Stacks} {m i : Nat}

def Gone (w : Workspace α β) (i : Nat) : Prop := ∃ q, w.status? i = some q ∧ q.closed = true

theorem Gone.follow (h : w.Gone i) (hw : Follows w w') : w'.Gone i := by
  obtain ⟨q, hq, hclosed⟩ := h
  obtain ⟨r, hr, hqr⟩ := hw.grows i q hq
  exact ⟨r, hr, hqr.closed hclosed⟩

theorem gone_remove (h : w.remove m i = .ok w') {q : Panel.Status} (hq : w.status? i = some q) :
    w'.Gone i :=
  ⟨q.gone, by rw [status?_remove h, hq, Option.map_some, if_pos rfl], rfl⟩

theorem gone_closeAtOnce (h : w.closeAtOnce m i = (.ok (), w')) {q : Panel.Status}
    (hq : w.status? i = some q) (ho : q.isOpen = true) : w'.Gone i := by
  obtain ⟨v, hv, _, hfollows, _⟩ := beginClose_of_isOpen hq ho
  obtain ⟨r, hr, _⟩ := hfollows.grows i q hq
  simp only [Workspace.closeAtOnce, hv] at h
  split at h
  next hremove =>
    cases h
    exact gone_remove hremove hr
  next => cases h

theorem Follows.finishClosing (h : w.finishClosing i = .ok w') : Follows w w' := by
  unfold Workspace.finishClosing at h
  split at h
  · split at h
    · cases h
      exact (Unmoved.refl w).follows
    · exact .remove h
  · cases h
    exact (Unmoved.refl w).follows

/-- A panel that was to be faded out. -/
structure Fading (w : Workspace α β) (i : Nat) : Prop where
  closing : ∃ c, w.closing? i = some c
  status : ∃ q, w.status? i = some q

theorem Fading.follow (h : w.Fading i) (hw : Follows w w') : w'.Fading i := by
  obtain ⟨q, hq⟩ := h.status
  obtain ⟨r, hr, _⟩ := hw.grows i q hq
  refine ⟨?_, r, hr⟩
  rw [Workspace.closing?, hw.closings]
  exact h.closing

/-- A panel that has faded out is gone, even if it was removed meanwhile. -/
theorem gone_finishClosing (h : w.finishClosing i = .ok w') (hi : w.Fading i) : w'.Gone i := by
  obtain ⟨c, hc⟩ := hi.closing
  obtain ⟨q, hq⟩ := hi.status
  rw [PanelScript.Stage.finishClosing_eq, hc, hq] at h
  dsimp only at h
  split at h
  next hclosed =>
    cases h
    exact ⟨q, hq, hclosed⟩
  next => exact gone_remove h hq

theorem inStep_beginClose (w : Workspace α β) (i : Nat) : InStep w (w.beginClose i).2 := by
  unfold Workspace.beginClose
  split
  · exact .refl w
  · split
    · exact .refl w
    · exact (inStep_modifyPanel w i _).trans (inStep_signalling _ i _)

def fadings (w : Workspace α β) : List Nat := w.closings.map Closing.panel

theorem fading_of_mem (hi : i ∈ w.fadings) {q : Panel.Status} (hq : w.status? i = some q) :
    w.Fading i := by
  have hsome : (w.closing? i).isSome := by simpa [Workspace.closing?, fadings] using hi
  exact ⟨Option.isSome_iff_exists.mp hsome, q, hq⟩

theorem fadings_prepared (w : Workspace α β) (m i : Nat) (now : Int) :
    ((w.prepareClosing m i).restartClosing i now).fadings = w.fadings ++ [i] := by
  have hpanel (c : Closing) :
      (if c.panel = i then { c with start := now } else c).panel = c.panel := by
    split <;> rfl
  simp [fadings, restartClosing, prepareClosing, Function.comp_def, hpanel]

theorem restackAll_drop (S : Stacks) (m : Nat) (is : List Nat) :
    S.restackAll (is.map (.drop m)) m = (S m).diff is := by
  induction is generalizing S with
  | nil => rfl
  | cons i is ih =>
    rw [List.map_cons, Stacks.restackAll_cons, ih, List.diff_cons]
    simp [Stacks.restack]

theorem Arranged.manager_lt (h : w.Arranged S) {p : Panel α β} (hp : w.panel? i = some p)
    (hm : p.manager = some m) : m < w.managers.length := by
  by_contra hnot
  have hmem : i ∈ w.members m := (h m).perm.subset ((h.mem_iff hp).mpr hm)
  rw [members, List.getElem?_eq_none (Nat.not_lt.mp hnot)] at hmem
  cases hmem

theorem Follows.closingFrame [Scalar α] {time : Int} {action : FrameAction}
    (h : w.closingFrame i time = .ok (action, w')) : Follows w w' := by
  unfold Workspace.closingFrame at h
  split at h
  next c p _ hp =>
    obtain ⟨stages, _, h⟩ := Effect.bind_eq_ok h
    cases h
    exact (PanelScript.Stage.unmoved_fade w hp stages).follows
  · cases h
    exact (Unmoved.refl w).follows

theorem closingFrame_ne_drop [Scalar α] (w w' : Workspace α β) (i : Nat) (time : Int) :
    w.closingFrame i time ≠ .ok (.drop, w') := by
  intro h
  unfold Workspace.closingFrame at h
  split at h
  next c p _ hp =>
    obtain ⟨stages, _, h⟩ := Effect.bind_eq_ok h
    have haction : (if (p.fade stages).1 then FrameAction.finish else .keep) = .drop :=
      congrArg Prod.fst (Except.ok.inj h)
    split at haction <;> cases haction
  · cases h

end Workspace

namespace PanelScript.Stage

open Workspace hiding bind

variable {α β : Type} [Scalar α] {s t : Stage α β} {w : Workspace α β} {m i : Nat}
  {p : Panel α β}

omit [Scalar α] in
theorem stilled_beginClose {w : Workspace α β} (hp : w.panel? i = some p) (hopen : p.closed = false)
    (hidle : p.closing = true → p.gesture = none) :
    ∃ q, (w.beginClose i).2.panel? i = some q ∧ q.closing = true ∧ q.gesture = none ∧
      q.stance = p.stance := by
  cases hclosing : p.closing with
  | true =>
    refine ⟨p, ?_, hclosing, hidle hclosing, rfl⟩
    simp only [beginClose, hp, hclosing, Bool.true_or, ↓reduceIte]
  | false =>
    have hmild := Panel.mild_cancelGesture { p with closing := true }
    refine ⟨({ p with closing := true } : Panel α β).cancelGesture.1, ?_,
      hmild.calms.closing rfl, Panel.gesture_cancelGesture _, Panel.stance_cancelGesture _⟩
    have hneither : (p.closing || p.closed) = false := by rw [hclosing, hopen]; rfl
    simp only [beginClose, hp, hneither, Bool.false_eq_true, ↓reduceIte]
    rw [signalling_modifyPanel, panel?_signalling, hp, Option.map_some, if_pos rfl]

/-- Whoever closes a panel stills it. -/
theorem stilled_close (hm : m < s.workspace.managers.length) (animate : Bool)
    (hp : s.workspace.panel? i = some p) (hopen : p.closed = false)
    (hidle : p.closing = true → p.gesture = none) :
    ∃ q, (s.act (.command (.close m i animate))).workspace.panel? i = some q ∧
      q.closing = true ∧ q.gesture = none ∧ q.stance = p.stance := by
  obtain ⟨r, hr, hrc, hrg, hrs⟩ := stilled_beginClose hp hopen hidle
  cases animate with
  | false =>
    have hact := congrArg Prod.snd (step_close s m i)
    rw [if_pos hm] at hact
    have hspace : (s.act (.command (.close m i false))).workspace =
      (s.workspace.closeAtOnce m i).2 := congrArg Stage.workspace hact
    -- The removal finds the panel closing and without a gesture, and leaves it so.
    obtain ⟨q, _, hq, _, hrq⟩ := (Workspace.Fares.closeAtOnce s.workspace m i).panels i r hr
    have hcalms := hrq.calms
    exact ⟨q, hspace ▸ hq, hcalms.closing hrc, hcalms.idle (fun _ => hrg) (hcalms.closing hrc),
      (hcalms.still hrc hrg).trans hrs⟩
  | true =>
    have hact := congrArg Prod.snd (step_fading s m i)
    rw [if_pos hm] at hact
    refine ⟨r, ?_, hrc, hrg, hrs⟩
    have hspace : (s.act (.command (.close m i true))).workspace.panel? i =
        (s.workspace.beginClose i).2.panel? i := by
      rcases hbegin : s.workspace.beginClose i with ⟨_ | _, v⟩
      · rw [hbegin] at hact
        exact congrArg (fun t : Stage α β => t.workspace.panel? i) hact
      · rw [hbegin] at hact
        exact congrArg (fun t : Stage α β => t.workspace.panel? i) hact
    exact hspace.trans hr

/-- How a frame or a clearing changes a stage, apart from which panels fade out. -/
structure Withers (s t : Stage α β) : Prop where
  wanes : Workspace.Wanes s.workspace t.workspace
  follows : Workspace.Follows s.workspace t.workspace
  registry : t.registry = s.registry

instance : IsPreorder (Stage α β) Withers where
  refl _ := ⟨.refl _, (Unmoved.refl _).follows, rfl⟩
  trans _ _ _ h h' :=
    ⟨h.wanes.trans h'.wanes, h.follows.trans h'.follows, h'.registry.trans h.registry⟩

theorem withers_render (i : Nat) (time : Int) :
    ((animator (α := α) (β := β)).render i time).Respects Withers := by
  intro s
  change Withers s ((Effect.step _).outcome s).2
  rw [Effect.outcome_step]
  rcases hf : s.workspace.closingFrame i time with fault | ⟨action, w⟩
  · exact refl_of Withers s
  · exact ⟨.closingFrame hf, .closingFrame hf, rfl⟩

theorem withers_finish (i : Nat) : ((animator (α := α) (β := β)).finish i).Respects Withers := by
  intro s
  change Withers s ((Effect.step _).outcome s).2
  rw [Effect.outcome_step]
  rcases hf : s.workspace.finishClosing i with fault | w
  · exact refl_of Withers s
  · exact ⟨.finishClosing hf, .finishClosing hf, rfl⟩

theorem withers_renderOne (time : Int) (i : Nat) :
    ((animator (α := α) (β := β)).renderOne time i).Respects Withers :=
  Animator.renderOne_respects withers_render withers_finish time i

theorem gone_renderOne {time : Int} (h : (animator.renderOne time i).outcome s = (.ok true, t))
    (hi : s.workspace.Fading i) : t.workspace.Gone i := by
  rw [renderOne_outcome] at h
  rcases hf : s.workspace.closingFrame i time with fault | ⟨action, w⟩
  · rw [hf] at h
    cases h
  · rw [hf] at h
    have hfades := hi.follow (.closingFrame hf)
    cases action with
    | keep => cases h
    | unknown word => cases h
    | finish =>
      dsimp only at h
      rcases hfinish : w.finishClosing i with fault | v
      · rw [hfinish] at h
        cases h
      · rw [hfinish] at h
        cases h
        exact gone_finishClosing hfinish hfades
    | drop => exact absurd hf (closingFrame_ne_drop _ _ _ _)

theorem gone_renderAll {time : Int} {is ended : List Nat}
    (h : (animator.renderAll time is).outcome s = (.ok ended, t)) (hended : i ∈ ended)
    (hi : s.workspace.Fading i) : t.workspace.Gone i := by
  induction is generalizing s t ended with
  | nil =>
    cases h
    cases hended
  | cons j is ih =>
    obtain ⟨ends, u, hone, hrest⟩ := Effect.of_bind_ok h
    have hfades := hi.follow ((withers_renderOne time j).of_outcome hone).follows
    cases ends with
    | false => exact ih hrest hended hfades
    | true =>
      obtain ⟨rest, v, hall, hpure⟩ := Effect.of_bind_ok hrest
      cases hpure
      rcases List.mem_cons.mp hended with rfl | hended
      -- The frames of the others come after it is gone, and bring nothing back.
      · have hafter := (Animator.renderAll_respects withers_renderOne time is).of_outcome hall
        exact (gone_renderOne hone hi).follow hafter.follows
      · exact ih hall hended hfades

theorem gone_finish (h : (animator.finish i).outcome s = (.ok (), t))
    (hi : s.workspace.Fading i) : t.workspace.Gone i := by
  change (Effect.step _).outcome s = _ at h
  rw [Effect.outcome_step] at h
  rcases hfinish : s.workspace.finishClosing i with fault | w
  · rw [hfinish] at h
    cases h
  · rw [hfinish] at h
    cases h
    exact gone_finishClosing hfinish hi

theorem gone_finishAll {is : List Nat}
    (h : (is.forM (animator (α := α) (β := β)).finish).outcome s = (.ok (), t)) (hmem : i ∈ is)
    (hi : s.workspace.Fading i) : t.workspace.Gone i := by
  induction is generalizing s with
  | nil => cases hmem
  | cons j is ih =>
    rw [Effect.forM_cons] at h
    obtain ⟨_, u, hone, hrest⟩ := Effect.of_bind_ok h
    rcases List.mem_cons.mp hmem with rfl | hmem
    · have hafter := (Effect.Respects.forM is fun j _ => withers_finish j).of_outcome hrest
      exact (gone_finish hone hi).follow hafter.follows
    · exact ih hrest hmem (hi.follow ((withers_finish j).of_outcome hone).follows)

/-- What fades out stays registered until the registry is changed at the end. -/
theorem gone_update {γ : Type} {e : Effect (Stage α β) γ} {f : γ → List Nat → List Nat}
    (he : e.Respects Withers) (hmem : i ∈ s.registry)
    (hout : i ∉ ((e >>= fun b => animator.registry.update (f b)).outcome s).2.registry)
    (hgone : ∀ b t, e.outcome s = (.ok b, t) → i ∉ f b s.registry → t.workspace.Gone i) :
    ((e >>= fun b => animator.registry.update (f b)).outcome s).2.workspace.Gone i := by
  rcases h : e.outcome s with ⟨fault | b, t⟩
  · rw [Effect.outcome_bind_error h] at hout
    exact absurd ((he.of_outcome h).registry ▸ hmem) hout
  · rw [Effect.outcome_bind_ok h, Part.outcome_update] at hout ⊢
    have hregistry : t.registry = s.registry := (he.of_outcome h).registry
    exact hgone b t h (hregistry ▸ hout)

theorem outcome_registry (s : Stage α β) :
    (animator (α := α) (β := β)).registry.read.outcome s = (.ok s.registry, s) := rfl

theorem gone_frame {time : Int} (hmem : i ∈ s.registry)
    (hout : i ∉ ((animator.renderFrame time).outcome s).2.registry) (hi : s.workspace.Fading i) :
    ((animator.renderFrame time).outcome s).2.workspace.Gone i := by
  rw [Animator.renderFrame, Effect.outcome_bind_ok (outcome_registry s)] at hout ⊢
  refine gone_update (Animator.renderAll_respects withers_renderOne time _) hmem hout ?_
  intro ended t hall hnot
  have hended : i ∈ ended := by
    by_contra hin
    exact hnot (List.mem_filter.mpr ⟨hmem, by simpa using hin⟩)
  exact gone_renderAll hall hended hi

theorem gone_clear (hmem : i ∈ s.registry)
    (hout : i ∉ ((animator.clear).outcome s).2.registry) (hi : s.workspace.Fading i) :
    ((animator.clear).outcome s).2.workspace.Gone i := by
  rw [Animator.clear, Effect.outcome_bind_ok (outcome_registry s)] at hout ⊢
  refine gone_update (.forM _ fun j _ => withers_finish j) hmem hout ?_
  intro _ t hall _
  exact gone_finishAll hall hmem hi

/-- Panels stand in order, and what fades out was told to. -/
structure Orderly (s : Stage α β) : Prop where
  sound : ∃ S, s.Sound S
  fading : s.registry ⊆ s.workspace.fadings

theorem Orderly.closing (h : s.Orderly) (m i : Nat) :
    (s.step (.close m i true)).2.registry ⊆ (s.step (.close m i true)).2.workspace.fadings := by
  have hbegin : (s.workspace.beginClose i).2.fadings = s.workspace.fadings := by
    rw [fadings, (inStep_beginClose s.workspace i).closings, fadings]
  rw [step_fading]
  split
  · rcases hv : s.workspace.beginClose i with ⟨_ | _, v⟩
    · rw [hv] at hbegin
      exact hbegin ▸ h.fading
    · rw [hv] at hbegin
      dsimp only at hbegin ⊢
      rw [fadings_prepared, hbegin]
      exact List.append_subset.mpr ⟨List.subset_append_of_subset_left _ h.fading,
        List.subset_append_right _ _⟩
  · exact h.fading

omit [Scalar α] in
theorem Orderly.wither (h : s.Orderly) (ht : s.Withers t) {r : List Nat}
    (hr : r.Sublist s.registry) : Orderly ⟨t.workspace, r, t.clock⟩ := by
  obtain ⟨S, hS⟩ := h.sound
  obtain ⟨S', hS'⟩ := ht.wanes.arranged ⟨S, hS.arranged⟩
  have hfadings : t.workspace.fadings = s.workspace.fadings := by
    rw [fadings, ht.follows.closings, fadings]
  exact ⟨⟨S', hS.follow hS' ht.follows hr t.clock⟩, hfadings ▸ List.Subset.trans hr.subset h.fading⟩

theorem Orderly.clear (h : s.Orderly) : (s.act .clear).Orderly := by
  have hact : s.act .clear = ((animator (α := α) (β := β)).clear.outcome s).2 := rfl
  have hfinish := Effect.Respects.forM s.registry fun j _ => withers_finish (α := α) (β := β) j
  rw [Animator.clear, Effect.outcome_bind_ok (outcome_registry s)] at hact
  rcases hall : (s.registry.forM (animator (α := α) (β := β)).finish).outcome s
    with ⟨fault | _, t⟩
  · rw [Effect.outcome_bind_error hall] at hact
    have ht := hfinish.of_outcome hall
    exact hact ▸ h.wither ht (r := t.registry) (ht.registry ▸ List.Sublist.refl _)
  · rw [Effect.outcome_bind_ok hall] at hact
    exact hact ▸ h.wither (hfinish.of_outcome hall) (List.nil_sublist _)

theorem Orderly.act (h : s.Orderly) (x : Action α β) : (s.act x).Orderly := by
  obtain ⟨S, hS⟩ := h.sound
  cases x with
  | command c =>
    refine ⟨⟨_, hS.step c⟩, ?_⟩
    by_cases hc : ∃ m i, c = .close m i true
    · obtain ⟨m, i, rfl⟩ := hc
      exact h.closing m i
    · have hadvances := hS.advances c fun m i he => hc ⟨m, i, he⟩
      have hfadings : (s.step c).2.workspace.fadings = s.workspace.fadings := by
        rw [fadings, hadvances.follows.closings, fadings]
      exact hfadings ▸ List.Subset.trans hadvances.registry.subset h.fading
  | clear => exact h.clear

theorem Orderly.acts (h : s.Orderly) (xs : List (Action α β)) : (s.acts xs).Orderly := by
  induction xs generalizing s with
  | nil => exact h
  | cons x xs ih => exact ih (h.act x)

omit [Scalar α] in
theorem orderly_start (settings : List (α × α)) : (start settings : Stage α β).Orderly :=
  ⟨⟨_, sound_start settings⟩, List.nil_subset _⟩

theorem registry_clear (h : (animator.clear.outcome s).1 = .ok ()) :
    (s.act .clear).registry = [] := by
  have hact : s.act .clear = ((animator (α := α) (β := β)).clear.outcome s).2 := rfl
  rw [Animator.clear, Effect.outcome_bind_ok (outcome_registry s)] at hact h
  rcases hall : (s.registry.forM (animator (α := α) (β := β)).finish).outcome s
    with ⟨fault | _, t⟩
  · rw [Effect.outcome_bind_error hall] at h
    cases h
  · rw [Effect.outcome_bind_ok hall] at hact
    exact congrArg Stage.registry hact

omit [Scalar α] in
theorem registry_trying (s : Stage α β) (m : Nat)
    (f : Workspace α β → Except Fault (Workspace α β)) :
    ((do needManager m; trying f : Effect (Stage α β) Answer).outcome s).2.registry =
      s.registry := by
  rw [outcome_trying]
  repeat' split
  all_goals rfl

omit [Scalar α] in
theorem registry_asking (s : Stage α β) (f : Workspace α β → Except Fault (Bool × Workspace α β)) :
    ((asking f).outcome s).2.registry = s.registry := by
  rw [outcome_asking]
  split <;> rfl

theorem registry_closeAll (s : Stage α β) (m : Nat) (is : List Nat) :
    ((is.forM (close (α := α) (β := β) m · false)).outcome s).2.registry = s.registry := by
  induction is generalizing s with
  | nil => rfl
  | cons j is ih =>
    rw [Effect.forM_cons, Effect.outcome_bind, close_at_once]
    cases (s.workspace.closeAtOnce m j).1 with
    | error fault => rfl
    | ok _ => exact ih _

/-- Only frames end a fading. -/
theorem mem_registry_step {c : Command α β} (hc : ∀ time, c ≠ .frame time)
    (hi : i ∈ s.registry) : i ∈ (s.step c).2.registry := by
  cases c with
  | frame time => exact absurd rfl (hc time)
  | add m j => exact (registry_trying s m _).symm ▸ hi
  | focus m j => exact (registry_trying s m _).symm ▸ hi
  | remove m j => exact (registry_trying s m _).symm ▸ hi
  | close m j animate =>
    cases animate with
    | false =>
      rw [step_close]
      split <;> exact hi
    | true =>
      rw [step_fading]
      repeat' split
      · exact List.mem_append_left _ hi
      · exact hi
      · exact hi
  | closeAll m =>
    have hget : (get : Effect (Stage α β) (Stage α β)).outcome s = (.ok s, s) := rfl
    rw [step, perform, Effect.outcome_bind_ok hget, Effect.outcome_bind_pure, registry_closeAll]
    exact hi
  | toggle j => exact (registry_asking s _).symm ▸ hi
  | moveTo j pointer => exact (registry_asking s _).symm ▸ hi
  | beginResize j pointer => exact (registry_asking s _).symm ▸ hi
  | resizeTo j pointer => exact (registry_asking s _).symm ▸ hi
  | _ => exact hi

/-- A manager that closes all its panels lets those go that do not close yet. -/
theorem gone_closeAll {S : Stacks} (hS : s.workspace.Arranged S) {q : Panel.Status}
    (hq : s.workspace.status? i = some q) (hm : q.manager = some m) (ho : q.isOpen = true) :
    (s.act (.command (.closeAll m))).workspace.Gone i := by
  obtain ⟨hok, hadvances⟩ := step_closeAll hS m
  obtain ⟨r, hr, hgrows⟩ := hadvances.follows.grows i q hq
  rcases hgrows.manager m hm with hclosed | hmanager
  · exact ⟨r, hr, hclosed⟩
  obtain ⟨p, hp, hpm, _⟩ := status?_eq_some hq
  have hstack : i ∈ S m := (hS.mem_iff hp).mpr (hpm.trans hm)
  have hdropped : i ∈ (s.workspace.members m).filter (isOpen s.workspace) := by
    refine List.mem_filter.mpr ⟨(hS m).perm.subset hstack, ?_⟩
    rw [isOpen, hq, Option.any_some, ho]
  -- With the same manager it would be in the stack still, but it was dropped from there.
  obtain ⟨p', hp', hpm', _⟩ := status?_eq_some hr
  have hleft := (hadvances.arranged.mem_iff hp').mpr (hpm'.trans hmanager)
  rw [restackings, restackAll_drop, (hS m).nodup.mem_sdiff_iff] at hleft
  exact absurd hdropped hleft.2

/-- How a panel leaves: a manager that has it removes it, or closes it at once, alone or with all
others, or closes it and then fades it out, until a frame or a clearing ends that. -/
structure Leaves (s : Stage α β) (i : Nat) (p : Panel α β) : Prop where
  removed : ∀ m, p.manager = some m → (s.act (.command (.remove m i))).workspace.Gone i
  closed : ∀ m, p.manager = some m → p.closing = false →
    (s.act (.command (.close m i false))).workspace.Gone i
  closedAll : ∀ m, p.manager = some m → p.closing = false →
    (s.act (.command (.closeAll m))).workspace.Gone i
  fading : ∀ m, p.manager = some m → p.closing = false →
    i ∈ (s.act (.command (.close m i true))).registry
  faded : ∀ x, i ∈ s.registry → i ∉ (s.act x).registry → (s.act x).workspace.Gone i
  cleared : i ∈ s.registry → (animator.clear.outcome s).1 = .ok () →
    (s.act .clear).workspace.Gone i

/-- Whatever is done, a panel that does not fade out any more after it is gone. -/
theorem gone_act (h : s.Orderly) (x : Action α β) (hmem : i ∈ s.registry)
    (hout : i ∉ (s.act x).registry) {q : Panel.Status} (hq : s.workspace.status? i = some q) :
    (s.act x).workspace.Gone i := by
  have hi := fading_of_mem (h.fading hmem) hq
  cases x with
  | clear => exact gone_clear hmem hout hi
  | command c =>
    by_cases hframe : ∃ time, c = .frame time
    · obtain ⟨time, rfl⟩ := hframe
      have hact : s.act (.command (.frame time)) =
          ((animator.renderFrame (time.getD s.clock)).outcome s).2 :=
        congrArg Prod.snd (step_frame s time)
      rw [hact] at hout ⊢
      exact gone_frame hmem hout hi
    · exact absurd (mem_registry_step (fun time he => hframe ⟨time, he⟩) hmem) hout

theorem Orderly.leaves (h : s.Orderly) (hp : s.workspace.panel? i = some p)
    (hmanaged : p.manager.isSome = true → p.closed = false) : s.Leaves i p := by
  obtain ⟨S, hS⟩ := h.sound
  have hq : s.workspace.status? i = some p.status := by rw [status?, hp, Option.map_some]
  have hopen {m : Nat} (hm : p.manager = some m) (hc : p.closing = false) :
      p.status.isOpen = true := by
    have hclosed : p.closed = false := hmanaged (by rw [hm]; rfl)
    simp [Panel.Status.isOpen, Panel.status, hc, hclosed]
  refine ⟨fun m hm => ?_, fun m hm hc => ?_, fun m hm hc => ?_, fun m hm hc => ?_,
    fun x hi hout => ?_, fun hi hok => ?_⟩
  · have hlt := hS.arranged.manager_lt hp hm
    obtain ⟨w, hw, _⟩ := hS.arranged.remove hp hm
    have hact := congrArg Prod.snd (outcome_trying s m (·.remove m i))
    rw [if_pos hlt, hw] at hact
    have hspace : (s.act (.command (.remove m i))).workspace = w := congrArg Stage.workspace hact
    exact hspace ▸ gone_remove hw hq
  · have hlt := hS.arranged.manager_lt hp hm
    obtain ⟨w, hw, _⟩ := hS.arranged.closeAtOnce hq (hopen hm hc) hm
    have hact := congrArg Prod.snd (step_close s m i)
    rw [if_pos hlt, hw] at hact
    have hspace : (s.act (.command (.close m i false))).workspace = w :=
      congrArg Stage.workspace hact
    exact hspace ▸ gone_closeAtOnce hw hq (hopen hm hc)
  · exact gone_closeAll hS.arranged hq hm (hopen hm hc)
  · have hlt := hS.arranged.manager_lt hp hm
    obtain ⟨v, hv, _⟩ := beginClose_of_isOpen hq (hopen hm hc)
    have hact := congrArg Prod.snd (step_fading s m i)
    rw [if_pos hlt, hv] at hact
    have hregistry : (s.act (.command (.close m i true))).registry = s.registry ++ [i] :=
      congrArg Stage.registry hact
    rw [hregistry]
    exact List.mem_append_right _ (List.mem_singleton.mpr rfl)
  · exact gone_act h x hi hout hq
  · refine gone_act h .clear hi ?_ hq
    rw [registry_clear hok]
    exact List.not_mem_nil

/-- Whatever follows, a panel stays where it is and is not dragged. -/
def Lies (s : Stage α β) (i : Nat) (p : Panel α β) : Prop :=
  ∀ ys, ∃ q, (s.acts ys).workspace.panel? i = some q ∧ q.gesture = none ∧ q.stance = p.stance

theorem lies_of_closing (hp : s.workspace.panel? i = some p) (hclosing : p.closing = true)
    (hgesture : p.gesture = none) : s.Lies i p := by
  intro ys
  obtain ⟨q, hq, hcalms⟩ := calms_acts s ys hp
  exact ⟨q, hq, hcalms.idle (fun _ => hgesture) (hcalms.closing hclosing),
    hcalms.still hclosing hgesture⟩

/-- A panel that closes lies still for ever, and whoever closes a managed panel makes it do so. A
panel is told that it is gone once, when it leaves its manager, and what was bound to it by then is
released then, in order, unless that was asked before. -/
theorem acts_part_once (settings : List (α × α)) {xs : List (Action α β)}
    (hxs : (start settings).Lasting xs) (i : Nat) (p : Panel α β)
    (hp : ((start settings).acts xs).workspace.panel? i = some p) :
    (p.closing = true → ((start settings).acts xs).Lies i p) ∧
    (∀ m animate, m < ((start settings).acts xs).workspace.managers.length →
      p.manager.isSome = true →
      (((start settings).acts xs).act (.command (.close m i animate))).Lies i p) ∧
    ((start settings).acts xs).Accounts i p ((start settings).boundDuring i xs)
      (∀ x ∈ xs, x ≠ .command (.releaseBindings i)) ∧
    (∀ x, ((start settings).acts xs).Through x i p) ∧ ((start settings).acts xs).Leaves i p := by
  have haccounts := accounted_acts settings hxs hp
  have horderly := (orderly_start settings).acts xs
  refine ⟨fun hclosing => lies_of_closing hp hclosing (haccounts.idle hclosing),
    fun m animate hm hmanaged => ?_, haccounts, fun x => through _ x hp,
    horderly.leaves hp haccounts.managed⟩
  obtain ⟨r, hr, hclosing, hgesture, hstance⟩ :=
    stilled_close hm animate hp (haccounts.managed hmanaged) haccounts.idle
  have hlies := lies_of_closing hr hclosing hgesture
  rw [Lies, hstance] at hlies
  exact hlies

/-- A panel is dragged and fades out, and is removed before it has faded. Another one is dragged. -/
def dragged : List (Action Float String) :=
  [.command (.create "a" 0.0 0.0 400.0 300.0 true 20.0 100.0 60.0),
    .command (.create "b" 40.0 40.0 400.0 300.0 true 20.0 100.0 60.0), .command (.add 0 0),
    .command (.add 0 1), .command (.bind 0 "keys"), .command (.bind 0 "wheel"),
    .command (.beginMove 0 ⟨10.0, 10.0⟩), .command (.close 0 0 true), .command (.remove 0 0),
    .clear, .command (.beginMove 1 ⟨50.0, 50.0⟩)]

theorem lasting_dragged : (start [(20.0, 0.5)]).Lasting dragged := by
  refine ⟨id, id, ?_, ?_, id, id, id, id, id, id, id, trivial⟩
  all_goals
    rintro ⟨p, hp, hclosed⟩
    cases hp
    cases hclosed

theorem dragged_part_once :
    ((start [(20.0, 0.5)]).acts dragged).workspace.partings 0 =
        [.destroyed, .released "keys", .released "wheel"] ∧
      PartsOnce true (((start [(20.0, 0.5)]).acts dragged).workspace.partings 0) ∧
      ∀ ys, ∃ q, ((((start [(20.0, 0.5)]).acts dragged).act (.command (.close 0 1 true))).acts
        ys).workspace.panel? 1 = some q ∧ q.gesture = none ∧
          q.stance = ⟨40.0, 40.0, 400.0, 300.0, true⟩ := by
  obtain ⟨_, _, hgone, _⟩ :=
    acts_part_once [((20.0 : Float), (0.5 : Float))] lasting_dragged 0 _ rfl
  obtain ⟨_, hstill, _⟩ :=
    acts_part_once [((20.0 : Float), (0.5 : Float))] lasting_dragged 1 _ rfl
  refine ⟨rfl, hgone.plain ?_, hstill 0 true (by decide) rfl⟩
  simp [dragged]

/-- Callbacks of a panel are released before it leaves, as that was asked. -/
theorem released_before_leaving :
    let xs : List (Action Float String) :=
      [.command (.create "a" 0.0 0.0 400.0 300.0 true 20.0 100.0 60.0), .command (.add 0 0),
        .command (.bind 0 "keys"), .command (.releaseBindings 0)]
    (start [(20.0, 0.5)]).Lasting xs ∧
      ∃ p, ((start [(20.0, 0.5)]).acts xs).workspace.panel? 0 = some p ∧ p.manager = some 0 ∧
        p.closed = false ∧
        ((start [(20.0, 0.5)]).acts xs).workspace.partings 0 = [.released "keys"] := by
  refine ⟨⟨id, ?_, id, id, trivial⟩, _, rfl, rfl, rfl, rfl⟩
  rintro ⟨p, hp, hclosed⟩
  cases hp
  cases hclosed

end PanelScript.Stage

end DebugDesk
