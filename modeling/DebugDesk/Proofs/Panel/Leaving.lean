import DebugDesk.Proofs.Effect.Respecting
import DebugDesk.Proofs.Panel.Partings
import DebugDesk.Proofs.Panel.StackRuns

/-!
# Panels that leave

A panel leaves its manager once, along whatever way, as long as it is not added again. Then its
content is told that it is gone, and what is bound to it is released. From when it begins to close
it lies still.
-/
namespace DebugDesk

namespace Panel

variable {α β : Type} [Scalar α]

def IsNew (p : Panel α β) : Prop :=
  ∃ title x y width height expanded headerHeight minWidth minHeight,
    p = .make title x y width height expanded headerHeight minWidth minHeight

theorem IsNew.unmanaged {p : Panel α β} (h : p.IsNew) :
    p.tenure = ⟨none, false, []⟩ ∧ p.closing = false := by
  obtain ⟨_, _, _, _, _, _, _, _, _, rfl⟩ := h
  exact ⟨rfl, rfl⟩

end Panel

namespace PanelScript

inductive Action (α β : Type) where
  | command (c : Command α β)
  | clear

def Action.bound {α β : Type} (i : Nat) : Action α β → List β
  | command (.bind j binding) => if j = i then [binding] else []
  | _ => []

namespace Stage

open Workspace hiding bind

variable {α β : Type} [Scalar α] {s t : Stage α β} {w w' : Workspace α β} {m i : Nat}
  {p q : Panel α β}

def act (s : Stage α β) : Action α β → Stage α β
  | .command c => (s.step c).2
  | .clear => (animator.clear.outcome s).2

def acts (s : Stage α β) (xs : List (Action α β)) : Stage α β := xs.foldl act s

theorem acts_append (s : Stage α β) (xs ys : List (Action α β)) :
    s.acts (xs ++ ys) = (s.acts xs).acts ys := List.foldl_append

theorem acts_concat (s : Stage α β) (xs : List (Action α β)) (x : Action α β) :
    s.acts (xs ++ [x]) = (s.acts xs).act x := s.acts_append xs [x]

/-- Whether an action adds a panel that was removed. -/
def Returns (s : Stage α β) : Action α β → Prop
  | .command (.add _ i) => ∃ p, s.workspace.panel? i = some p ∧ p.closed = true
  | _ => False

/-- No panel that was removed is added again. -/
def Lasting (s : Stage α β) : List (Action α β) → Prop
  | [] => True
  | x :: xs => ¬ s.Returns x ∧ (s.act x).Lasting xs

def boundDuring (i : Nat) (s : Stage α β) : List (Action α β) → List β
  | [] => []
  | x :: xs =>
    (if (s.workspace.panel? i).isSome then x.bound i else []) ++ (s.act x).boundDuring i xs

section Along

variable {R : Workspace α β → Workspace α β → Prop}

omit [Scalar α] in
def Along (R : Workspace α β → Workspace α β → Prop) (s t : Stage α β) : Prop :=
  R s.workspace t.workspace

instance [IsPreorder (Workspace α β) R] : IsPreorder (Stage α β) (Along R) where
  refl s := refl_of R s.workspace
  trans _ _ _ := trans_of R

omit [Scalar α] in
theorem along_change {f : Workspace α β → Workspace α β} (hf : ∀ w, R w (f w)) :
    (change f).Respects (Along R) := fun s => hf s.workspace

/-- What a relation has to bear for closing and fading to go along with it. -/
structure Bears (R : Workspace α β → Workspace α β → Prop) : Prop where
  remove : ∀ {w w' : Workspace α β} {m i : Nat}, w.remove m i = .ok w' → R w w'
  beginClose : ∀ (w : Workspace α β) (i : Nat), R w (w.beginClose i).2
  closingFrame : ∀ {w w' : Workspace α β} {i : Nat} {time : Int} {action : FrameAction},
    w.closingFrame i time = .ok (action, w') → R w w'
  closings : ∀ (w : Workspace α β) (closings : List Closing), R w { w with closings }

variable [IsPreorder (Workspace α β) R]

omit [Scalar α] in
theorem along_step {γ : Type} {f : Stage α β → Except Fault (γ × Stage α β)}
    (hf : ∀ s b t, f s = .ok (b, t) → Along R s t) : (Effect.step f).Respects (Along R) := by
  intro s
  rw [Effect.outcome_step]
  rcases h : f s with fault | ⟨b, t⟩
  · exact refl_of (Along R) s
  · exact hf s b t h

omit [Scalar α] in
theorem along_trying {f : Workspace α β → Except Fault (Workspace α β)}
    (hf : ∀ w w', f w = .ok w' → R w w') : (trying f).Respects (Along R) := by
  refine along_step fun s b t h => ?_
  obtain ⟨w, hw, h⟩ := Effect.bind_eq_ok h
  cases h
  exact hf _ _ hw

omit [Scalar α] in
theorem along_asking {f : Workspace α β → Except Fault (Bool × Workspace α β)}
    (hf : ∀ w b w', f w = .ok (b, w') → R w w') : (asking f).Respects (Along R) := by
  refine along_step fun s b t h => ?_
  obtain ⟨r, hr, h⟩ := Effect.bind_eq_ok h
  cases h
  exact hf _ _ _ hr

omit [Scalar α] in
theorem along_needManager (m : Nat) : (needManager (α := α) (β := β) m).Respects (Along R) := by
  intro s
  rw [outcome_needManager]
  split <;> exact refl_of (Along R) s

omit [IsPreorder (Workspace α β) R] in
theorem Bears.space (hR : Bears R) {f : Workspace α β → Workspace α β}
    (hf : ∀ w, ∃ closings, f w = { w with closings }) :
    (space.update f).Respects (Along R) := by
  intro s
  obtain ⟨closings, h⟩ := hf s.workspace
  have hclosings := hR.closings s.workspace closings
  rwa [← h] at hclosings

theorem Bears.render (hR : Bears R) (i : Nat) (time : Int) :
    ((animator (α := α) (β := β)).render i time).Respects (Along R) := by
  refine along_step fun s b t h => ?_
  obtain ⟨r, hr, h⟩ := Effect.bind_eq_ok h
  cases h
  exact hR.closingFrame hr

theorem Bears.finish (hR : Bears R) (i : Nat) :
    ((animator (α := α) (β := β)).finish i).Respects (Along R) := by
  refine along_step fun s b t h => ?_
  obtain ⟨w, hw, h⟩ := Effect.bind_eq_ok h
  cases h
  unfold Workspace.finishClosing at hw
  split at hw
  · split at hw
    · cases hw
      exact refl_of R s.workspace
    · exact hR.remove hw
  · cases hw
    exact refl_of R s.workspace

theorem along_registry (f : List Nat → List Nat) :
    ((animator (α := α) (β := β)).registry.update f).Respects (Along R) :=
  fun s => refl_of R s.workspace

theorem Bears.frame (hR : Bears R) (time : Int) :
    ((animator (α := α) (β := β)).renderFrame time).Respects (Along R) :=
  Animator.renderFrame_respects hR.render hR.finish along_registry time

theorem Bears.clear (hR : Bears R) : (animator (α := α) (β := β)).clear.Respects (Along R) :=
  Animator.clear_respects hR.finish along_registry

theorem Bears.close (hR : Bears R) (m i : Nat) (animate : Bool) :
    (close (α := α) (β := β) m i animate).Respects (Along R) := by
  cases animate with
  | false =>
    refine .bind (fun s => ?_) fun outcome => .ofExcept outcome
    rw [Effect.outcome_change]
    have hbegin := hR.beginClose s.workspace i
    -- A removal that fails leaves the panel as the beginning of the closing left it.
    change R s.workspace (s.workspace.closeAtOnce m i).2
    unfold Workspace.closeAtOnce
    split
    next v hv => rwa [hv] at hbegin
    next v hv =>
      rw [hv] at hbegin
      split
      next hremove => exact trans_of R hbegin (hR.remove hremove)
      next => exact hbegin
  | true =>
    refine .bind (fun s => hR.beginClose s.workspace i) fun begun => ?_
    cases begun with
    | false => exact .pure ()
    | true =>
      refine .bind (hR.space fun _ => ⟨_, rfl⟩) fun _ => ?_
      refine .bind (.bind .get fun _ => hR.space fun _ => ⟨_, rfl⟩) fun _ => ?_
      exact along_registry _

end Along

omit [Scalar α] in
abbrev Fares (s t : Stage α β) : Prop := Along Workspace.Fares s t

theorem bears_fares : Bears (Workspace.Fares (α := α) (β := β)) where
  remove := Workspace.Fares.remove
  beginClose := Workspace.Fares.beginClose
  closingFrame := Workspace.Fares.closingFrame
  closings _ _ := .of_alone (fun _ => rfl) rfl

/-- Whether a command neither makes a panel nor gives it a manager, nor binds or releases. -/
def IsOrdinary : Command α β → Prop
  | .create .. | .add .. | .bind .. | .releaseBindings _ => False
  | _ => True

theorem fares_perform {c : Command α β} (hc : IsOrdinary c) : (perform c).Respects Fares := by
  cases c with
  | create => exact hc.elim
  | add => exact hc.elim
  | bind => exact hc.elim
  | releaseBindings => exact hc.elim
  | focus m i =>
    exact .bind (along_needManager m) fun _ => along_trying fun _ _ => Workspace.Fares.focus
  | remove m i =>
    exact .bind (along_needManager m) fun _ => along_trying fun _ _ => Workspace.Fares.remove
  | close m i animate =>
    exact .bind (along_needManager m) fun _ =>
      .bind (bears_fares.close m i animate) fun _ => .pure _
  | closeAll m =>
    exact .bind .get fun _ =>
      .bind (.forM _ fun i _ => bears_fares.close m i false) fun _ => .pure _
  | frame time => exact .bind .get fun _ => .bind (bears_fares.frame _) fun _ => .pure _
  | toggle i =>
    refine along_asking fun w b w' h => ?_
    cases h
    exact Workspace.Fares.toggleExpanded w i
  | beginMove i pointer => exact along_change fun w => Workspace.Fares.beginMove w i pointer
  | moveTo i pointer => exact along_asking fun _ _ _ => Workspace.Fares.moveTo
  | endMove i => exact along_change fun w => Workspace.Fares.signalling fun p _ => p.mild_endMove
  | beginResize i pointer =>
    refine along_asking fun w b w' h => ?_
    have hresize := Workspace.Fares.beginResize w i pointer
    rw [Except.ok.inj h] at hresize
    exact hresize
  | resizeTo i pointer => exact along_asking fun _ _ _ => Workspace.Fares.resizeTo
  | endResize i =>
    exact along_change fun w => Workspace.Fares.signalling fun p _ => p.mild_endResize
  | cancelGesture i =>
    exact along_change fun w => Workspace.Fares.signalling fun p _ => p.mild_cancelGesture
  | setClock time => exact .bind (fun _ => .refl _) fun _ => .pure _

/-- How a panel passes through an action, with what it parts from. It leaves its manager, and parts
from its content and from all that is bound to it; or what is bound is released because that was
asked; or it parts from nothing. -/
inductive Passes (i : Nat) (x : Action α β) (p q : Panel α β) : List (Parting β) → Prop where
  | stays (quiet : x ≠ .command (.releaseBindings i))
      (manager : q.manager = p.manager ∨
        ∃ m, x = .command (.add m i) ∧ p.manager = none ∧ q.manager = some m)
      (closed : q.closed = p.closed) (bindings : q.bindings = p.bindings ++ x.bound i) :
      Passes i x p q []
  | leaves (m : Nat) (was : p.manager = some m) (gone : q.manager = none)
      (closed : q.closed = true) (bindings : q.bindings = []) (unbound : x.bound i = []) :
      Passes i x p q (.destroyed :: p.bindings.map .released)
  | releases (asked : x = .command (.releaseBindings i)) (manager : q.manager = p.manager)
      (closed : q.closed = p.closed) (bindings : q.bindings = []) :
      Passes i x p q (p.bindings.map .released)

/-- A panel goes through an action, calmly if it closes. -/
def Through (s : Stage α β) (x : Action α β) (i : Nat) (p : Panel α β) : Prop :=
  ∃ q told, (s.act x).workspace.panel? i = some q ∧
    (s.act x).workspace.partings i = s.workspace.partings i ++ told ∧
    p.Calms q ∧ Passes i x p q told

theorem through_of_fares {x : Action α β} (hfares : Fares s (s.act x)) (hbound : x.bound i = [])
    (hquiet : x ≠ .command (.releaseBindings i)) (hp : s.workspace.panel? i = some p) :
    s.Through x i p := by
  obtain ⟨q, told, hq, htold, hpq⟩ := hfares.panels i p hp
  refine ⟨q, told, hq, htold, hpq.calms, ?_⟩
  cases hpq with
  | stays tenure _ =>
    have hbindings : q.bindings = p.bindings := congrArg Panel.Tenure.bindings tenure
    exact .stays hquiet (.inl (congrArg Panel.Tenure.manager tenure))
      (congrArg Panel.Tenure.closed tenure) (by rw [hbindings, hbound, List.append_nil])
  | leaves m was tenure _ =>
    exact .leaves m was (congrArg Panel.Tenure.manager tenure)
      (congrArg Panel.Tenure.closed tenure) (congrArg Panel.Tenure.bindings tenure) hbound

theorem through_of_alone {x : Action α β} (hq : (s.act x).workspace.panel? i = some q)
    (hqp : q.alone = p.alone)
    (hsame : (s.act x).workspace.partings i = s.workspace.partings i)
    (hbound : x.bound i = []) (hquiet : x ≠ .command (.releaseBindings i)) :
    s.Through x i p := by
  have htenure := Panel.tenure_of_alone hqp
  have hbindings : q.bindings = p.bindings := congrArg Panel.Tenure.bindings htenure
  refine ⟨q, [], hq, by rw [hsame, List.append_nil], .of_alone hqp, ?_⟩
  exact .stays hquiet (.inl (congrArg Panel.Tenure.manager htenure))
    (congrArg Panel.Tenure.closed htenure) (by rw [hbindings, hbound, List.append_nil])

theorem through_add (m j : Nat) (hp : s.workspace.panel? i = some p) :
    s.Through (.command (.add m j)) i p := by
  have hact : s.act (.command (.add m j)) =
      ((do needManager m; trying (·.add m j) : Effect (Stage α β) Answer).outcome s).2 := rfl
  rw [outcome_trying] at hact
  have hstays (h : s.act (.command (.add m j)) = s) : s.Through (.command (.add m j)) i p :=
    through_of_alone (by rw [h, hp]) rfl (by rw [h]) rfl (by simp)
  split at hact
  · cases hadd : s.workspace.add m j with
    | error fault =>
      rw [hadd] at hact
      exact hstays hact
    | ok w =>
      rw [hadd] at hact
      have hw : (s.act (.command (.add m j))).workspace = w := by rw [hact]
      have hpart : w.partings i = s.workspace.partings i :=
        partings_congr (signals_add hadd) i
      -- All panels of the manager may stand elsewhere now, which `alone` does not see.
      have halone := alone_add hadd i
      rw [hp, Option.map_some] at halone
      obtain ⟨q, hq, hqp⟩ := Option.map_eq_some_iff.mp halone
      by_cases hji : j = i
      · subst hji
        rw [if_pos rfl] at hqp
        have htenure : q.alone.tenure = ⟨some m, p.closed, p.bindings⟩ := by rw [hqp]; rfl
        have hcalms : p.Calms q.alone := by rw [hqp]; exact .of_eq rfl rfl rfl
        refine ⟨q, [], by rw [hw, hq], by rw [hw, hpart, List.append_nil],
          ⟨hcalms.closing, hcalms.idle, hcalms.still⟩, .stays (by simp) ?_ ?_ ?_⟩
        · exact .inr ⟨m, rfl, manager_of_add hadd hp, congrArg Panel.Tenure.manager htenure⟩
        · exact congrArg Panel.Tenure.closed htenure
        · have hbindings : q.bindings = p.bindings := congrArg Panel.Tenure.bindings htenure
          rw [hbindings, show (Action.command (.add m j) : Action α β).bound j = [] from rfl,
            List.append_nil]
      · rw [if_neg hji] at hqp
        exact through_of_alone (by rw [hw, hq]) hqp (by rw [hw, hpart]) rfl (by simp)
  · exact hstays hact

theorem through_bind (j : Nat) (binding : β) (hp : s.workspace.panel? i = some p) :
    s.Through (.command (.bind j binding)) i p := by
  have hact : (s.act (.command (.bind j binding))).workspace.panel? i =
      some (if j = i then p.bind binding else p) := by
    change (s.workspace.bind j binding).panel? i = _
    rw [Workspace.bind, panel?_modifyPanel, hp, Option.map_some]
  by_cases hji : j = i
  · rw [if_pos hji] at hact
    refine ⟨_, [], hact, (List.append_nil _).symm, .of_eq rfl rfl rfl,
      .stays (by simp) (.inl rfl) rfl ?_⟩
    simp [Panel.bind, Action.bound, hji]
  · rw [if_neg hji] at hact
    exact through_of_alone hact rfl rfl (by simp [Action.bound, hji]) (by simp)

theorem through_releaseBindings (j : Nat) (hp : s.workspace.panel? i = some p) :
    s.Through (.command (.releaseBindings j)) i p := by
  have hworkspace : (s.act (.command (.releaseBindings j))).workspace =
    s.workspace.signalling j Panel.releaseBindings := rfl
  have hact := panel?_signalling s.workspace j i Panel.releaseBindings
  rw [hp, Option.map_some] at hact
  by_cases hji : j = i
  · subst hji
    rw [if_pos rfl] at hact
    refine ⟨p.releaseBindings.1, p.bindings.map .released, hworkspace ▸ hact, ?_,
      .of_eq rfl rfl rfl, .releases rfl rfl rfl rfl⟩
    rw [hworkspace, partings_signalling hp, if_pos rfl, Panel.releaseBindings, parting?_released]
  · rw [if_neg hji] at hact
    refine through_of_alone (hworkspace ▸ hact) rfl ?_ rfl (by simpa using hji)
    rw [hworkspace, partings_signalling_of_ne _ hji]

theorem through_create (title : String) (x y width height : α) (expanded : Bool)
    (headerHeight minWidth minHeight : α) (hp : s.workspace.panel? i = some p) :
    s.Through (.command (.create title x y width height expanded headerHeight minWidth minHeight))
      i p := by
  have hlt : i < s.workspace.panels.length := (List.getElem?_eq_some_iff.mp hp).1
  refine through_of_alone (q := p) ?_ rfl rfl rfl (by simp)
  exact (List.getElem?_append_left hlt).trans hp

/-- Every panel goes through every action. -/
theorem through (s : Stage α β) (x : Action α β) (hp : s.workspace.panel? i = some p) :
    s.Through x i p := by
  have hordinary {c : Command α β} (hc : IsOrdinary c) (hbound : (Action.command c).bound i = [])
      (hquiet : Action.command c ≠ .command (.releaseBindings i)) : s.Through (.command c) i p :=
    through_of_fares (fares_perform hc s) hbound hquiet hp
  cases x with
  | clear => exact through_of_fares (bears_fares.clear s) rfl (by simp) hp
  | command c =>
    cases c with
    | create => exact through_create _ _ _ _ _ _ _ _ _ hp
    | add m j => exact through_add m j hp
    | bind j binding => exact through_bind j binding hp
    | releaseBindings j => exact through_releaseBindings j hp
    | _ => exact hordinary trivial rfl (by simp)

theorem absent_add (m j : Nat) (hi : s.workspace.panel? i = none) :
    (s.act (.command (.add m j))).workspace.panel? i = none ∧
      (s.act (.command (.add m j))).workspace.partings i = s.workspace.partings i := by
  have hact := congrArg Prod.snd (outcome_trying s m (·.add m j))
  have hstays (h : s.act (.command (.add m j)) = s) :
      (s.act (.command (.add m j))).workspace.panel? i = none ∧
        (s.act (.command (.add m j))).workspace.partings i = s.workspace.partings i := by
    rw [h]
    exact ⟨hi, rfl⟩
  split at hact
  · cases hadd : s.workspace.add m j with
    | error fault =>
      rw [hadd] at hact
      exact hstays hact
    | ok w =>
      rw [hadd] at hact
      have hw : (s.act (.command (.add m j))).workspace = w := congrArg Stage.workspace hact
      have halone := alone_add hadd i
      rw [hi, Option.map_none, Option.map_eq_none_iff] at halone
      rw [hw]
      exact ⟨halone, partings_congr (signals_add hadd) i⟩
  · exact hstays hact

theorem absent_releaseBindings (j : Nat) (hi : s.workspace.panel? i = none) :
    (s.act (.command (.releaseBindings j))).workspace.panel? i = none ∧
      (s.act (.command (.releaseBindings j))).workspace.partings i = s.workspace.partings i := by
  have hworkspace : (s.act (.command (.releaseBindings j))).workspace =
    s.workspace.signalling j Panel.releaseBindings := rfl
  rw [hworkspace, panel?_signalling, hi, Option.map_none]
  refine ⟨rfl, ?_⟩
  by_cases hji : j = i
  · subst hji
    rw [signalling, hi]
  · exact partings_signalling_of_ne _ hji _

/-- A panel that is not there yet is as good as new after an action, if it is there then. -/
theorem absent_act (s : Stage α β) (x : Action α β) (hi : s.workspace.panel? i = none) :
    (s.act x).workspace.partings i = s.workspace.partings i ∧
      ∀ q, (s.act x).workspace.panel? i = some q → q.IsNew := by
  have hnone (h : (s.act x).workspace.panel? i = none) : ∀ q,
      (s.act x).workspace.panel? i = some q → q.IsNew := by
    intro q hq
    rw [h] at hq
    cases hq
  have hfares (h : Fares s (s.act x)) := h.others i hi
  cases x with
  | clear =>
    obtain ⟨habsent, hsame⟩ := hfares (bears_fares.clear s)
    exact ⟨hsame, hnone habsent⟩
  | command c =>
    by_cases hc : IsOrdinary c
    · obtain ⟨habsent, hsame⟩ := hfares (fares_perform hc s)
      exact ⟨hsame, hnone habsent⟩
    -- Only `create` makes a panel, and gives it the next number.
    cases c with
    | create title x y width height expanded headerHeight minWidth minHeight =>
      refine ⟨rfl, fun q hq => ?_⟩
      have hlast := (List.getElem?_append_right (List.getElem?_eq_none_iff.mp hi)).symm.trans hq
      cases List.mem_singleton.mp (List.mem_of_getElem? hlast)
      exact ⟨title, x, y, width, height, expanded, headerHeight, minWidth, minHeight, rfl⟩
    | add m j =>
      obtain ⟨habsent, hsame⟩ := absent_add m j hi
      exact ⟨hsame, hnone habsent⟩
    | bind j binding =>
      refine ⟨rfl, hnone ?_⟩
      change (s.workspace.bind j binding).panel? i = none
      rw [Workspace.bind, panel?_modifyPanel, hi, Option.map_none]
    | releaseBindings j =>
      obtain ⟨habsent, hsame⟩ := absent_releaseBindings j hi
      exact ⟨hsame, hnone habsent⟩
    | _ => exact absurd trivial hc

/-- A panel that is spared parts from nothing before it leaves, and then from its content first and
from what is bound to it in order. -/
def PartsOnce (closed : Bool) (told : List (Parting β)) : Prop :=
  if closed then ∃ before : List β, told = .destroyed :: before.map .released else told = []

/-- What is kept account of about a panel: what was bound to it so far is released or still bound,
and what it parted from tells whether it has left. It is spared as long as nobody asks to release
its bindings. -/
structure Accounts (s : Stage α β) (i : Nat) (p : Panel α β) (bound : List β) (spared : Prop) :
    Prop where
  managed : p.manager.isSome = true → p.closed = false
  idle : p.closing = true → p.gesture = none
  once : (s.workspace.partings i).countP Parting.isDestroyed = if p.closed then 1 else 0
  all : releasedOf (s.workspace.partings i) ++ p.bindings = bound
  plain : spared → PartsOnce p.closed (s.workspace.partings i)

theorem Accounts.act {x : Action α β} {bound : List β} {spared : Prop}
    (h : s.Accounts i p bound spared) (hp : s.workspace.panel? i = some p) (hx : ¬ s.Returns x) :
    ∃ q, (s.act x).workspace.panel? i = some q ∧
      (s.act x).Accounts i q (bound ++ x.bound i)
        (spared ∧ x ≠ .command (.releaseBindings i)) := by
  obtain ⟨q, told, hq, htold, hcalms, hpasses⟩ := s.through x hp
  refine ⟨q, hq, ?_⟩
  have hidle := hcalms.idle h.idle
  cases hpasses with
  | stays quiet manager closed bindings =>
    rw [List.append_nil] at htold
    refine ⟨fun hm => ?_, hidle, ?_, ?_, fun hspared => ?_⟩
    · rw [closed]
      rcases manager with hsame | ⟨m, rfl, _, _⟩
      · exact h.managed (hsame ▸ hm)
      · cases hc : p.closed with
        | false => rfl
        | true => exact absurd ⟨p, hp, hc⟩ hx
    · rw [htold, closed]
      exact h.once
    · rw [htold, bindings, ← List.append_assoc, h.all]
    · rw [htold, closed]
      exact h.plain hspared.1
  | leaves m was gone closed bindings unbound =>
    -- Somebody had the panel, so it was not told before that it is gone.
    have hopen : p.closed = false := h.managed (by rw [was]; rfl)
    refine ⟨fun hm => ?_, hidle, ?_, ?_, fun hspared => ?_⟩
    · rw [gone] at hm
      cases hm
    · rw [htold, List.countP_append, h.once, hopen, closed, List.countP_cons_of_pos rfl,
        countP_isDestroyed_map_released]
      rfl
    · have htwo : releasedOf (.destroyed :: p.bindings.map Parting.released) = p.bindings :=
        releasedOf_map_released p.bindings
      rw [htold, releasedOf_append, htwo, bindings, unbound, List.append_nil, List.append_nil,
        h.all]
    · have hnone : PartsOnce false (s.workspace.partings i) := hopen ▸ h.plain hspared.1
      have hempty : s.workspace.partings i = [] := hnone
      rw [htold, hempty, closed]
      exact ⟨p.bindings, rfl⟩
  | releases asked manager closed bindings =>
    refine ⟨fun hm => ?_, hidle, ?_, ?_, fun hspared => absurd asked hspared.2⟩
    · rw [closed]
      exact h.managed (manager ▸ hm)
    · rw [htold, List.countP_append, countP_isDestroyed_map_released, closed]
      exact h.once
    · rw [htold, releasedOf_append, releasedOf_map_released, bindings, asked, h.all]
      rfl

/-- A panel is accounted for: it is not there yet, or what is kept account of is as it should be. -/
structure Accounted (s : Stage α β) (i : Nat) (bound : List β) (spared : Prop) : Prop where
  absent : s.workspace.panel? i = none → s.workspace.partings i = [] ∧ bound = []
  present : ∀ p, s.workspace.panel? i = some p → s.Accounts i p bound spared

theorem Accounted.act {x : Action α β} {bound : List β} {spared : Prop}
    (h : s.Accounted i bound spared) (hx : ¬ s.Returns x) :
    (s.act x).Accounted i (bound ++ if (s.workspace.panel? i).isSome then x.bound i else [])
      (spared ∧ x ≠ .command (.releaseBindings i)) := by
  cases hp : s.workspace.panel? i with
  | none =>
    obtain ⟨hpart, rfl⟩ := h.absent hp
    obtain ⟨hsame, hnew⟩ := absent_act s x hp
    rw [hpart] at hsame
    refine ⟨fun _ => ⟨hsame, rfl⟩, fun q hq => ?_⟩
    obtain ⟨htenure, hclosing⟩ := (hnew q hq).unmanaged
    have hclosed : q.closed = false := congrArg Panel.Tenure.closed htenure
    have hbindings : q.bindings = [] := congrArg Panel.Tenure.bindings htenure
    refine ⟨fun _ => hclosed, fun hc => ?_, ?_, ?_, fun _ => ?_⟩
    · rw [hclosing] at hc
      cases hc
    · rw [hsame, hclosed]
      rfl
    · rw [hsame, hbindings]
      rfl
    · rw [hsame, hclosed]
      rfl
  | some p =>
    obtain ⟨q, hq, haccounts⟩ := (h.present p hp).act hp hx
    refine ⟨fun hnone => ?_, fun r hr => ?_⟩
    · rw [hq] at hnone
      cases hnone
    · cases hq.symm.trans hr
      exact haccounts

theorem Accounted.acts {bound : List β} {spared : Prop} (h : s.Accounted i bound spared)
    {xs : List (Action α β)} (hxs : s.Lasting xs) :
    (s.acts xs).Accounted i (bound ++ s.boundDuring i xs)
      (spared ∧ ∀ x ∈ xs, x ≠ .command (.releaseBindings i)) := by
  induction xs generalizing s bound spared with
  | nil =>
    rw [boundDuring, List.append_nil]
    refine ⟨h.absent, fun p hp => ?_⟩
    have haccounts := h.present p hp
    exact { haccounts with plain := fun hspared => haccounts.plain hspared.1 }
  | cons x xs ih =>
    have hrest := ih (h.act hxs.1) hxs.2
    rw [boundDuring, ← List.append_assoc, List.forall_mem_cons, ← and_assoc]
    exact hrest

omit [Scalar α] in
theorem accounted_start (settings : List (α × α)) (i : Nat) :
    (start settings : Stage α β).Accounted i [] True :=
  ⟨fun _ => ⟨rfl, rfl⟩, fun p hp => by simp [start, Workspace.make, panel?] at hp⟩

theorem accounted_acts (settings : List (α × α)) {xs : List (Action α β)}
    (hxs : (start settings).Lasting xs)
    (hp : ((start settings).acts xs).workspace.panel? i = some p) :
    ((start settings).acts xs).Accounts i p ((start settings).boundDuring i xs)
      (∀ x ∈ xs, x ≠ .command (.releaseBindings i)) := by
  have h := ((accounted_start settings i).acts hxs).present p hp
  rwa [List.nil_append, true_and] at h

theorem calms_acts (s : Stage α β) (xs : List (Action α β)) (hp : s.workspace.panel? i = some p) :
    ∃ q, (s.acts xs).workspace.panel? i = some q ∧ p.Calms q := by
  induction xs generalizing s p with
  | nil => exact ⟨p, hp, .refl p⟩
  | cons x xs ih =>
    obtain ⟨q, _, hq, _, hcalms, _⟩ := s.through x hp
    obtain ⟨r, hr, hrest⟩ := ih (s.act x) hq
    exact ⟨r, hr, hcalms.trans hrest⟩

end Stage

end PanelScript

end DebugDesk
