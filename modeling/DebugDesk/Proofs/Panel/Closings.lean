import DebugDesk.Panel.Scenario
import DebugDesk.Proofs.Panel.Stacking

/-!
# Closing panels

What a frame of the fading does depends on the status of a panel: who has it, and whether it is
closing or closed. Panels only go on to be closed, and nobody takes a panel from a manager.
-/
namespace DebugDesk

/-- What closing sees of a panel. -/
@[ext]
structure Panel.Status where
  manager : Option Nat
  closing : Bool
  closed : Bool

namespace Panel

variable {α β : Type}

def status (p : Panel α β) : Status := ⟨p.manager, p.closing, p.closed⟩

def Status.gone (q : Status) : Status := { q with manager := none, closed := true }

/-- Whether a panel is neither closing nor closed. -/
def Status.isOpen (q : Status) : Bool := !q.closing && !q.closed

@[simp] theorem status_cancelGesture (p : Panel α β) : p.cancelGesture.1.status = p.status := by
  unfold cancelGesture endMove endResize
  split <;> try split
  all_goals rfl

@[simp] theorem status_releaseBindings (p : Panel α β) :
    p.releaseBindings.1.status = p.status := rfl

/-- How the status of a panel may change: what closes goes on to do so, and a manager that has the
panel has it until it is closed. -/
structure Status.Grows (q r : Status) : Prop where
  closing : q.closing = true → r.closing = true
  closed : q.closed = true → r.closed = true
  manager : ∀ m, q.manager = some m → r.closed = true ∨ r.manager = some m

theorem Status.Grows.refl (q : Status) : q.Grows q := ⟨id, id, fun _ h => .inr h⟩

theorem Status.Grows.trans {q r s : Status} (h : q.Grows r) (h' : r.Grows s) : q.Grows s := by
  refine ⟨h'.closing ∘ h.closing, h'.closed ∘ h.closed, fun m hm => ?_⟩
  rcases h.manager m hm with hc | hr
  · exact .inl (h'.closed hc)
  · exact h'.manager m hr

theorem Status.grows_gone (q : Status) : q.Grows q.gone := ⟨id, fun _ => rfl, fun _ _ => .inl rfl⟩

end Panel

namespace Workspace

variable {α β : Type} {w w' : Workspace α β} {m i j : Nat}

def status? (w : Workspace α β) (i : Nat) : Option Panel.Status := (w.panel? i).map Panel.status

theorem status?_modifyPanel (w : Workspace α β) (i j : Nat) {f : Panel α β → Panel α β}
    {g : Panel.Status → Panel.Status} (hf : ∀ p, (f p).status = g p.status) :
    (w.modifyPanel i f).status? j = (w.status? j).map fun q => if i = j then g q else q := by
  simp only [status?, panel?_modifyPanel, Option.map_map]
  congr 1
  funext p
  by_cases h : i = j <;> simp [h, hf]

@[simp] theorem status?_tell (w : Workspace α β) (i j : Nat) (signals : List (PanelSignal α β)) :
    (w.tell i signals).status? j = w.status? j := rfl

@[simp] theorem status?_setMembers (w : Workspace α β) (m j : Nat) (is : List Nat) :
    (w.setMembers m is).status? j = w.status? j := rfl

theorem status?_signalling (w : Workspace α β) (i j : Nat)
    {f : Panel α β → Panel α β × List (PanelSignal α β)} (hf : ∀ p, (f p).1.status = p.status) :
    (w.signalling i f).status? j = w.status? j := map_panel?_signalling w i j hf

theorem status?_foldl_modifyPanel {f : Nat → Panel α β → Panel α β}
    (hf : ∀ i p, (f i p).status = p.status) (is : List Nat) (w : Workspace α β) (j : Nat) :
    (is.foldl (fun w i => w.modifyPanel i (f i)) w).status? j = w.status? j :=
  map_panel?_foldl_modifyPanel hf is w j

@[simp] theorem status?_raise (w : Workspace α β) (m i j : Nat) :
    (w.raise m i).status? j = w.status? j := map_panel?_raise w m i j fun _ _ _ => rfl

@[simp] theorem status?_raiseTopmost (w : Workspace α β) (m j : Nat) :
    (w.raiseTopmost m).status? j = w.status? j := by
  unfold raiseTopmost
  split
  · exact status?_raise w m _ j
  · rfl

theorem status?_attach (w : Workspace α β) (m i j : Nat) :
    (w.attach m i).status? j =
      (w.status? j).map fun q => if i = j then { q with manager := some m } else q := by
  rw [attach, status?_modifyPanel _ i j (g := fun q => { q with manager := some m }),
    status?_setMembers]
  exact fun _ => rfl

theorem status?_detach (w : Workspace α β) (m i z j : Nat) :
    (w.detach m i z).status? j = (w.status? j).map fun q => if i = j then q.gone else q := by
  rw [detach, status?_modifyPanel _ i j (g := Panel.Status.gone), status?_foldl_modifyPanel,
    status?_setMembers]
  · exact fun _ _ => rfl
  · exact fun _ => rfl

theorem status?_remove (h : w.remove m i = .ok w') (j : Nat) :
    w'.status? j = (w.status? j).map fun q => if i = j then q.gone else q := by
  unfold remove at h
  split at h
  · exact nomatch h
  · split at h
    · exact nomatch h
    · cases h
      rw [status?_raiseTopmost, status?_signalling _ i j Panel.status_releaseBindings,
        status?_tell, status?_detach, status?_signalling _ i j Panel.status_cancelGesture]

def durations (w : Workspace α β) : List α := w.managers.map PanelManager.stageDuration

/-- Two workspaces with the same closings under way, at the same speed. -/
structure InStep (w w' : Workspace α β) : Prop where
  closings : w'.closings = w.closings
  durations : w'.durations = w.durations

theorem InStep.refl (w : Workspace α β) : InStep w w := ⟨rfl, rfl⟩

theorem InStep.trans {w'' : Workspace α β} (h : InStep w w') (h' : InStep w' w'') :
    InStep w w'' :=
  ⟨h'.closings.trans h.closings, h'.durations.trans h.durations⟩

theorem inStep_modifyPanel (w : Workspace α β) (i : Nat) (f : Panel α β → Panel α β) :
    InStep w (w.modifyPanel i f) := ⟨rfl, rfl⟩

theorem inStep_tell (w : Workspace α β) (i : Nat) (signals : List (PanelSignal α β)) :
    InStep w (w.tell i signals) := ⟨rfl, rfl⟩

theorem inStep_signalling (w : Workspace α β) (i : Nat)
    (f : Panel α β → Panel α β × List (PanelSignal α β)) : InStep w (w.signalling i f) := by
  unfold signalling
  split <;> exact ⟨rfl, rfl⟩

theorem inStep_setMembers (w : Workspace α β) (m : Nat) (is : List Nat) :
    InStep w (w.setMembers m is) := by
  refine ⟨rfl, ?_⟩
  simp only [durations, setMembers]
  refine List.ext_getElem? fun n => ?_
  simp only [List.getElem?_map, List.getElem?_modify, Option.map_eq_map]
  cases w.managers[n]? with
  | none => rfl
  | some manager => by_cases h : m = n <;> simp [h]

theorem inStep_foldl_modifyPanel (f : Nat → Panel α β → Panel α β) (is : List Nat)
    (w : Workspace α β) : InStep w (is.foldl (fun w i => w.modifyPanel i (f i)) w) := by
  induction is generalizing w with
  | nil => exact .refl w
  | cons i is ih => exact (inStep_modifyPanel w i (f i)).trans (ih _)

theorem inStep_raise (w : Workspace α β) (m i : Nat) : InStep w (w.raise m i) := by
  cases hp : w.panel? i with
  | none =>
    simp only [raise, hp]
    exact .refl w
  | some p =>
    rw [raise_eq w m hp]
    exact (inStep_foldl_modifyPanel _ _ w).trans (inStep_modifyPanel _ i _)

theorem inStep_remove (h : w.remove m i = .ok w') : InStep w w' := by
  unfold remove at h
  split at h
  · exact nomatch h
  · rename_i p _
    split at h
    · exact nomatch h
    · cases h
      have hd (w : Workspace α β) : InStep w (w.detach m i p.z) :=
        ((inStep_setMembers w m _).trans (inStep_foldl_modifyPanel _ _ _)).trans
          (inStep_modifyPanel _ i _)
      have ht (w : Workspace α β) : InStep w (w.raiseTopmost m) := by
        unfold raiseTopmost
        split
        · exact inStep_raise w m _
        · exact .refl w
      have hc := (inStep_signalling w i Panel.cancelGesture).trans (hd _)
      exact hc.trans (((inStep_tell _ i _).trans (inStep_signalling _ i _)).trans (ht _))

/-- Neither stacking nor closing sees a difference between two workspaces. -/
structure Unmoved (w w' : Workspace α β) : Prop extends Alike w w', InStep w w' where
  status : ∀ i, w'.status? i = w.status? i

theorem Unmoved.refl (w : Workspace α β) : Unmoved w w := ⟨.refl w, .refl w, fun _ => rfl⟩

theorem Unmoved.modifyPanel (w : Workspace α β) (i : Nat) {f : Panel α β → Panel α β}
    (hp : ∀ p, w.panel? i = some p → (f p).place = p.place ∧ (f p).status = p.status) :
    Unmoved w (w.modifyPanel i f) := by
  refine ⟨.modifyPanel w i fun p h => (hp p h).1, inStep_modifyPanel w i f, fun j => ?_⟩
  simp only [status?, panel?_modifyPanel, Option.map_map]
  cases hq : w.panel? j with
  | none => rfl
  | some q =>
    by_cases h : i = j
    · subst h
      simp [(hp q hq).2]
    · simp [h]

theorem status?_eq_some {q : Panel.Status} (h : w.status? i = some q) :
    ∃ p, w.panel? i = some p ∧ p.manager = q.manager ∧ p.closing = q.closing ∧
      p.closed = q.closed := by
  obtain ⟨p, hp, rfl⟩ := Option.map_eq_some_iff.mp h
  exact ⟨p, hp, rfl, rfl, rfl⟩

theorem status?_eq_none : w.status? i = none ↔ w.panel? i = none := by simp [status?]

/-- A manager removes the panels it has, and no others. -/
theorem remove_of_status {q : Panel.Status} (h : w.status? i = some q) :
    if q.manager = some m then ∃ w', w.remove m i = .ok w'
    else w.remove m i = .error .panelNotManaged := by
  obtain ⟨p, hp, hm, _⟩ := status?_eq_some h
  rw [← hm]
  split
  next hpm => exact ⟨_, by simp only [remove, hp, hpm, ne_eq, not_true_eq_false, ↓reduceIte]; rfl⟩
  next hpm => simp [remove, hp, hpm]

def Grows (w w' : Workspace α β) : Prop :=
  ∀ i q, w.status? i = some q → ∃ r, w'.status? i = some r ∧ q.Grows r

theorem Grows.trans {w'' : Workspace α β} (h : Grows w w') (h' : Grows w' w'') : Grows w w'' := by
  intro i q hq
  obtain ⟨r, hr, hqr⟩ := h i q hq
  obtain ⟨s, hs, hrs⟩ := h' i r hr
  exact ⟨s, hs, hqr.trans hrs⟩

theorem Grows.of_status (h : ∀ i, w'.status? i = w.status? i) : Grows w w' :=
  fun i q hq => ⟨q, (h i).trans hq, .refl q⟩

theorem Grows.of_map {f : Nat → Panel.Status → Panel.Status}
    (h : ∀ i, w'.status? i = (w.status? i).map (f i))
    (hf : ∀ i q, w.status? i = some q → q.Grows (f i q)) : Grows w w' :=
  fun i q hq => ⟨f i q, by rw [h, hq, Option.map_some], hf i q hq⟩

theorem Grows.remove (h : w.remove m i = .ok w') : Grows w w' := by
  refine .of_map (status?_remove h) fun j q _ => ?_
  split
  · exact q.grows_gone
  · exact .refl q

/-- How a workspace goes on: panels close, and the closings under way stay. -/
structure Follows (w w' : Workspace α β) : Prop extends InStep w w' where
  grows : Grows w w'

theorem Follows.trans {w'' : Workspace α β} (h : Follows w w') (h' : Follows w' w'') :
    Follows w w'' :=
  ⟨h.toInStep.trans h'.toInStep, h.grows.trans h'.grows⟩

theorem Unmoved.follows (h : Unmoved w w') : Follows w w' := ⟨h.toInStep, .of_status h.status⟩

theorem Follows.raise (w : Workspace α β) (m i : Nat) : Follows w (w.raise m i) :=
  ⟨inStep_raise w m i, .of_status (status?_raise w m i)⟩

theorem Follows.remove (h : w.remove m i = .ok w') : Follows w w' := ⟨inStep_remove h, .remove h⟩

/-- A panel that no manager has is put into one. -/
theorem Follows.attach (w : Workspace α β) (m : Nat) {q : Panel.Status}
    (hq : w.status? i = some q) (hfree : q.manager = none) : Follows w (w.attach m i) := by
  have hs : InStep w (w.attach m i) := (inStep_setMembers w m _).trans (inStep_modifyPanel _ i _)
  refine ⟨hs, .of_map (status?_attach w m i) fun j r hr => ?_⟩
  split
  next h =>
    subst h
    rw [hq] at hr
    cases hr
    exact ⟨id, id, fun n hn => by simp [hfree] at hn⟩
  next => exact .refl r

variable [Scalar α]

theorem stages_congr (h : InStep w w') (c : Closing) (time : Int) :
    w'.stages c time = w.stages c time := by
  have hd (v : Workspace α β) :
      (v.managers[c.manager]?).map PanelManager.stageDuration = v.durations[c.manager]? := by
    simp [durations]
  simp only [stages, hd, h.durations]

/-- What a frame makes of a panel that fades out: the manager that lets it go, if it has faded and
is not closed by then. -/
def fate (w : Workspace α β) (time : Int) (i : Nat) : Except Fault (Option Nat) :=
  match w.closing? i, w.status? i with
  | some c, some q =>
    match w.stages c time with
    | .error fault => .error fault
    | .ok stages =>
      if stages < 1.0 ∨ stages < 2.0 ∨ q.closed then .ok none
      else if q.manager = some c.manager then .ok (some c.manager)
      else .error .panelNotManaged
  | _, _ => .ok none

theorem fate_congr (h : InStep w w') (hq : w'.status? i = w.status? i) (time : Int) :
    w'.fate time i = w.fate time i := by
  simp only [fate, closing?, h.closings, stages_congr h, hq]

/-- The stacks that a frame changes, up to the first failure. -/
def framePlan (fate : Nat → Except Fault (Option Nat)) : List Nat → List Restacking
  | [] => []
  | i :: rest =>
    match fate i with
    | .ok (some m) => .drop m i :: framePlan fate rest
    | .ok none => framePlan fate rest
    | .error _ => []

theorem framePlan_congr {f g : Nat → Except Fault (Option Nat)} {is : List Nat}
    (h : ∀ i ∈ is, f i = g i) : framePlan f is = framePlan g is := by
  induction is with
  | nil => rfl
  | cons i is ih =>
    simp only [framePlan, h i (by simp), ih fun j hj => h j (List.mem_cons_of_mem i hj)]

end Workspace

end DebugDesk
