import DebugDesk.Proofs.Panel.Titles

/-!
# Released bindings

A panel keeps its manager and what is bound to it until it is removed. Then everything that was
bound to it is released, after nothing but farewells to its content.
-/
namespace DebugDesk

/-- Whether a signal only tells a content that its panel is dragged no more, or gone. -/
def PanelSignal.IsFarewell {α β : Type} : PanelSignal α β → Prop
  | .suppressed _ | .destroyed => True
  | .resized .. | .released _ => False

/-- What a panel is tied to. -/
structure Panel.Ties (β : Type) where
  title : String
  manager : Option Nat
  bindings : List β

namespace Panel

variable {α β : Type}

def ties (p : Panel α β) : Ties β := ⟨p.title, p.manager, p.bindings⟩

def Ties.cut (t : Ties β) : Ties β := { t with manager := none, bindings := [] }

theorem ties_endMove (p : Panel α β) : p.endMove.1.ties = p.ties := by
  unfold endMove
  split <;> rfl

theorem ties_endResize (p : Panel α β) : p.endResize.1.ties = p.ties := by
  unfold endResize
  split <;> rfl

theorem ties_cancelGesture (p : Panel α β) : p.cancelGesture.1.ties = p.ties := by
  unfold cancelGesture
  split
  · exact p.ties_endMove
  · exact p.ties_endResize
  · rfl

theorem farewell_cancelGesture (p : Panel α β) : ∀ s ∈ p.cancelGesture.2, s.IsFarewell := by
  unfold cancelGesture endMove endResize
  split <;> try split
  all_goals simp [PanelSignal.IsFarewell]

variable [Scalar α]

theorem ties_toggleExpanded (p : Panel α β) : p.toggleExpanded.1.ties = p.ties := by
  unfold toggleExpanded
  split <;> rfl

theorem ties_fade (p : Panel α β) (stages : α) : (p.fade stages).2.ties = p.ties := by
  unfold fade
  repeat' split
  all_goals rfl

variable {p q : Panel α β} {grid : α} {pointer : Point α} {b : Bool}

theorem ties_moveTo (h : p.moveTo grid pointer = .ok (b, q)) : q.ties = p.ties := by
  simp only [moveTo, Bind.bind, Except.bind, pure, Except.pure] at h
  repeat' split at h
  all_goals cases h
  all_goals rfl

theorem ties_resizeTo (h : p.resizeTo grid pointer = .ok (b, q)) : q.ties = p.ties := by
  simp only [resizeTo, Bind.bind, Except.bind, pure, Except.pure] at h
  repeat' split at h
  all_goals cases h
  all_goals rfl

end Panel

namespace Workspace

variable {α β : Type} {w w' w'' : Workspace α β} {m i j : Nat} {p q : Panel α β}

def ties? (w : Workspace α β) (i : Nat) : Option (Panel.Ties β) := (w.panel? i).map Panel.ties

theorem ties?_congr (h : w'.panels = w.panels) (i : Nat) : w'.ties? i = w.ties? i := by
  rw [ties?, panel?, h, ties?, panel?]

theorem ties?_signalling (w : Workspace α β) (i j : Nat)
    {f : Panel α β → Panel α β × List (PanelSignal α β)} (hf : ∀ p, (f p).1.ties = p.ties) :
    (w.signalling i f).ties? j = w.ties? j := map_panel?_signalling w i j hf

theorem ties?_releaseBindings (w : Workspace α β) (i j : Nat) :
    (w.signalling i Panel.releaseBindings).ties? j =
      (w.ties? j).map fun t => if i = j then { t with bindings := [] } else t := by
  rw [ties?, panel?_signalling, Option.map_map, ties?, Option.map_map]
  congr 1
  funext p
  by_cases h : i = j <;> simp [h, Panel.ties, Panel.releaseBindings]

theorem ties?_bind (w : Workspace α β) (i : Nat) (binding : β) (j : Nat) :
    (w.bind i binding).ties? j = (w.ties? j).map fun t =>
      if i = j then { t with bindings := t.bindings ++ [binding] } else t := by
  rw [ties?, bind, panel?_modifyPanel, Option.map_map, ties?, Option.map_map]
  congr 1
  funext p
  by_cases h : i = j <;> simp [h, Panel.ties, Panel.bind]

theorem ties?_push (w : Workspace α β) (p : Panel α β) (j : Nat) :
    (w.push p).ties? j = if w.panels.length = j then some p.ties else w.ties? j := by
  simp only [ties?, panel?, push]
  by_cases h : w.panels.length = j
  · subst h
    simp
  · rw [if_neg h]
    congr 1
    rcases Nat.lt_or_gt_of_ne h with hlt | hlt
    · rw [List.getElem?_eq_none (by simpa using Nat.succ_le_of_lt hlt),
        List.getElem?_eq_none hlt.le]
    · exact List.getElem?_append_left hlt

theorem ties?_attach (w : Workspace α β) (m i j : Nat) :
    (w.attach m i).ties? j =
      (w.ties? j).map fun t => if i = j then { t with manager := some m } else t := by
  rw [ties?, attach, panel?_modifyPanel, panel?_setMembers, Option.map_map, ties?, Option.map_map]
  congr 1
  funext p
  by_cases h : i = j <;> simp [h, Panel.ties]

theorem ties?_raise (w : Workspace α β) (m i j : Nat) : (w.raise m i).ties? j = w.ties? j :=
  map_panel?_raise w m i j fun _ _ _ => rfl

theorem ties?_raiseTopmost (w : Workspace α β) (m j : Nat) :
    (w.raiseTopmost m).ties? j = w.ties? j := by
  unfold raiseTopmost
  split
  · exact ties?_raise w m _ j
  · rfl

theorem ties?_raiseManaged (w : Workspace α β) (i j : Nat) :
    (w.raiseManaged i).ties? j = w.ties? j := by
  unfold raiseManaged
  split
  · exact ties?_raise w _ i j
  · rfl

theorem ties?_replace (hp : w.panel? i = some p) (hq : q.ties = p.ties) (j : Nat) :
    (w.modifyPanel i fun _ => q).ties? j = w.ties? j := by
  rw [ties?, panel?_modifyPanel, Option.map_map, ties?]
  by_cases h : i = j
  · subst h
    simp [hp, hq]
  · simp [h, Function.comp_def]

/-- How a workspace goes on as long as no panel is added and nothing is bound. -/
inductive Yields (w w' : Workspace α β) : Prop where
  | holds (ties : ∀ j, w'.ties? j = w.ties? j)
  | releases (i : Nat) (p : Panel α β) (was : w.panel? i = some p)
      (ties : ∀ j, w'.ties? j = (w.ties? j).map fun t => if i = j then t.cut else t)
      (farewells : List (PanelSignal α β)) (only : ∀ s ∈ farewells, s.IsFarewell)
      (signals : w'.signals = w.signals ++
        (farewells ++ p.bindings.map PanelSignal.released).map (i, ·))

theorem Yields.refl (w : Workspace α β) : Yields w w := .holds fun _ => rfl

theorem Yields.signalling (w : Workspace α β) (i : Nat)
    {f : Panel α β → Panel α β × List (PanelSignal α β)} (hf : ∀ p, (f p).1.ties = p.ties) :
    Yields w (w.signalling i f) := .holds fun j => ties?_signalling w i j hf

theorem Yields.focus (h : w.focus m i = .ok w') : Yields w w' := by
  unfold Workspace.focus at h
  split at h
  · cases h
    exact .holds fun j => ties?_raise w m i j
  · cases h

theorem signals_signalling (hp : w.panel? i = some p)
    (f : Panel α β → Panel α β × List (PanelSignal α β)) :
    (w.signalling i f).signals = w.signals ++ (f p).2.map (i, ·) := by
  simp only [signalling, hp]
  rfl

theorem signals_raiseTopmost (w : Workspace α β) (m : Nat) :
    (w.raiseTopmost m).signals = w.signals := by
  unfold raiseTopmost
  split
  · exact signals_raise w m _
  · rfl

theorem signals_detach (w : Workspace α β) (m i z : Nat) :
    (w.detach m i z).signals = w.signals := signals_foldl_modifyPanel _ _ _

theorem ties?_detach (w : Workspace α β) (m i z j : Nat) :
    (w.detach m i z).ties? j =
      (w.ties? j).map fun t => if i = j then { t with manager := none } else t := by
  have hlower := map_panel?_foldl_modifyPanel (v := Panel.ties)
    (f := fun (_ : Nat) (q : Panel α β) => { q with z := if z < q.z then q.z - 1 else q.z })
    (fun _ _ => rfl) ((w.setMembers m ((w.members m).erase i)).members m)
    (w.setMembers m ((w.members m).erase i)) j
  have hkept : (w.setMembers m ((w.members m).erase i)).panel? j = w.panel? j := rfl
  rw [ties?, ties?, ← hkept, ← hlower, detach, panel?_modifyPanel, Option.map_map, Option.map_map]
  congr 1
  funext p
  by_cases h : i = j <;> simp [h, Panel.ties]

/-- What is told when a panel is removed. -/
theorem signals_remove (h : w.remove m i = .ok w') (hp : w.panel? i = some p) :
    w'.signals = w.signals ++ ((p.cancelGesture.2 ++ [PanelSignal.destroyed]) ++
      p.bindings.map PanelSignal.released).map (i, ·) := by
  unfold Workspace.remove at h
  simp only [hp] at h
  split at h
  · cases h
  · cases h
    have hhere : ((w.signalling i Panel.cancelGesture).detach m i p.z).ties? i =
        some { p.ties with manager := none } := by
      rw [ties?_detach, ties?_signalling w i i Panel.ties_cancelGesture, ties?, hp,
        Option.map_some, Option.map_some, if_pos rfl]
    obtain ⟨r, hr, hties⟩ := Option.map_eq_some_iff.mp hhere
    have hbindings : r.bindings = p.bindings := congrArg Panel.Ties.bindings hties
    rw [signals_raiseTopmost, signals_signalling (p := r) (by rwa [panel?_tell])]
    rw [Panel.releaseBindings, hbindings, tell, signals_detach, signals_signalling hp]
    simp

/-- Nothing but farewells is told before the bindings of a removed panel are released. -/
theorem farewell_remove (p : Panel α β) :
    ∀ s ∈ p.cancelGesture.2 ++ [.destroyed], s.IsFarewell := by
  intro s hs
  rcases List.mem_append.mp hs with hs | hs
  · exact p.farewell_cancelGesture s hs
  · exact List.mem_singleton.mp hs ▸ trivial

/-- A removal cuts the ties of a panel, and tells so. -/
theorem Yields.remove (h : w.remove m i = .ok w') : Yields w w' := by
  cases hp : w.panel? i with
  | none => simp [Workspace.remove, hp] at h
  | some p =>
    refine .releases i p hp (fun j => ?_) _ (farewell_remove p) (signals_remove h hp)
    unfold Workspace.remove at h
    simp only [hp] at h
    split at h
    · cases h
    · cases h
      have hcancel := fun j => ties?_signalling w i j Panel.ties_cancelGesture
      have hdetach := ties?_detach (w.signalling i Panel.cancelGesture) m i p.z
      have htold (w : Workspace α β) : (w.tell i [.destroyed]).ties? j = w.ties? j := rfl
      rw [ties?_raiseTopmost, ties?_releaseBindings, htold, hdetach, hcancel, Option.map_map]
      congr 1
      funext t
      by_cases hij : i = j <;> simp [hij, Panel.Ties.cut]

theorem Yields.beginClose (w : Workspace α β) (i : Nat) : Yields w (w.beginClose i).2 := by
  unfold Workspace.beginClose
  split
  · exact .refl w
  · split
    · exact .refl w
    · refine .holds fun j => ?_
      rw [ties?_signalling _ i j Panel.ties_cancelGesture]
      exact map_panel?_modifyPanel w i j fun _ => rfl

theorem Yields.finishClosing (h : w.finishClosing i = .ok w') : Yields w w' := by
  unfold Workspace.finishClosing at h
  split at h
  · split at h
    · cases h
      exact .refl w
    · exact .remove h
  · cases h
    exact .refl w

theorem Yields.beginMove (w : Workspace α β) (i : Nat) (pointer : Point α) :
    Yields w (w.beginMove i pointer) := by
  unfold Workspace.beginMove
  split
  · exact .refl w
  · split
    · exact .refl w
    · refine .holds fun j => ?_
      rw [ties?_signalling _ i j fun _ => rfl, ties?_raiseManaged]

theorem Yields.beginResize (w : Workspace α β) (i : Nat) (pointer : Point α) :
    Yields w (w.beginResize i pointer).2 := by
  unfold Workspace.beginResize
  split
  · exact .refl w
  · split
    · exact .refl w
    · refine .holds fun j => ?_
      rw [ties?_signalling _ i j fun _ => rfl, ties?_raiseManaged]

variable [Scalar α]

theorem Yields.toggleExpanded (w : Workspace α β) (i : Nat) : Yields w (w.toggleExpanded i).2 :=
  .signalling w i Panel.ties_toggleExpanded

theorem Yields.closingFrame {time : Int} {action : FrameAction}
    (h : w.closingFrame i time = .ok (action, w')) : Yields w w' := by
  unfold Workspace.closingFrame at h
  split at h
  next c p _ hp =>
    obtain ⟨stages, _, h⟩ := Effect.bind_eq_ok h
    cases h
    exact .holds (ties?_replace hp (p.ties_fade stages))
  · cases h
    exact .refl w

theorem Yields.moveTo {pointer : Point α} {b : Bool} (h : w.moveTo i pointer = .ok (b, w')) :
    Yields w w' := by
  unfold Workspace.moveTo at h
  split at h
  · cases h
  next p hp =>
    obtain ⟨moved, hmove, h⟩ := Effect.bind_eq_ok h
    cases h
    exact .holds (ties?_replace hp (Panel.ties_moveTo hmove))

theorem Yields.resizeTo {pointer : Point α} {b : Bool} (h : w.resizeTo i pointer = .ok (b, w')) :
    Yields w w' := by
  unfold Workspace.resizeTo at h
  split at h
  · cases h
  next p hp =>
    obtain ⟨resized, hresize, h⟩ := Effect.bind_eq_ok h
    cases h
    have hties := ties?_replace hp (Panel.ties_resizeTo hresize)
    split
    · exact .holds hties
    · exact .holds hties

end Workspace

end DebugDesk
