import DebugDesk.Proofs.Panel.Releasing

/-!
# Partings

When a panel is taken from its manager, its content is told that it is gone, and whatever is bound
to it is released. Nothing else that happens in a workspace parts from a panel, and a panel that
closes lies still.
-/
namespace DebugDesk

/-- A content or a binding is told that its panel is gone. -/
inductive Parting (β : Type) where
  | destroyed
  | released (binding : β)

namespace Parting

variable {β : Type}

def isDestroyed : Parting β → Bool
  | destroyed => true
  | released _ => false

def released? : Parting β → Option β
  | destroyed => none
  | released binding => some binding

end Parting

def releasedOf {β : Type} (told : List (Parting β)) : List β := told.filterMap Parting.released?

@[simp] theorem releasedOf_append {β : Type} (told told' : List (Parting β)) :
    releasedOf (told ++ told') = releasedOf told ++ releasedOf told' := List.filterMap_append

@[simp] theorem releasedOf_map_released {β : Type} (bindings : List β) :
    releasedOf (bindings.map .released) = bindings := by
  simp [releasedOf, Function.comp_def, Parting.released?]

@[simp] theorem countP_isDestroyed_map_released {β : Type} (bindings : List β) :
    (bindings.map Parting.released).countP Parting.isDestroyed = 0 := by
  simp [List.countP_eq_zero, Parting.isDestroyed]

def PanelSignal.parting? {α β : Type} : PanelSignal α β → Option (Parting β)
  | .destroyed => some .destroyed
  | .released binding => some (.released binding)
  | .resized .. | .suppressed _ => none

theorem parting?_released {α β : Type} (bindings : List β) :
    (bindings.map (PanelSignal.released (α := α))).filterMap PanelSignal.parting? =
      bindings.map .released := by
  rw [List.filterMap_map]
  exact congrFun List.filterMap_eq_map bindings

namespace Panel

variable {α β : Type} {p q r : Panel α β}

/-- Who has a panel, and what is bound to it. -/
@[ext]
structure Tenure (β : Type) where
  manager : Option Nat
  closed : Bool
  bindings : List β

def tenure (p : Panel α β) : Tenure β := ⟨p.manager, p.closed, p.bindings⟩

@[ext]
structure Stance (α : Type) where
  x : α
  y : α
  width : α
  height : α
  expanded : Bool

def stance (p : Panel α β) : Stance α := ⟨p.x, p.y, p.width, p.height, p.expanded⟩

/-- A panel without where it stands among others. -/
def alone (p : Panel α β) : Panel α β := { p with z := 0, focused := false }

/-- How a panel closes: once it does so, it lies still and is not dragged. -/
structure Calms (p q : Panel α β) : Prop where
  closing : p.closing = true → q.closing = true
  idle : (p.closing = true → p.gesture = none) → q.closing = true → q.gesture = none
  still : p.closing = true → p.gesture = none → q.stance = p.stance

theorem Calms.refl (p : Panel α β) : p.Calms p := ⟨id, id, fun _ _ => rfl⟩

theorem Calms.trans (h : p.Calms q) (h' : q.Calms r) : p.Calms r := by
  refine ⟨h'.closing ∘ h.closing, h'.idle ∘ h.idle, fun hc hg => ?_⟩
  have hq := h.closing hc
  exact (h'.still hq (h.idle (fun _ => hg) hq)).trans (h.still hc hg)

theorem Calms.of_eq (hc : q.closing = p.closing) (hg : q.gesture = p.gesture)
    (hs : q.stance = p.stance) : p.Calms q :=
  ⟨fun h => hc.trans h, fun h hq => hg.trans (h (hc.symm.trans hq)), fun _ _ => hs⟩

/-- How a panel fares while nothing is bound to it or released from it, with what it parts from:
it keeps what it has, or it leaves its manager and parts from everything. -/
inductive Fares (p q : Panel α β) : List (Parting β) → Prop where
  | stays (tenure : q.tenure = p.tenure) (calms : p.Calms q) : Fares p q []
  | leaves (m : Nat) (was : p.manager = some m) (tenure : q.tenure = ⟨none, true, []⟩)
      (calms : p.Calms q) : Fares p q (.destroyed :: p.bindings.map .released)

theorem Fares.calms {told : List (Parting β)} (h : p.Fares q told) : p.Calms q := by
  cases h with
  | stays _ calms => exact calms
  | leaves _ _ _ calms => exact calms

theorem Fares.refl (p : Panel α β) : p.Fares p [] := .stays rfl (.refl p)

theorem tenure_of_alone (h : q.alone = p.alone) : q.tenure = p.tenure := by
  have htenure : q.alone.tenure = p.alone.tenure := congrArg tenure h
  exact htenure

theorem Calms.of_alone (h : q.alone = p.alone) : p.Calms q := by
  have hclosing : q.alone.closing = p.alone.closing := congrArg Panel.closing h
  have hgesture : q.alone.gesture = p.alone.gesture := congrArg Panel.gesture h
  have hstance : q.alone.stance = p.alone.stance := congrArg stance h
  exact .of_eq hclosing hgesture hstance

theorem Fares.of_alone (h : q.alone = p.alone) : p.Fares q [] :=
  .stays (tenure_of_alone h) (.of_alone h)

theorem Fares.trans {told told' : List (Parting β)} (h : p.Fares q told)
    (h' : q.Fares r told') : p.Fares r (told ++ told') := by
  cases h with
  | stays htenure hcalms =>
    cases h' with
    | stays htenure' hcalms' => exact .stays (htenure'.trans htenure) (hcalms.trans hcalms')
    | leaves m hm htenure' hcalms' =>
      have hmanager : q.manager = p.manager := congrArg Tenure.manager htenure
      have hbindings : q.bindings = p.bindings := congrArg Tenure.bindings htenure
      rw [hbindings, List.nil_append]
      exact .leaves m (hmanager.symm.trans hm) htenure' (hcalms.trans hcalms')
  | leaves m hm htenure hcalms =>
    cases h' with
    | stays htenure' hcalms' =>
      rw [List.append_nil]
      exact .leaves m hm (htenure'.trans htenure) (hcalms.trans hcalms')
    | leaves m' hm' _ _ =>
      -- Nobody has the panel any more, so it cannot leave once more.
      have hnone : q.manager = none := congrArg Tenure.manager htenure
      rw [hnone] at hm'
      cases hm'

/-- A change of a panel that parts from nothing. -/
structure Mild (p : Panel α β) (r : Panel α β × List (PanelSignal α β)) : Prop where
  tenure : r.1.tenure = p.tenure
  calms : p.Calms r.1
  quiet : r.2.filterMap PanelSignal.parting? = []

theorem Mild.refl (p : Panel α β) : p.Mild (p, []) := ⟨rfl, .refl p, rfl⟩

theorem mild_endMove (p : Panel α β) : p.Mild p.endMove := by
  unfold endMove
  split
  · exact ⟨rfl, ⟨id, fun _ _ => rfl, fun _ _ => rfl⟩, rfl⟩
  · exact .refl p

theorem mild_endResize (p : Panel α β) : p.Mild p.endResize := by
  unfold endResize
  split
  · exact ⟨rfl, ⟨id, fun _ _ => rfl, fun _ _ => rfl⟩, rfl⟩
  · exact .refl p

theorem mild_cancelGesture (p : Panel α β) : p.Mild p.cancelGesture := by
  unfold cancelGesture
  split
  · exact p.mild_endMove
  · exact p.mild_endResize
  · exact .refl p

theorem gesture_cancelGesture (p : Panel α β) : p.cancelGesture.1.gesture = none := by
  unfold cancelGesture
  split
  next h => simp [endMove, h]
  next h => simp [endResize, h]
  next h => exact h

theorem stance_cancelGesture (p : Panel α β) : p.cancelGesture.1.stance = p.stance := by
  unfold cancelGesture endMove endResize
  split <;> try split
  all_goals rfl

theorem mild_close (p : Panel α β) :
    p.Mild ({ p with closing := true } : Panel α β).cancelGesture := by
  have hcancel := mild_cancelGesture { p with closing := true }
  refine ⟨hcancel.tenure, ⟨fun _ => ?_, fun _ _ => gesture_cancelGesture _, fun _ _ => ?_⟩,
    hcancel.quiet⟩
  · exact hcancel.calms.closing rfl
  · exact stance_cancelGesture _

theorem mild_beginMove (h : p.closing = false) (pointer : Point α) :
    p.Mild (p.beginMove pointer) :=
  ⟨rfl, ⟨id, fun _ hq => absurd (h.symm.trans hq) (by simp), fun _ _ => rfl⟩, rfl⟩

theorem mild_beginResize (h : p.closing = false) (pointer : Point α) :
    p.Mild (p.beginResize pointer) :=
  ⟨rfl, ⟨id, fun _ hq => absurd (h.symm.trans hq) (by simp), fun _ _ => rfl⟩, rfl⟩

variable [Scalar α] {grid : α} {pointer : Point α} {b : Bool}

theorem mild_toggleExpanded (p : Panel α β) : p.Mild p.toggleExpanded := by
  unfold toggleExpanded
  split
  · exact .refl p
  next h =>
    refine ⟨rfl, ⟨id, id, fun hc => absurd hc h⟩, ?_⟩
    dsimp only
    split <;> rfl

theorem calms_fade (p : Panel α β) (stages : α) : p.Calms (p.fade stages).2 := by
  unfold fade
  repeat' split
  all_goals exact .of_eq rfl rfl rfl

theorem tenure_fade (p : Panel α β) (stages : α) : (p.fade stages).2.tenure = p.tenure := by
  unfold fade
  repeat' split
  all_goals rfl

theorem mild_moveTo (h : p.moveTo grid pointer = .ok (b, q)) : p.Mild (q, []) := by
  -- A panel that lies still has no gesture, and without one nothing is moved.
  unfold moveTo at h
  split at h
  · cases h
    exact .refl p
  next hg =>
    simp only [Bind.bind, Except.bind, pure, Except.pure] at h
    repeat' split at h
    all_goals cases h
    · exact .refl p
    · refine ⟨rfl, ⟨id, id, fun _ hnone => absurd (fun he => ?_) hg⟩, rfl⟩
      rw [hnone] at he
      cases he

theorem mild_resizeTo (h : p.resizeTo grid pointer = .ok (b, q)) : p.Mild (q, []) := by
  unfold resizeTo at h
  split at h
  · cases h
    exact .refl p
  next hg =>
    simp only [Bind.bind, Except.bind, pure, Except.pure] at h
    repeat' split at h
    all_goals cases h
    · exact .refl p
    · refine ⟨rfl, ⟨id, id, fun _ hnone => absurd (fun he => ?_) hg⟩, rfl⟩
      rw [hnone] at he
      cases he

end Panel

namespace Workspace

variable {α β : Type} {w w' w'' : Workspace α β} {m i j : Nat} {p q : Panel α β}

def partings (w : Workspace α β) (i : Nat) : List (Parting β) :=
  (w.signals.filter (·.1 = i)).filterMap fun s => s.2.parting?

theorem partings_congr (h : w'.signals = w.signals) (i : Nat) : w'.partings i = w.partings i := by
  rw [partings, h, partings]

theorem partings_tell (w : Workspace α β) (i j : Nat) (signals : List (PanelSignal α β)) :
    (w.tell i signals).partings j =
      w.partings j ++ if i = j then signals.filterMap PanelSignal.parting? else [] := by
  simp only [partings, tell, List.filter_append, List.filterMap_append]
  congr 1
  by_cases h : i = j
  · subst h
    rw [if_pos rfl, List.filter_eq_self.mpr (by simp), List.filterMap_map]
    rfl
  · rw [if_neg h, List.filter_eq_nil_iff.mpr (by simp [h]), List.filterMap_nil]

theorem partings_signalling (hp : w.panel? i = some p) (j : Nat)
    (f : Panel α β → Panel α β × List (PanelSignal α β)) :
    (w.signalling i f).partings j =
      w.partings j ++ if i = j then (f p).2.filterMap PanelSignal.parting? else [] := by
  simp only [signalling, hp]
  exact partings_tell _ i j _

theorem partings_signalling_of_ne (w : Workspace α β) (h : i ≠ j)
    (f : Panel α β → Panel α β × List (PanelSignal α β)) :
    (w.signalling i f).partings j = w.partings j := by
  unfold signalling
  split
  · rw [partings_tell, if_neg h, List.append_nil]
    rfl
  · rfl

/-- How all panels fare while none is added and nothing is bound or released. -/
structure Fares (w w' : Workspace α β) : Prop where
  panels : ∀ i p, w.panel? i = some p → ∃ q told, w'.panel? i = some q ∧
    w'.partings i = w.partings i ++ told ∧ p.Fares q told
  others : ∀ i, w.panel? i = none → w'.panel? i = none ∧ w'.partings i = w.partings i

theorem Fares.refl (w : Workspace α β) : Fares w w :=
  ⟨fun _ p hp => ⟨p, [], hp, (List.append_nil _).symm, .refl p⟩,
    fun _ hi => ⟨hi, rfl⟩⟩

theorem Fares.trans (h : Fares w w') (h' : Fares w' w'') : Fares w w'' := by
  refine ⟨fun i p hp => ?_, fun i hi => ?_⟩
  · obtain ⟨q, told, hq, htold, hpq⟩ := h.panels i p hp
    obtain ⟨r, told', hr, htold', hqr⟩ := h'.panels i q hq
    exact ⟨r, told ++ told', hr, by rw [htold', htold, List.append_assoc], hpq.trans hqr⟩
  · obtain ⟨hnone, hsame⟩ := h.others i hi
    obtain ⟨hnone', hsame'⟩ := h'.others i hnone
    exact ⟨hnone', hsame'.trans hsame⟩

instance : IsPreorder (Workspace α β) Fares where
  refl := .refl
  trans _ _ _ := .trans

theorem Fares.of_alone (h : ∀ j, (w'.panel? j).map Panel.alone = (w.panel? j).map Panel.alone)
    (hs : w'.signals = w.signals) : Fares w w' := by
  refine ⟨fun i p hp => ?_, fun i hi => ⟨?_, partings_congr hs i⟩⟩
  · have halone := h i
    rw [hp, Option.map_some] at halone
    obtain ⟨q, hq, hqp⟩ := Option.map_eq_some_iff.mp halone
    exact ⟨q, [], hq, by rw [partings_congr hs, List.append_nil], .of_alone hqp⟩
  · have halone := h i
    rw [hi] at halone
    simpa using halone

theorem alone_raise (w : Workspace α β) (m i j : Nat) :
    ((w.raise m i).panel? j).map Panel.alone = (w.panel? j).map Panel.alone :=
  map_panel?_raise w m i j fun _ _ _ => rfl

theorem Fares.raise (w : Workspace α β) (m i : Nat) : Fares w (w.raise m i) :=
  .of_alone (alone_raise w m i) (signals_raise w m i)

theorem Fares.raiseTopmost (w : Workspace α β) (m : Nat) : Fares w (w.raiseTopmost m) := by
  unfold Workspace.raiseTopmost
  split
  · exact .raise w m _
  · exact .refl w

theorem Fares.focus (h : w.focus m i = .ok w') : Fares w w' := by
  unfold Workspace.focus at h
  split at h
  · cases h
    exact .raise w m i
  · cases h

theorem Fares.signalling {f : Panel α β → Panel α β × List (PanelSignal α β)}
    (hf : ∀ p, w.panel? i = some p → p.Mild (f p)) : Fares w (w.signalling i f) := by
  cases hi : w.panel? i with
  | none =>
    rw [Workspace.signalling, hi]
    exact .refl w
  | some p =>
    refine ⟨fun j q hq => ?_, fun j hj => ?_⟩
    · rw [panel?_signalling, hq, partings_signalling hi]
      by_cases hij : i = j
      · subst hij
        have hmild := hf q hq
        cases hi.symm.trans hq
        refine ⟨(f p).1, [], by simp, by simp [hmild.quiet], .stays hmild.tenure hmild.calms⟩
      · exact ⟨q, [], by simp [hij], by simp [hij], .refl q⟩
    · rw [panel?_signalling, hj, partings_signalling hi]
      have hij : i ≠ j := by
        rintro rfl
        rw [hj] at hi
        cases hi
      simp [hij]

theorem signalling_const (hp : w.panel? i = some p) (q : Panel α β) :
    w.signalling i (fun _ => (q, [])) = w.modifyPanel i fun _ => q := by
  simp [Workspace.signalling, hp, tell]

theorem Fares.replace (hp : w.panel? i = some p) (hq : p.Mild (q, [])) :
    Fares w (w.modifyPanel i fun _ => q) := by
  rw [← signalling_const hp q]
  refine .signalling fun p' hp' => ?_
  cases hp.symm.trans hp'
  exact hq

theorem Fares.tell (w : Workspace α β) (i : Nat) {signals : List (PanelSignal α β)}
    (h : signals.filterMap PanelSignal.parting? = []) : Fares w (w.tell i signals) := by
  refine ⟨fun j p hp => ⟨p, [], hp, ?_, .refl p⟩, fun j hj => ⟨hj, ?_⟩⟩
  · rw [partings_tell, h, ite_self]
  · rw [partings_tell, h, ite_self, List.append_nil]

theorem alone_detach (w : Workspace α β) (m i z j : Nat) :
    ((w.detach m i z).panel? j).map Panel.alone = (w.panel? j).map fun p =>
      if i = j then { p.alone with manager := none, closed := true } else p.alone := by
  have hlower := map_panel?_foldl_modifyPanel (v := Panel.alone)
    (f := fun (_ : Nat) (q : Panel α β) => { q with z := if z < q.z then q.z - 1 else q.z })
    (fun _ _ => rfl) ((w.setMembers m ((w.members m).erase i)).members m)
    (w.setMembers m ((w.members m).erase i)) j
  have hmark (o : Option (Panel α β)) : (o.map fun p => if i = j then { p with
      manager := none, focused := false, closed := true } else p).map Panel.alone =
      (o.map Panel.alone).map fun p =>
        if i = j then { p with manager := none, closed := true } else p := by
    rw [Option.map_map, Option.map_map]
    congr 1
    funext p
    by_cases h : i = j <;> simp [h, Panel.alone]
  rw [detach, panel?_modifyPanel, hmark, hlower, panel?_setMembers, Option.map_map]
  rfl

/-- A panel is taken from its manager: its content and its bindings are told. -/
theorem Fares.leave (hp : w.panel? i = some p) (hm : p.manager = some m) (z : Nat) :
    Fares w (((w.detach m i z).tell i [.destroyed]).signalling i Panel.releaseBindings) := by
  have halone := alone_detach w m i z
  have hsignals := signals_detach w m i z
  obtain ⟨r, hr, hrp⟩ : ∃ r, (w.detach m i z).panel? i = some r ∧
      r.alone = { p.alone with manager := none, closed := true } := by
    have hi := halone i
    rw [hp, Option.map_some, if_pos rfl] at hi
    exact Option.map_eq_some_iff.mp hi
  have hbindings : r.bindings = p.bindings := by
    have h : r.alone.bindings = p.bindings := by rw [hrp]; rfl
    exact h
  have htold : ((w.detach m i z).tell i [.destroyed]).panel? i = some r := hr
  refine ⟨fun j q hq => ?_, fun j hj => ?_⟩
  · by_cases hij : i = j
    · subst hij
      cases hp.symm.trans hq
      refine ⟨r.releaseBindings.1, _, ?_, ?_, .leaves m hm ?_ ?_⟩
      · rw [panel?_signalling, htold, Option.map_some, if_pos rfl]
      · rw [partings_signalling htold, partings_tell, partings_congr hsignals, if_pos rfl,
          if_pos rfl, List.append_assoc, Panel.releaseBindings, parting?_released, hbindings]
        rfl
      · have htenure : r.alone.tenure = ⟨none, true, p.bindings⟩ := by rw [hrp]; rfl
        exact congrArg (fun t => { t with bindings := [] }) htenure
      · have hcalms : p.Calms r.alone := by rw [hrp]; exact .of_eq rfl rfl rfl
        exact ⟨hcalms.closing, hcalms.idle, hcalms.still⟩
    -- The others stand lower at most, which `alone` does not see, and are told nothing.
    · have hrest := halone j
      rw [hq, Option.map_some, if_neg hij] at hrest
      obtain ⟨r', hr', hrq⟩ := Option.map_eq_some_iff.mp hrest
      have hthere : ((w.detach m i z).tell i [.destroyed]).panel? j = some r' := hr'
      refine ⟨r', [], ?_, ?_, .of_alone hrq⟩
      · rw [panel?_signalling, hthere, Option.map_some, if_neg hij]
      · rw [partings_signalling htold, partings_tell, partings_congr hsignals, if_neg hij,
          if_neg hij, List.append_nil]
  · have hij : i ≠ j := by
      rintro rfl
      rw [hj] at hp
      cases hp
    have hrest := halone j
    rw [hj, Option.map_none, Option.map_eq_none_iff] at hrest
    have hthere : ((w.detach m i z).tell i [.destroyed]).panel? j = none := hrest
    refine ⟨?_, ?_⟩
    · rw [panel?_signalling, hthere, Option.map_none]
    · rw [partings_signalling htold, partings_tell, partings_congr hsignals, if_neg hij,
        if_neg hij, List.append_nil, List.append_nil]

theorem Fares.remove (h : w.remove m i = .ok w') : Fares w w' := by
  unfold Workspace.remove at h
  split at h
  · cases h
  next p hp =>
    split at h
    · cases h
    next hm =>
      cases h
      have hcancel : (w.signalling i Panel.cancelGesture).panel? i = some p.cancelGesture.1 := by
        rw [panel?_signalling, hp, Option.map_some, if_pos rfl]
      have hmanager : p.cancelGesture.1.manager = some m :=
        (congrArg Panel.Tenure.manager p.mild_cancelGesture.tenure).trans (not_not.mp hm)
      have hfirst := Fares.signalling (w := w) (i := i) fun p _ => p.mild_cancelGesture
      exact (hfirst.trans (.leave hcancel hmanager p.z)).trans (.raiseTopmost _ m)

theorem signalling_modifyPanel (w : Workspace α β) (i : Nat) (f : Panel α β → Panel α β)
    (g : Panel α β → Panel α β × List (PanelSignal α β)) :
    (w.modifyPanel i f).signalling i g = w.signalling i fun p => g (f p) := by
  cases hp : w.panel? i with
  | none =>
    have hlt : w.panels.length ≤ i := List.getElem?_eq_none_iff.mp hp
    simp [Workspace.signalling, hp, modifyPanel, List.modify_eq_self hlt]
  | some p =>
    have hf : (w.modifyPanel i f).panel? i = some (f p) := by simp [panel?_modifyPanel, hp]
    have htwice (q : Panel α β) : (w.modifyPanel i f).modifyPanel i (fun _ => q) =
        w.modifyPanel i fun _ => q := by
      simp [modifyPanel, List.modify_modify_eq, Function.comp_def]
    simp only [Workspace.signalling, hp, hf, htwice]

theorem Fares.beginClose (w : Workspace α β) (i : Nat) : Fares w (w.beginClose i).2 := by
  unfold Workspace.beginClose
  split
  · exact .refl w
  · split
    · exact .refl w
    · rw [signalling_modifyPanel]
      exact .signalling fun p _ => p.mild_close

theorem Fares.closeAtOnce (w : Workspace α β) (m i : Nat) :
    Fares (w.beginClose i).2 (w.closeAtOnce m i).2 := by
  -- A removal that fails leaves the panel as the beginning of the closing left it.
  unfold Workspace.closeAtOnce
  split
  next v hv =>
    rw [hv]
    exact .refl v
  next v hv =>
    rw [hv]
    split
    next hremove => exact .remove hremove
    next => exact .refl v

theorem Fares.finishClosing (h : w.finishClosing i = .ok w') : Fares w w' := by
  unfold Workspace.finishClosing at h
  split at h
  · split at h
    · cases h
      exact .refl w
    · exact .remove h
  · cases h
    exact .refl w

theorem Fares.raiseManaged (w : Workspace α β) (i : Nat) : Fares w (w.raiseManaged i) := by
  unfold Workspace.raiseManaged
  split
  · exact .raise w _ i
  · exact .refl w

theorem closing_raiseManaged (hp : w.panel? i = some p)
    (hq : (w.raiseManaged i).panel? i = some q) : q.closing = p.closing := by
  have hmap : ((w.raiseManaged i).panel? i).map Panel.closing =
      (w.panel? i).map Panel.closing := by
    unfold Workspace.raiseManaged
    split
    · exact map_panel?_raise w _ i i fun _ _ _ => rfl
    · rfl
  rw [hp, hq] at hmap
  exact Option.some.inj hmap

theorem Fares.beginMove (w : Workspace α β) (i : Nat) (pointer : Point α) :
    Fares w (w.beginMove i pointer) := by
  unfold Workspace.beginMove
  split
  · exact .refl w
  next p hp =>
    split
    · exact .refl w
    next hc =>
      refine (Fares.raiseManaged w i).trans (.signalling fun q hq => q.mild_beginMove ?_ pointer)
      rw [closing_raiseManaged hp hq]
      simpa using hc

theorem Fares.beginResize (w : Workspace α β) (i : Nat) (pointer : Point α) :
    Fares w (w.beginResize i pointer).2 := by
  unfold Workspace.beginResize
  split
  · exact .refl w
  next p hp =>
    split
    · exact .refl w
    next hc =>
      refine (Fares.raiseManaged w i).trans (.signalling fun q hq => q.mild_beginResize ?_ pointer)
      rw [closing_raiseManaged hp hq]
      simp only [Bool.or_eq_true, not_or] at hc
      simpa using hc.1

theorem alone_add (h : w.add m i = .ok w') (j : Nat) :
    (w'.panel? j).map Panel.alone = (w.panel? j).map fun p =>
      if i = j then { p.alone with manager := some m } else p.alone := by
  unfold Workspace.add at h
  split at h
  · cases h
  · split at h
    · cases h
    · cases h
      rw [alone_raise, attach, panel?_modifyPanel, panel?_setMembers, Option.map_map]
      congr 1
      funext p
      by_cases hij : i = j <;> simp [hij, Panel.alone]

theorem signals_add (h : w.add m i = .ok w') : w'.signals = w.signals := by
  unfold Workspace.add at h
  split at h
  · cases h
  · split at h
    · cases h
    · cases h
      exact signals_raise _ m i

theorem manager_of_add (h : w.add m i = .ok w') (hp : w.panel? i = some p) : p.manager = none := by
  unfold Workspace.add at h
  rw [hp] at h
  dsimp only at h
  split at h
  · cases h
  next hm => simpa using hm

variable [Scalar α]

theorem Fares.toggleExpanded (w : Workspace α β) (i : Nat) : Fares w (w.toggleExpanded i).2 :=
  .signalling fun p _ => p.mild_toggleExpanded

theorem Fares.closingFrame {time : Int} {action : FrameAction}
    (h : w.closingFrame i time = .ok (action, w')) : Fares w w' := by
  unfold Workspace.closingFrame at h
  split at h
  next c p _ hp =>
    obtain ⟨stages, _, h⟩ := Effect.bind_eq_ok h
    cases h
    exact .replace hp ⟨p.tenure_fade stages, p.calms_fade stages, rfl⟩
  · cases h
    exact .refl w

theorem Fares.moveTo {pointer : Point α} {b : Bool} (h : w.moveTo i pointer = .ok (b, w')) :
    Fares w w' := by
  unfold Workspace.moveTo at h
  split at h
  · cases h
  next p hp =>
    obtain ⟨moved, hmove, h⟩ := Effect.bind_eq_ok h
    cases h
    exact .replace hp (Panel.mild_moveTo hmove)

theorem Fares.resizeTo {pointer : Point α} {b : Bool} (h : w.resizeTo i pointer = .ok (b, w')) :
    Fares w w' := by
  unfold Workspace.resizeTo at h
  split at h
  · cases h
  next p hp =>
    obtain ⟨resized, hresize, h⟩ := Effect.bind_eq_ok h
    cases h
    have hreplace := Fares.replace hp (Panel.mild_resizeTo hresize)
    split
    · exact hreplace.trans (.tell _ i rfl)
    · exact hreplace

end Workspace

end DebugDesk
