import DebugDesk.Proofs.Panel.Leaving

/-!
# Panels in hand

A panel is dragged, collapsed and expanded by what is done to it by hand, and let go by managers
that close or remove it. `Stage.goes` tells all that an action can do to what gestures see of a
panel, and what its content is told then; the cases are those of `Panel.Goes`.
-/
namespace DebugDesk

inductive Notice (α : Type) where
  | resized (width height : α)
  | suppressed (flag : Bool)

def PanelSignal.notice? {α β : Type} : PanelSignal α β → Option (Notice α)
  | .resized width height => some (.resized width height)
  | .suppressed flag => some (.suppressed flag)
  | .destroyed | .released _ => none

namespace Panel

variable {α β : Type} {p q r : Panel α β} {told told' : List (Notice α)}

/-- What gestures see of a panel. -/
structure Grip (α : Type) where
  x : α
  y : α
  width : α
  height : α
  expanded : Bool
  elevated : Bool
  gesture : Option Gesture
  press : Point α
  start : Point α
  headerHeight : α
  minWidth : α
  minHeight : α

def grip (p : Panel α β) : Grip α :=
  { x := p.x, y := p.y, width := p.width, height := p.height, expanded := p.expanded
    elevated := p.elevated, gesture := p.gesture, press := p.press, start := p.start
    headerHeight := p.headerHeight, minWidth := p.minWidth, minHeight := p.minHeight }

def Grip.free (g : Grip α) : Grip α :=
  { g with gesture := none, elevated := g.elevated && g.gesture != some .move }

def Grip.farewell (g : Grip α) : List (Notice α) :=
  if g.gesture.isSome then [.suppressed false] else []

theorem Grip.free_of_idle {g : Grip α} (h : g.gesture = none) : g.free = g := by
  obtain ⟨x, y, width, height, expanded, elevated, gesture, _⟩ := g
  obtain rfl : gesture = none := h
  simp [free]

theorem grip_of_alone (h : q.alone = p.alone) : q.grip = p.grip := by
  have hgrip : q.alone.grip = p.alone.grip := congrArg grip h
  exact hgrip

/-- What managers do to a panel: nothing that gestures see, or they let go of it. As long as they do
not, they keep it. -/
inductive Slips (p q : Panel α β) : List (Notice α) → Prop
  | holds (grip : q.grip = p.grip) (manager : ∀ m, p.manager = some m → q.manager = some m) :
      Slips p q []
  | frees (grip : q.grip = p.grip.free) : Slips p q p.grip.farewell

theorem Slips.refl (p : Panel α β) : p.Slips p [] := .holds rfl fun _ => id

theorem Slips.of_alone (h : q.alone = p.alone) : p.Slips q [] := by
  have hmanager : q.alone.manager = p.alone.manager := congrArg Panel.manager h
  exact .holds (grip_of_alone h) fun _ hm => Eq.trans hmanager hm

theorem Slips.trans (h : p.Slips q told) (h' : q.Slips r told') :
    p.Slips r (told ++ told') := by
  cases h with
  | holds hgrip hmanager =>
    rw [List.nil_append]
    cases h' with
    | holds hgrip' hmanager' =>
      exact .holds (hgrip'.trans hgrip) fun m hm => hmanager' m (hmanager m hm)
    | frees hgrip' =>
      rw [hgrip] at hgrip' ⊢
      exact .frees hgrip'
  | frees hgrip =>
    -- What was let go before is not told so again.
    have hidle : q.grip.gesture = none := by rw [hgrip]; rfl
    have hnothing : q.grip.farewell = [] := by rw [Grip.farewell, hidle]; rfl
    cases h' with
    | holds hgrip' _ =>
      rw [List.append_nil]
      exact .frees (hgrip'.trans hgrip)
    | frees hgrip' =>
      rw [hnothing, List.append_nil]
      rw [Grip.free_of_idle hidle, hgrip] at hgrip'
      exact .frees hgrip'

theorem slips_cancelGesture (p : Panel α β) :
    p.Slips p.cancelGesture.1 (p.cancelGesture.2.filterMap PanelSignal.notice?) := by
  cases hg : p.gesture with
  | none =>
    have hsame : p.cancelGesture = (p, []) := by simp only [cancelGesture, hg]
    rw [hsame]
    exact .refl p
  | some g =>
    have htold : p.cancelGesture.2.filterMap PanelSignal.notice? = p.grip.farewell := by
      cases g <;> simp [cancelGesture, endMove, endResize, hg, grip, Grip.farewell,
        PanelSignal.notice?]
    rw [htold]
    refine .frees ?_
    cases g <;> simp [cancelGesture, endMove, endResize, hg, grip, Grip.free]

theorem slips_releaseBindings (p : Panel α β) :
    p.Slips p.releaseBindings.1 (p.releaseBindings.2.filterMap PanelSignal.notice?) := by
  have htold : p.releaseBindings.2.filterMap PanelSignal.notice? = [] := by
    simp [releaseBindings, PanelSignal.notice?]
  rw [htold]
  exact .holds rfl fun _ => id

theorem slips_fade [Scalar α] (p : Panel α β) (stages : α) : p.Slips (p.fade stages).2 [] := by
  unfold fade
  repeat' split
  all_goals exact .holds rfl fun _ => id

/-- What is done to a panel by hand. -/
inductive Touch (α : Type) where
  | toggle
  | beginMove (pointer : Point α)
  | moveTo (pointer : Point α)
  | endMove
  | beginResize (pointer : Point α)
  | resizeTo (pointer : Point α)
  | endResize
  | cancel

/-- Whether a panel answers to a touch whatever gesture it is in. -/
def Answers (p : Panel α β) : Touch α → Prop
  | .toggle | .beginMove _ => p.closing = false
  | .beginResize _ => p.closing = false ∧ p.expanded = true
  | .moveTo _ | .endMove | .resizeTo _ | .endResize | .cancel => False

variable [Scalar α]

/-- How what gestures see of a panel goes on, touched or not, and what is told. -/
inductive Goes (p : Panel α β) : Option (Touch α) → Grip α → List (Notice α) → Prop
  | rests (touch : Option (Touch α)) (idle : ∀ t ∈ touch, ¬ p.Answers t) : Goes p touch p.grip []
  | frees (touch : Option (Touch α)) (idle : ∀ t ∈ touch, ¬ p.Answers t) :
      Goes p touch p.grip.free p.grip.farewell
  | toggles (opened : p.closing = false) :
      Goes p (some .toggle) { p.grip with expanded := !p.expanded }
        (if p.expanded then [] else [.resized p.width p.bodyHeight])
  | lifts (pointer : Point α) (opened : p.closing = false) :
      Goes p (some (.beginMove pointer))
        { p.grip with
          gesture := some .move, press := pointer, start := ⟨p.x, p.y⟩, elevated := true }
        [.suppressed true]
  | moves (pointer : Point α) (moving : p.gesture = some .move) (x y : α) :
      Goes p (some (.moveTo pointer)) { p.grip with x, y } []
  | grabs (pointer : Point α) (opened : p.closing = false) (expanded : p.expanded = true) :
      Goes p (some (.beginResize pointer))
        { p.grip with gesture := some .resize, press := pointer, start := ⟨p.width, p.height⟩ }
        [.suppressed true]
  | resizes (pointer : Point α) (resizing : p.gesture = some .resize) (width height : α) :
      Goes p (some (.resizeTo pointer)) { p.grip with width, height }
        [.resized width (height - p.headerHeight)]

theorem Slips.goes (h : p.Slips q told) : p.Goes none q.grip told := by
  cases h with
  | holds grip _ => exact grip ▸ .rests none (by simp)
  | frees grip => exact grip ▸ .frees none (by simp)

/-- Where a panel stands among others does not matter. -/
theorem Goes.of_alone {touch : Option (Touch α)} {g : Grip α} (h : r.Goes touch g told)
    (hr : r.alone = p.alone) : p.Goes touch g told := by
  have hp : r = { p with z := r.z, focused := r.focused } := by
    have hback := congrArg (fun u : Panel α β => { u with z := r.z, focused := r.focused }) hr
    exact hback
  rw [hp] at h
  cases h with
  | rests _ idle => exact .rests _ idle
  | frees _ idle => exact .frees _ idle
  | toggles opened => exact .toggles opened
  | lifts pointer opened => exact .lifts pointer opened
  | moves pointer moving x y => exact .moves (p := p) pointer moving x y
  | grabs pointer opened expanded => exact .grabs pointer opened expanded
  | resizes pointer resizing width height => exact .resizes (p := p) pointer resizing width height

/-- A change by hand, with what gestures see of it. -/
structure Moved (p : Panel α β) (touch : Touch α) (r : Panel α β × List (PanelSignal α β)) :
    Prop where
  goes : p.Goes (some touch) r.1.grip (r.2.filterMap PanelSignal.notice?)
  manager : r.1.manager = p.manager

theorem Moved.rests {touch : Touch α} (idle : ¬ p.Answers touch) : p.Moved touch (p, []) :=
  ⟨.rests _ (by simpa using idle), rfl⟩

theorem moved_of_free {touch : Touch α} (idle : ¬ p.Answers touch)
    (hgesture : p.gesture.isSome = true) {r : Panel α β × List (PanelSignal α β)}
    (hr : r.1.grip = p.grip.free) (htold : r.2 = [.suppressed false])
    (hmanager : r.1.manager = p.manager) : p.Moved touch r := by
  have hfarewell : r.2.filterMap PanelSignal.notice? = p.grip.farewell := by
    have hsome : p.grip.gesture.isSome = true := hgesture
    rw [htold, Grip.farewell, if_pos hsome]
    rfl
  refine ⟨?_, hmanager⟩
  rw [hr, hfarewell]
  exact .frees _ (by simpa using idle)

theorem moved_endMove (p : Panel α β) : p.Moved .endMove p.endMove := by
  unfold endMove
  split
  next h => exact moved_of_free id (by simp [h]) (by simp [grip, Grip.free, h]) rfl rfl
  next => exact .rests id

theorem moved_endResize (p : Panel α β) : p.Moved .endResize p.endResize := by
  unfold endResize
  split
  next h => exact moved_of_free id (by simp [h]) (by simp [grip, Grip.free, h]) rfl rfl
  next => exact .rests id

theorem moved_cancelGesture (p : Panel α β) : p.Moved .cancel p.cancelGesture := by
  unfold cancelGesture
  split
  next h =>
    rw [endMove, if_pos h]
    exact moved_of_free id (by simp [h]) (by simp [grip, Grip.free, h]) rfl rfl
  next h =>
    rw [endResize, if_pos h]
    exact moved_of_free id (by simp [h]) (by simp [grip, Grip.free, h]) rfl rfl
  next => exact .rests id

theorem moved_toggleExpanded (p : Panel α β) : p.Moved .toggle p.toggleExpanded := by
  unfold toggleExpanded
  split
  next h => exact .rests (by simp [Answers, h])
  next h =>
    have hopen : p.closing = false := by simpa using h
    have hgoes := Goes.toggles hopen
    refine ⟨?_, rfl⟩
    cases he : p.expanded with
    | true => simpa [he, grip] using hgoes
    | false => simpa [he, grip, PanelSignal.notice?, bodyHeight] using hgoes

theorem moved_beginMove (h : p.closing = false) (pointer : Point α) :
    p.Moved (.beginMove pointer) (p.beginMove pointer) := ⟨.lifts pointer h, rfl⟩

theorem moved_beginResize (h : p.closing = false) (he : p.expanded = true) (pointer : Point α) :
    p.Moved (.beginResize pointer) (p.beginResize pointer) := ⟨.grabs pointer h he, rfl⟩

theorem moved_moveTo {grid : α} {pointer : Point α} {b : Bool}
    (h : p.moveTo grid pointer = .ok (b, q)) : p.Moved (.moveTo pointer) (q, []) := by
  unfold moveTo at h
  split at h
  · cases h
    exact .rests id
  next hg =>
    simp only [Bind.bind, Except.bind, pure, Except.pure] at h
    repeat' split at h
    all_goals cases h
    · exact .rests id
    · exact ⟨.moves pointer (not_not.mp hg) _ _, rfl⟩

/-- What is told of a panel that was resized on, or was not. -/
theorem moved_resizeTo {grid : α} {pointer : Point α} {b : Bool}
    (h : p.resizeTo grid pointer = .ok (b, q)) :
    p.Moved (.resizeTo pointer) (q, if b then [.resized q.width q.bodyHeight] else []) := by
  unfold resizeTo at h
  split at h
  · cases h
    exact .rests id
  next hg =>
    simp only [Bind.bind, Except.bind, pure, Except.pure] at h
    repeat' split at h
    all_goals cases h
    · exact .rests id
    · exact ⟨.resizes pointer (not_not.mp hg) _ _, rfl⟩

end Panel

namespace Workspace

variable {α β : Type} {w w' w'' : Workspace α β} {m i j : Nat} {p q : Panel α β}

def notices (w : Workspace α β) (i : Nat) : List (Notice α) :=
  (w.signals.filter (·.1 = i)).filterMap fun s => s.2.notice?

def grids (w : Workspace α β) : List α := w.managers.map PanelManager.gridSize

theorem notices_congr (h : w'.signals = w.signals) (i : Nat) : w'.notices i = w.notices i := by
  rw [notices, h, notices]

theorem notices_tell (w : Workspace α β) (i j : Nat) (signals : List (PanelSignal α β)) :
    (w.tell i signals).notices j =
      w.notices j ++ if i = j then signals.filterMap PanelSignal.notice? else [] := by
  simp only [notices, tell, List.filter_append, List.filterMap_append]
  congr 1
  by_cases h : i = j
  · subst h
    rw [if_pos rfl, List.filter_eq_self.mpr (by simp), List.filterMap_map]
    rfl
  · rw [if_neg h, List.filter_eq_nil_iff.mpr (by simp [h]), List.filterMap_nil]

theorem grids_setMembers (w : Workspace α β) (m : Nat) (is : List Nat) :
    (w.setMembers m is).grids = w.grids := by
  simp only [grids, setMembers]
  refine List.ext_getElem? fun n => ?_
  simp only [List.getElem?_map, List.getElem?_modify, Option.map_eq_map]
  cases w.managers[n]? with
  | none => rfl
  | some manager => by_cases h : m = n <;> simp [h]

theorem grids_foldl_modifyPanel (f : Nat → Panel α β → Panel α β) (is : List Nat)
    (w : Workspace α β) : (is.foldl (fun w i => w.modifyPanel i (f i)) w).grids = w.grids := by
  induction is generalizing w with
  | nil => rfl
  | cons i is ih => exact ih (w.modifyPanel i (f i))

theorem grids_raise (w : Workspace α β) (m i : Nat) : (w.raise m i).grids = w.grids := by
  cases hp : w.panel? i with
  | none => simp only [raise, hp]
  | some p =>
    rw [raise_eq w m hp]
    exact grids_foldl_modifyPanel _ _ w

theorem grids_detach (w : Workspace α β) (m i z : Nat) : (w.detach m i z).grids = w.grids :=
  (grids_foldl_modifyPanel _ _ _).trans (grids_setMembers w m _)

/-- What becomes of one panel while nobody touches it. -/
structure SlipsAt (i : Nat) (w w' : Workspace α β) : Prop where
  grids : w'.grids = w.grids
  panel : ∀ p, w.panel? i = some p → ∃ q told, w'.panel? i = some q ∧
    w'.notices i = w.notices i ++ told ∧ p.Slips q told

theorem SlipsAt.refl (i : Nat) (w : Workspace α β) : SlipsAt i w w :=
  ⟨rfl, fun p hp => ⟨p, [], hp, (List.append_nil _).symm, .refl p⟩⟩

theorem SlipsAt.trans (h : SlipsAt i w w') (h' : SlipsAt i w' w'') : SlipsAt i w w'' := by
  refine ⟨h'.grids.trans h.grids, fun p hp => ?_⟩
  obtain ⟨q, told, hq, htold, hpq⟩ := h.panel p hp
  obtain ⟨r, told', hr, htold', hqr⟩ := h'.panel q hq
  exact ⟨r, told ++ told', hr, by rw [htold', htold, List.append_assoc], hpq.trans hqr⟩

instance : IsPreorder (Workspace α β) (SlipsAt i) where
  refl := .refl i
  trans _ _ _ := .trans

theorem SlipsAt.of_alone (h : (w'.panel? i).map Panel.alone = (w.panel? i).map Panel.alone)
    (hs : w'.signals = w.signals) (hg : w'.grids = w.grids) : SlipsAt i w w' := by
  refine ⟨hg, fun p hp => ?_⟩
  rw [hp, Option.map_some] at h
  obtain ⟨q, hq, hqp⟩ := Option.map_eq_some_iff.mp h
  exact ⟨q, [], hq, by rw [notices_congr hs, List.append_nil], .of_alone hqp⟩

theorem SlipsAt.raise (w : Workspace α β) (m j : Nat) : SlipsAt i w (w.raise m j) :=
  .of_alone (alone_raise w m j i) (signals_raise w m j) (grids_raise w m j)

theorem SlipsAt.raiseTopmost (w : Workspace α β) (m : Nat) : SlipsAt i w (w.raiseTopmost m) := by
  unfold Workspace.raiseTopmost
  split
  · exact .raise w m _
  · exact .refl i w

theorem SlipsAt.raiseManaged (w : Workspace α β) (j : Nat) : SlipsAt i w (w.raiseManaged j) := by
  unfold Workspace.raiseManaged
  split
  · exact .raise w _ j
  · exact .refl i w

theorem SlipsAt.focus (h : w.focus m j = .ok w') : SlipsAt i w w' := by
  unfold Workspace.focus at h
  split at h
  · cases h
    exact .raise w m j
  · cases h

theorem SlipsAt.tell (w : Workspace α β) (j : Nat) {signals : List (PanelSignal α β)}
    (h : signals.filterMap PanelSignal.notice? = []) : SlipsAt i w (w.tell j signals) := by
  refine ⟨rfl, fun p hp => ⟨p, [], hp, ?_, .refl p⟩⟩
  rw [notices_tell, h, ite_self]

theorem SlipsAt.signalling {f : Panel α β → Panel α β × List (PanelSignal α β)}
    (hf : j = i → ∀ p, w.panel? j = some p →
      p.Slips (f p).1 ((f p).2.filterMap PanelSignal.notice?)) :
    SlipsAt i w (w.signalling j f) := by
  unfold Workspace.signalling
  split
  next p hp =>
    refine ⟨rfl, fun q hq => ?_⟩
    by_cases hji : j = i
    · subst hji
      cases hp.symm.trans hq
      refine ⟨(f p).1, _, ?_, ?_, hf rfl p hp⟩
      · rw [panel?_tell, panel?_modifyPanel, hp, Option.map_some, if_pos rfl]
      · rw [notices_tell, if_pos rfl]
        rfl
    · refine ⟨q, [], ?_, ?_, .refl q⟩
      · rw [panel?_tell, panel?_modifyPanel, hq, Option.map_some, if_neg hji]
      · rw [notices_tell, if_neg hji]
        rfl
  next => exact .refl i w

theorem SlipsAt.replace {r : Panel α β} (hp : w.panel? j = some p) (hr : j = i → p.Slips r []) :
    SlipsAt i w (w.modifyPanel j fun _ => r) := by
  rw [← signalling_const hp r]
  refine .signalling fun hji p' hp' => ?_
  cases hp.symm.trans hp'
  exact hr hji

/-- A panel that is taken from its manager is dragged no more. -/
theorem SlipsAt.detach (w : Workspace α β) (m j z : Nat)
    (hidle : ∀ p, w.panel? j = some p → p.gesture = none) : SlipsAt i w (w.detach m j z) := by
  refine ⟨grids_detach w m j z, fun p hp => ?_⟩
  have halone := alone_detach w m j z i
  rw [hp, Option.map_some] at halone
  obtain ⟨q, hq, hqp⟩ := Option.map_eq_some_iff.mp halone
  refine ⟨q, [], hq, by rw [notices_congr (signals_detach w m j z), List.append_nil], ?_⟩
  by_cases hji : j = i
  · subst hji
    rw [if_pos rfl] at hqp
    have hgesture : p.grip.gesture = none := hidle p hp
    have hgrip : q.alone.grip = p.grip := by rw [hqp]; rfl
    have hfrees : q.grip = p.grip.free := (Panel.Grip.free_of_idle hgesture).symm ▸ hgrip
    have hnothing : p.grip.farewell = [] := by rw [Panel.Grip.farewell, hgesture]; rfl
    exact hnothing ▸ .frees hfrees
  · rw [if_neg hji] at hqp
    exact .of_alone hqp

theorem SlipsAt.remove (h : w.remove m j = .ok w') : SlipsAt i w w' := by
  unfold Workspace.remove at h
  split at h
  · cases h
  next p hp =>
    split at h
    · cases h
    · cases h
      have hcancel : SlipsAt i w (w.signalling j Panel.cancelGesture) :=
        .signalling fun _ p _ => p.slips_cancelGesture
      have hdetach : SlipsAt i (w.signalling j Panel.cancelGesture)
          ((w.signalling j Panel.cancelGesture).detach m j p.z) := by
        refine .detach _ m j p.z fun q hq => ?_
        rw [panel?_signalling, hp, Option.map_some, if_pos rfl] at hq
        exact Option.some.inj hq ▸ p.gesture_cancelGesture
      have hrelease (w : Workspace α β) : SlipsAt i w (w.signalling j Panel.releaseBindings) :=
        .signalling fun _ p _ => p.slips_releaseBindings
      exact (hcancel.trans hdetach).trans
        (((SlipsAt.tell _ j rfl).trans (hrelease _)).trans (.raiseTopmost _ m))

theorem SlipsAt.beginClose (w : Workspace α β) (j : Nat) : SlipsAt i w (w.beginClose j).2 := by
  unfold Workspace.beginClose
  split
  · exact .refl i w
  · split
    · exact .refl i w
    · rw [signalling_modifyPanel]
      refine .signalling fun _ p _ => ?_
      have hmarked : p.Slips { p with closing := true } [] := .holds rfl fun _ => id
      exact hmarked.trans (Panel.slips_cancelGesture _)

theorem SlipsAt.add (h : w.add m j = .ok w') : SlipsAt i w w' := by
  have hgrids : w'.grids = w.grids := by
    unfold Workspace.add at h
    split at h
    · cases h
    · split at h
      · cases h
      · cases h
        exact (grids_raise _ m j).trans (grids_setMembers w m _)
  refine ⟨hgrids, fun p hp => ?_⟩
  have halone := alone_add h i
  rw [hp, Option.map_some] at halone
  obtain ⟨q, hq, hqp⟩ := Option.map_eq_some_iff.mp halone
  refine ⟨q, [], hq, by rw [notices_congr (signals_add h), List.append_nil], ?_⟩
  by_cases hji : j = i
  · subst hji
    rw [if_pos rfl] at hqp
    have hgrip : q.alone.grip = p.grip := by rw [hqp]; rfl
    exact .holds hgrip fun n hn => absurd (manager_of_add h hp) (by simp [hn])
  · rw [if_neg hji] at hqp
    exact .of_alone hqp

theorem SlipsAt.finishClosing (h : w.finishClosing j = .ok w') : SlipsAt i w w' := by
  unfold Workspace.finishClosing at h
  split at h
  · split at h
    · cases h
      exact .refl i w
    · exact .remove h
  · cases h
    exact .refl i w

theorem SlipsAt.closeAtOnce (w : Workspace α β) (m j : Nat) :
    SlipsAt i w (w.closeAtOnce m j).2 := by
  have hbegun := SlipsAt.beginClose (i := i) w j
  unfold Workspace.closeAtOnce
  split
  next v hv => rwa [hv] at hbegun
  next v hv =>
    rw [hv] at hbegun
    split
    next v' hremove => exact hbegun.trans (.remove hremove)
    next => exact hbegun

theorem SlipsAt.of_signalling (h : j ≠ i) (f : Panel α β → Panel α β × List (PanelSignal α β)) :
    SlipsAt i w (w.signalling j f) := .signalling fun hji => absurd hji h

theorem SlipsAt.beginMove (h : j ≠ i) (w : Workspace α β) (pointer : Point α) :
    SlipsAt i w (w.beginMove j pointer) := by
  unfold Workspace.beginMove
  split
  · exact .refl i w
  · split
    · exact .refl i w
    · exact (SlipsAt.raiseManaged w j).trans (.of_signalling h _)

theorem SlipsAt.beginResize (h : j ≠ i) (w : Workspace α β) (pointer : Point α) :
    SlipsAt i w (w.beginResize j pointer).2 := by
  unfold Workspace.beginResize
  split
  · exact .refl i w
  · split
    · exact .refl i w
    · exact (SlipsAt.raiseManaged w j).trans (.of_signalling h _)

/-- What becomes of a panel that is touched. -/
structure TouchedAt [Scalar α] (i : Nat) (touch : Panel.Touch α) (p : Panel α β)
    (w w' : Workspace α β) : Prop where
  grids : w'.grids = w.grids
  panel : ∃ q told, w'.panel? i = some q ∧ w'.notices i = w.notices i ++ told ∧
    p.Goes (some touch) q.grip told ∧ q.manager = p.manager

section Touches

variable [Scalar α] {touch : Panel.Touch α}

theorem TouchedAt.rests (hp : w.panel? i = some p) (idle : ¬ p.Answers touch) :
    TouchedAt i touch p w w :=
  ⟨rfl, p, [], hp, (List.append_nil _).symm, .rests _ (by simpa using idle), rfl⟩

theorem TouchedAt.signalling (hp : w.panel? i = some p)
    {f : Panel α β → Panel α β × List (PanelSignal α β)} (hf : p.Moved touch (f p)) :
    TouchedAt i touch p w (w.signalling i f) := by
  simp only [Workspace.signalling, hp]
  refine ⟨rfl, (f p).1, _, ?_, ?_, hf.goes, hf.manager⟩
  · rw [panel?_tell, panel?_modifyPanel, hp, Option.map_some, if_pos rfl]
  · rw [notices_tell, if_pos rfl]
    rfl

/-- A panel may get the focus before it is touched. -/
theorem TouchedAt.signalling_raised (hp : w.panel? i = some p)
    {f : Panel α β → Panel α β × List (PanelSignal α β)}
    (hf : ∀ r : Panel α β, r.alone = p.alone → r.Moved touch (f r)) :
    TouchedAt i touch p w ((w.raiseManaged i).signalling i f) := by
  have hraised : ((w.raiseManaged i).panel? i).map Panel.alone = (w.panel? i).map Panel.alone := by
    unfold Workspace.raiseManaged
    split
    · exact alone_raise w _ i i
    · rfl
  have hsignals : (w.raiseManaged i).signals = w.signals := by
    unfold Workspace.raiseManaged
    split
    · exact signals_raise w _ i
    · rfl
  rw [hp, Option.map_some] at hraised
  obtain ⟨r, hr, halone⟩ := Option.map_eq_some_iff.mp hraised
  obtain ⟨hgrids, q, told, hq, htold, hgoes, hmanager⟩ := TouchedAt.signalling hr (hf r halone)
  have hsame : r.alone.manager = p.alone.manager := congrArg Panel.manager halone
  refine ⟨hgrids.trans (SlipsAt.raiseManaged (i := i) w i).grids, q, told, hq, ?_,
    hgoes.of_alone halone, hmanager.trans hsame⟩
  rw [htold, notices_congr hsignals]

theorem TouchedAt.beginMove (hp : w.panel? i = some p) (pointer : Point α) :
    TouchedAt i (.beginMove pointer) p w (w.beginMove i pointer) := by
  simp only [Workspace.beginMove, hp]
  split
  next h => exact .rests hp (by simp [Panel.Answers, h])
  next h =>
    have hopen : p.closing = false := by simpa using h
    refine .signalling_raised hp fun r hr => Panel.moved_beginMove ?_ pointer
    have hsame : r.alone.closing = p.alone.closing := congrArg Panel.closing hr
    exact hsame.trans hopen

theorem TouchedAt.beginResize (hp : w.panel? i = some p) (pointer : Point α) :
    TouchedAt i (.beginResize pointer) p w (w.beginResize i pointer).2 := by
  simp only [Workspace.beginResize, hp]
  split
  next h => exact .rests hp fun hanswers => by simp [hanswers.1, hanswers.2] at h
  next h =>
    have hboth : p.closing = false ∧ p.expanded = true := by simpa using h
    refine .signalling_raised hp fun r hr => Panel.moved_beginResize ?_ ?_ pointer
    · have hsame : r.alone.closing = p.alone.closing := congrArg Panel.closing hr
      exact hsame.trans hboth.1
    · have hsame : r.alone.expanded = p.alone.expanded := congrArg Panel.expanded hr
      exact hsame.trans hboth.2

theorem TouchedAt.moveTo {pointer : Point α} {b : Bool} (hp : w.panel? i = some p)
    (h : w.moveTo i pointer = .ok (b, w')) : TouchedAt i (.moveTo pointer) p w w' := by
  simp only [Workspace.moveTo, hp] at h
  obtain ⟨moved, hmove, h⟩ := Effect.bind_eq_ok h
  cases h
  rw [← signalling_const hp moved.2]
  exact .signalling hp (Panel.moved_moveTo hmove)

theorem TouchedAt.resizeTo {pointer : Point α} {b : Bool} (hp : w.panel? i = some p)
    (h : w.resizeTo i pointer = .ok (b, w')) : TouchedAt i (.resizeTo pointer) p w w' := by
  simp only [Workspace.resizeTo, hp] at h
  obtain ⟨resized, hresize, h⟩ := Effect.bind_eq_ok h
  have hw' : w' = w.signalling i fun _ => (resized.2,
      if resized.1 then [.resized resized.2.width resized.2.bodyHeight] else []) := by
    cases h
    simp only [Workspace.signalling, hp]
    split
    · rfl
    · simp [Workspace.tell]
  rw [hw']
  exact .signalling hp (Panel.moved_resizeTo hresize)

theorem SlipsAt.moveTo {pointer : Point α} {b : Bool} (h : j ≠ i)
    (hw : w.moveTo j pointer = .ok (b, w')) : SlipsAt i w w' := by
  unfold Workspace.moveTo at hw
  split at hw
  · cases hw
  next p hp =>
    obtain ⟨moved, _, hw⟩ := Effect.bind_eq_ok hw
    cases hw
    exact .replace hp fun hji => absurd hji h

theorem SlipsAt.resizeTo {pointer : Point α} {b : Bool} (h : j ≠ i)
    (hw : w.resizeTo j pointer = .ok (b, w')) : SlipsAt i w w' := by
  unfold Workspace.resizeTo at hw
  split at hw
  · cases hw
  next p hp =>
    obtain ⟨resized, _, hw⟩ := Effect.bind_eq_ok hw
    cases hw
    have hreplace : SlipsAt i w (w.modifyPanel j fun _ => resized.2) :=
      .replace hp fun hji => absurd hji h
    split
    · refine hreplace.trans ⟨rfl, fun q hq => ⟨q, [], hq, ?_, .refl q⟩⟩
      rw [notices_tell, if_neg h]
    · exact hreplace

theorem SlipsAt.closingFrame {time : Int} {action : FrameAction}
    (h : w.closingFrame j time = .ok (action, w')) : SlipsAt i w w' := by
  unfold Workspace.closingFrame at h
  split at h
  next c p _ hp =>
    obtain ⟨stages, _, h⟩ := Effect.bind_eq_ok h
    cases h
    exact .replace hp fun _ => p.slips_fade stages
  · cases h
    exact .refl i w

end Touches

end Workspace

namespace PanelScript

/-- What an action does to a panel by hand. -/
def Action.touch? {α β : Type} (i : Nat) : Action α β → Option (Panel.Touch α)
  | .command (.toggle j) => if j = i then some .toggle else none
  | .command (.beginMove j pointer) => if j = i then some (.beginMove pointer) else none
  | .command (.moveTo j pointer) => if j = i then some (.moveTo pointer) else none
  | .command (.endMove j) => if j = i then some .endMove else none
  | .command (.beginResize j pointer) => if j = i then some (.beginResize pointer) else none
  | .command (.resizeTo j pointer) => if j = i then some (.resizeTo pointer) else none
  | .command (.endResize j) => if j = i then some .endResize else none
  | .command (.cancelGesture j) => if j = i then some .cancel else none
  | _ => none

namespace Stage

open Workspace hiding bind

variable {α β : Type} [Scalar α] {s : Stage α β} {x : Action α β} {i : Nat} {p : Panel α β}

theorem bears_slipsAt (i : Nat) : Bears (Workspace.SlipsAt (α := α) (β := β) i) where
  remove := .remove
  beginClose w j := .beginClose w j
  closingFrame := .closingFrame
  closings _ _ := .of_alone rfl rfl rfl

theorem ne_of_touch? {γ : Type} {i j : Nat} {touch : γ}
    (h : (if j = i then some touch else none) = none) : j ≠ i := by
  intro hji
  rw [if_pos hji] at h
  cases h

theorem eq_of_touch? {γ : Type} {i j : Nat} {touch touch' : γ}
    (h : (if j = i then some touch else none) = some touch') : j = i ∧ touch = touch' := by
  by_cases hji : j = i
  · rw [if_pos hji] at h
    exact ⟨hji, Option.some.inj h⟩
  · rw [if_neg hji] at h
    cases h

/-- Whatever is not done to a panel by hand, managers do to it. -/
theorem slips_act (s : Stage α β) (hx : x.touch? i = none) : Along (SlipsAt i) s (s.act x) := by
  cases x with
  | clear => exact (bears_slipsAt i).clear s
  | command c =>
    suffices h : (perform c).Respects (Along (SlipsAt i)) from h s
    cases c with
    | create title x y width height expanded headerHeight minWidth minHeight =>
      refine along_change fun w => ⟨rfl, fun p hp => ⟨p, [], ?_, (List.append_nil _).symm, .refl p⟩⟩
      exact panel?_push_of_some w _ hp
    | add m j => exact .bind (along_needManager m) fun _ => along_trying fun _ _ => .add
    | focus m j => exact .bind (along_needManager m) fun _ => along_trying fun _ _ => .focus
    | remove m j => exact .bind (along_needManager m) fun _ => along_trying fun _ _ => .remove
    | close m j animate =>
      exact .bind (along_needManager m) fun _ =>
        .bind ((bears_slipsAt i).close m j animate) fun _ => .pure _
    | closeAll m =>
      exact .bind .get fun _ =>
        .bind (.forM _ fun j _ => (bears_slipsAt i).close m j false) fun _ => .pure _
    | frame time => exact .bind .get fun _ => .bind ((bears_slipsAt i).frame _) fun _ => .pure _
    | toggle j =>
      refine along_asking fun w b w' h => ?_
      cases h
      exact .of_signalling (ne_of_touch? hx) _
    | beginMove j pointer => exact along_change fun w => .beginMove (ne_of_touch? hx) w pointer
    | moveTo j pointer => exact along_asking fun _ _ _ => .moveTo (ne_of_touch? hx)
    | endMove j => exact along_change fun w => .of_signalling (ne_of_touch? hx) _
    | beginResize j pointer =>
      refine along_asking fun w b w' h => ?_
      have hresize := SlipsAt.beginResize (ne_of_touch? hx) w pointer
      rw [Except.ok.inj h] at hresize
      exact hresize
    | resizeTo j pointer => exact along_asking fun _ _ _ => .resizeTo (ne_of_touch? hx)
    | endResize j => exact along_change fun w => .of_signalling (ne_of_touch? hx) _
    | cancelGesture j => exact along_change fun w => .of_signalling (ne_of_touch? hx) _
    | bind j binding =>
      refine along_change fun w => ⟨rfl, fun p hp => ?_⟩
      have hpanel := panel?_modifyPanel w j i (Panel.bind · binding)
      rw [hp, Option.map_some] at hpanel
      refine ⟨_, [], hpanel, (List.append_nil _).symm, ?_⟩
      split
      · exact .holds rfl fun _ => id
      · exact .refl p
    | releaseBindings j =>
      exact along_change fun w => .signalling fun _ p _ => p.slips_releaseBindings
    | setClock time => exact .bind (fun s => .refl i s.workspace) fun _ => .pure _

/-- What is done to a panel by hand touches it. -/
theorem touched_act (hp : s.workspace.panel? i = some p) {touch : Panel.Touch α}
    (hx : x.touch? i = some touch) : TouchedAt i touch p s.workspace (s.act x).workspace := by
  cases x with
  | clear => cases hx
  | command c =>
    cases c with
    | toggle j =>
      obtain ⟨rfl, rfl⟩ := eq_of_touch? hx
      exact .signalling hp p.moved_toggleExpanded
    | beginMove j pointer =>
      obtain ⟨rfl, rfl⟩ := eq_of_touch? hx
      exact .beginMove hp pointer
    | moveTo j pointer =>
      obtain ⟨rfl, rfl⟩ := eq_of_touch? hx
      have hact := congrArg Prod.snd (outcome_asking s (·.moveTo j pointer))
      change s.act (.command (.moveTo j pointer)) = _ at hact
      rw [hact]
      rcases hmove : s.workspace.moveTo j pointer with fault | ⟨b, w⟩
      · exact .rests hp id
      · exact .moveTo hp hmove
    | endMove j =>
      obtain ⟨rfl, rfl⟩ := eq_of_touch? hx
      exact .signalling hp p.moved_endMove
    | beginResize j pointer =>
      obtain ⟨rfl, rfl⟩ := eq_of_touch? hx
      exact .beginResize hp pointer
    | resizeTo j pointer =>
      obtain ⟨rfl, rfl⟩ := eq_of_touch? hx
      have hact := congrArg Prod.snd (outcome_asking s (·.resizeTo j pointer))
      change s.act (.command (.resizeTo j pointer)) = _ at hact
      rw [hact]
      rcases hresize : s.workspace.resizeTo j pointer with fault | ⟨b, w⟩
      · exact .rests hp id
      · exact .resizeTo hp hresize
    | endResize j =>
      obtain ⟨rfl, rfl⟩ := eq_of_touch? hx
      exact .signalling hp p.moved_endResize
    | cancelGesture j =>
      obtain ⟨rfl, rfl⟩ := eq_of_touch? hx
      exact .signalling hp p.moved_cancelGesture
    | _ => cases hx

/-- How a panel goes on with an action, and what its content is told. -/
theorem goes (s : Stage α β) (x : Action α β) (hp : s.workspace.panel? i = some p) :
    (s.act x).workspace.grids = s.workspace.grids ∧
      ∃ q told, (s.act x).workspace.panel? i = some q ∧
        (s.act x).workspace.notices i = s.workspace.notices i ++ told ∧
        p.Goes (x.touch? i) q.grip told ∧
        ∀ m, p.manager = some m → q.manager = some m ∨ q.gesture = none := by
  cases hx : x.touch? i with
  | none =>
    obtain ⟨hgrids, hpanel⟩ := slips_act s hx
    obtain ⟨q, told, hq, htold, hslips⟩ := hpanel p hp
    refine ⟨hgrids, q, told, hq, htold, hslips.goes, fun m hm => ?_⟩
    cases hslips with
    | holds _ manager => exact .inl (manager m hm)
    | frees grip =>
      have hgesture : q.grip.gesture = none := by rw [grip]; rfl
      exact .inr hgesture
  | some touch =>
    obtain ⟨hgrids, q, told, hq, htold, hgoes, hmanager⟩ := touched_act hp hx
    exact ⟨hgrids, q, told, hq, htold, hgoes, fun m hm => .inl (hmanager.trans hm)⟩

end Stage

end PanelScript

end DebugDesk
