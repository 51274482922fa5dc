import DebugDesk.Proofs.Panel.Touches

/-!
# Panels that nobody takes hold of

Whatever managers do to a panel, and whatever is done to it by hand but to begin a gesture, lets it
stay at rest, or leaves it in the gesture that it is in, or ends that. Only a drag puts it elsewhere
or resizes it.
-/
namespace DebugDesk

namespace Panel

variable {α β : Type} {p q r : Panel α β} {told : List (Notice α)}

/-- Where a panel is, and how large it is when it is shown in full. -/
def bounds (p : Panel α β) : Rect α := ⟨p.x, p.y, p.width, p.height⟩

/-- A panel that is not dragged, nor shown above the others. -/
def AtRest (p : Panel α β) : Prop := p.gesture = none ∧ p.elevated = false

/-- Nothing is begun with a panel: what it is dragged for goes on, under the same manager, or
ends. -/
inductive Eases (p q : Panel α β) : Prop
  | goesOn (gesture : q.gesture = p.gesture) (elevated : q.elevated = p.elevated)
      (manager : ∀ m, p.manager = some m → q.manager = some m)
  | ends (gesture : q.gesture = none)
      (elevated : q.elevated = (p.elevated && p.gesture != some .move))

theorem Eases.refl (p : Panel α β) : p.Eases p := .goesOn rfl rfl fun _ => id

theorem Eases.trans (h : p.Eases q) (h' : q.Eases r) : p.Eases r := by
  cases h with
  | goesOn gesture elevated manager =>
    cases h' with
    | goesOn gesture' elevated' manager' =>
      exact .goesOn (gesture'.trans gesture) (elevated'.trans elevated) fun m hm =>
        manager' m (manager m hm)
    | ends gesture' elevated' => exact .ends gesture' (by rw [elevated', gesture, elevated])
  | ends gesture elevated =>
    cases h' with
    | goesOn gesture' elevated' _ =>
      exact .ends (gesture'.trans gesture) (elevated'.trans elevated)
    | ends gesture' elevated' => exact .ends gesture' (by simp [elevated', gesture, elevated])

theorem AtRest.eases (h : p.AtRest) (he : p.Eases q) : q.AtRest := by
  obtain ⟨hgesture, helevated⟩ := h
  cases he with
  | goesOn gesture elevated _ => exact ⟨gesture.trans hgesture, elevated.trans helevated⟩
  | ends gesture elevated => exact ⟨gesture, by rw [elevated, helevated, Bool.false_and]⟩

theorem Eases.lifted (h : p.Eases q) (hp : p.elevated = true → p.gesture = some .move)
    (hq : q.elevated = true) : q.gesture = some .move := by
  cases h with
  | goesOn gesture elevated _ => exact gesture.trans (hp (elevated.symm.trans hq))
  | ends _ elevated =>
    obtain ⟨hlifted, hnot⟩ := Bool.and_eq_true_iff.mp (elevated.symm.trans hq)
    simp [hp hlifted] at hnot

theorem Eases.dragged (h : p.Eases q) (hq : q.gesture ≠ none) :
    p.gesture ≠ none ∧ ∀ m, p.manager = some m → q.manager = some m := by
  cases h with
  | goesOn gesture _ manager => exact ⟨gesture ▸ hq, manager⟩
  | ends gesture _ => exact absurd gesture hq

theorem eases_of_free (h : q.grip = p.grip.free) : p.Eases q :=
  .ends (congrArg Grip.gesture h) (congrArg Grip.elevated h)

theorem bounds_of_grip {g : Grip α} (h : q.grip = g) :
    q.bounds = ⟨g.x, g.y, g.width, g.height⟩ := by
  rw [← h]
  rfl

theorem Slips.eases (h : p.Slips q told) : p.Eases q := by
  cases h with
  | holds grip manager =>
    exact .goesOn (congrArg Grip.gesture grip) (congrArg Grip.elevated grip) manager
  | frees grip => exact eases_of_free grip

theorem Slips.bounds (h : p.Slips q told) : q.bounds = p.bounds := by
  cases h with
  | holds grip _ => exact bounds_of_grip grip
  | frees grip => exact bounds_of_grip grip

def Touch.begins : Touch α → Bool
  | .beginMove _ | .beginResize _ => true
  | _ => false

def Touch.drags : Touch α → Bool
  | .moveTo _ | .resizeTo _ => true
  | _ => false

variable [Scalar α] {touch : Touch α} {g : Grip α}

theorem Goes.eases (h : p.Goes (some touch) g told) (hbegins : touch.begins = false)
    (hg : q.grip = g) (hmanager : q.manager = p.manager) : p.Eases q := by
  have hkept : ∀ m, p.manager = some m → q.manager = some m := fun m hm => hmanager.trans hm
  have hgesture := congrArg Grip.gesture hg
  have helevated := congrArg Grip.elevated hg
  cases h with
  | rests | toggles | moves | resizes => exact .goesOn hgesture helevated hkept
  | frees => exact .ends hgesture helevated
  | lifts | grabs => cases hbegins

theorem Goes.bounds (h : p.Goes (some touch) g told) (hdrags : touch.drags = false)
    (hg : q.grip = g) : q.bounds = p.bounds := by
  rw [bounds_of_grip hg]
  cases h with
  | rests | frees | toggles | lifts | grabs => rfl
  | moves | resizes => cases hdrags

theorem Goes.lifted_of_atRest (h : p.Goes (some touch) g told) (hp : p.AtRest)
    (hg : g.elevated = true) : g.gesture = some .move := by
  have hnot : p.grip.elevated = false := hp.2
  cases h with
  | rests | toggles | moves | grabs | resizes => exact absurd (hnot.symm.trans hg) (by simp)
  | frees => simp [Grip.free, hnot] at hg
  | lifts => rfl

end Panel

namespace Workspace

variable {α β : Type} {w w' w'' : Workspace α β} {m i j : Nat} {p q : Panel α β}
  {moved : Option Nat}

/-- Nothing is begun with any panel, panels that are added are at rest, and at most one is put
elsewhere or resized. -/
structure Eases (moved : Option Nat) (w w' : Workspace α β) : Prop where
  known : ∀ i p, w.panel? i = some p →
    ∃ q, w'.panel? i = some q ∧ p.Eases q ∧ (moved ≠ some i → q.bounds = p.bounds)
  added : ∀ i q, w.panel? i = none → w'.panel? i = some q → q.AtRest

theorem Eases.refl (moved : Option Nat) (w : Workspace α β) : w.Eases moved w :=
  ⟨fun _ p hp => ⟨p, hp, .refl p, fun _ => rfl⟩, fun i q hnone hq => by simp [hnone] at hq⟩

theorem Eases.trans (h : w.Eases moved w') (h' : w'.Eases moved w'') : w.Eases moved w'' := by
  refine ⟨fun i p hp => ?_, fun i r hnone hr => ?_⟩
  · obtain ⟨q, hq, heases, hbounds⟩ := h.known i p hp
    obtain ⟨r, hr, heases', hbounds'⟩ := h'.known i q hq
    exact ⟨r, hr, heases.trans heases', fun hi => (hbounds' hi).trans (hbounds hi)⟩
  · cases hq : w'.panel? i with
    | none => exact h'.added i r hq hr
    | some q =>
      obtain ⟨r', hr', heases, -⟩ := h'.known i q hq
      obtain rfl := Option.some.inj (hr'.symm.trans hr)
      exact (h.added i q hnone hq).eases heases

theorem Eases.of_panels (h : ∀ i, w'.panel? i = w.panel? i) : w.Eases moved w' :=
  ⟨fun i p hp => ⟨p, (h i).trans hp, .refl p, fun _ => rfl⟩,
    fun i q hnone hq => by simp [h i, hnone] at hq⟩

theorem Eases.of_count (hcount : w'.panels.length = w.panels.length)
    (h : ∀ i p, w.panel? i = some p →
      ∃ q, w'.panel? i = some q ∧ p.Eases q ∧ (moved ≠ some i → q.bounds = p.bounds)) :
    w.Eases moved w' := by
  refine ⟨h, fun i q hnone hq => ?_⟩
  have hbeyond := List.getElem?_eq_none_iff.mp hnone
  rw [panel?, List.getElem?_eq_none (hcount ▸ hbeyond)] at hq
  cases hq

theorem Eases.of_slips (hcount : w'.panels.length = w.panels.length) (h : ∀ i, SlipsAt i w w') :
    w.Eases moved w' := by
  refine .of_count hcount fun i p hp => ?_
  obtain ⟨q, _, hq, -, hslips⟩ := (h i).panel p hp
  exact ⟨q, hq, hslips.eases, fun _ => hslips.bounds⟩

theorem Eases.push (hp : p.AtRest) (w : Workspace α β) : w.Eases moved (w.push p) := by
  refine ⟨fun i q hq => ⟨q, panel?_push_of_some w p hq, .refl q, fun _ => rfl⟩,
    fun i q hnone hq => ?_⟩
  have hbeyond : w.panels.length ≤ i := List.getElem?_eq_none_iff.mp hnone
  change (w.panels ++ [p])[i]? = some q at hq
  rw [List.getElem?_append_right hbeyond] at hq
  obtain rfl := List.mem_singleton.mp (List.mem_of_getElem? hq)
  exact hp

theorem length_add (h : w.add m i = .ok w') : w'.panels.length = w.panels.length := by
  unfold add at h
  split at h
  · cases h
  · split at h
    · cases h
    · cases h
      exact (Fades.raise _ m i).count.trans (List.length_modify ..)

theorem Eases.add (h : w.add m i = .ok w') : w.Eases moved w' :=
  .of_slips (length_add h) fun _ => .add h

theorem Eases.bind (w : Workspace α β) (i : Nat) (binding : β) :
    w.Eases moved (w.bind i binding) := by
  refine .of_count (List.length_modify ..) fun j p hp => ?_
  have hpanel := panel?_modifyPanel w i j (Panel.bind · binding)
  rw [hp, Option.map_some] at hpanel
  refine ⟨_, hpanel, ?_⟩
  split
  · exact ⟨.goesOn rfl rfl fun _ => id, fun _ => rfl⟩
  · exact ⟨.refl p, fun _ => rfl⟩

section

variable [Scalar α] {touch : Panel.Touch α}

/-- One panel is touched, and the others are left to themselves. -/
theorem Eases.touched (hp : w.panel? i = some p) (ht : TouchedAt i touch p w w')
    (ho : ∀ j, i ≠ j → SlipsAt j w w') (hcount : w'.panels.length = w.panels.length)
    (hbegins : touch.begins = false) (hdrags : touch.drags = true → moved = some i) :
    w.Eases moved w' := by
  refine .of_count hcount fun j q hq => ?_
  by_cases hij : i = j
  · subst hij
    obtain rfl := Option.some.inj (hp.symm.trans hq)
    obtain ⟨r, told, hr, -, hgoes, hmanager⟩ := ht.panel
    refine ⟨r, hr, hgoes.eases hbegins rfl hmanager, fun hmoved => hgoes.bounds ?_ rfl⟩
    exact Bool.eq_false_iff.mpr fun hd => hmoved (hdrags hd)
  · obtain ⟨r, _, hr, -, hslips⟩ := (ho j hij).panel q hq
    exact ⟨r, hr, hslips.eases, fun _ => hslips.bounds⟩

theorem Eases.signalling {f : Panel α β → Panel α β × List (PanelSignal α β)}
    (w : Workspace α β) (i : Nat) (hf : ∀ p : Panel α β, p.Moved touch (f p))
    (hbegins : touch.begins = false) (hdrags : touch.drags = false) :
    w.Eases moved (w.signalling i f) := by
  cases hp : w.panel? i with
  | none =>
    simp only [Workspace.signalling, hp]
    exact .refl moved w
  | some p =>
    have hcount : (w.signalling i f).panels.length = w.panels.length := by
      simp only [Workspace.signalling, hp]
      exact List.length_modify ..
    exact .touched hp (.signalling hp (hf p)) (fun _ hij => .of_signalling hij f) hcount hbegins
      (by simp [hdrags])

theorem Eases.moveTo {pointer : Point α} {b : Bool} (h : w.moveTo i pointer = .ok (b, w')) :
    w.Eases (some i) w' := by
  cases hp : w.panel? i with
  | none => simp [Workspace.moveTo, hp] at h
  | some p =>
    exact .touched hp (.moveTo hp h) (fun _ hij => .moveTo hij h) (Wanes.moveTo h).count rfl
      fun _ => rfl

theorem Eases.resizeTo {pointer : Point α} {b : Bool} (h : w.resizeTo i pointer = .ok (b, w')) :
    w.Eases (some i) w' := by
  cases hp : w.panel? i with
  | none => simp [Workspace.resizeTo, hp] at h
  | some p =>
    exact .touched hp (.resizeTo hp h) (fun _ hij => .resizeTo hij h) (Wanes.resizeTo h).count rfl
      fun _ => rfl

end

theorem dragging_eq_some (h : w.dragging m = some i) :
    ∃ p, w.panel? i = some p ∧ p.isDragging = true := by
  obtain ⟨⟨j, p⟩, hfind, rfl⟩ := Option.map_eq_some_iff.mp h
  have hdragging := List.find?_some hfind
  exact ⟨p, (mem_managed.mp (List.mem_of_find?_eq_some hfind)).2, hdragging⟩

theorem dragging_eq_none (h : w.dragging m = none) (hi : i ∈ w.members m)
    (hp : w.panel? i = some p) : p.gesture = none := by
  have hnone := List.find?_eq_none.mp (Option.map_eq_none_iff.mp h) (i, p)
    (mem_managed.mpr ⟨hi, hp⟩)
  simpa [Panel.isDragging] using hnone

theorem mem_of_panelAt [Scalar α] {pointer : Point α} (h : w.panelAt m pointer = some i) :
    i ∈ w.members m := by
  obtain ⟨j, hfind, hbind⟩ := Option.bind_eq_some_iff.mp h
  obtain ⟨p, -, hopen⟩ := Option.bind_eq_some_iff.mp hbind
  have hji : j = i := by
    split at hopen
    · cases hopen
    · exact Option.some.inj hopen
  subst hji
  obtain ⟨x, hx, rfl⟩ := List.mem_map.mp (List.mem_reverse.mp (List.mem_of_find?_eq_some hfind))
  exact (mem_managed.mp ((List.mergeSort_perm ..).mem_iff.mp hx)).1

end Workspace

end DebugDesk
