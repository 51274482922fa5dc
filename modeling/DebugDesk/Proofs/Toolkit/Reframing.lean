import DebugDesk.Proofs.Effect.Respecting
import DebugDesk.Proofs.Toolkit.Displays

/-!
# Frames that come and go

What is done with a toolkit makes some windows and themes, deletes some, and leaves the frames of
all others as they are.
-/
namespace DebugDesk.Toolkit

namespace Display

variable {s s' s'' : Display} {id : String} {x : Shown}

/-- Whether an identifier was given to an item that is no part of a frame, or does not exist. -/
structure Plain (s : Display) (id : String) : Prop where
  issued : s.issued id
  frameless : ∀ o, s.look id = some o → o.kind ∉ frameKinds

/-- What becomes of the frames, given the windows and themes that are made and the items that are
deleted. -/
structure Reframes (newWindows newThemes gone : List String) (s s' : Display) : Prop where
  issued : ∀ id, s.issued id → s'.issued id
  windows : s'.windows = s.windows ++ newWindows
  themes : s'.themes = s.themes ++ newThemes
  /-- New windows come up on top. -/
  stack : s'.stack = s.stack ++ newWindows
  stays : ∀ id o, s.look id = some o → o.kind ∈ frameKinds → id ∉ gone →
    (∀ p ∈ gone, o.parent ≠ some p) → s'.look id = some o
  plain : ∀ id, s.Plain id → s'.Plain id
  ends : ∀ id, s.issued id → s.look id = none → s'.look id = none
  deleted : ∀ id ∈ gone, s.issued id → s'.look id = none

namespace Reframes

variable {windows windows' themes themes' gone gone' : List String}

theorem trans (h : s.Reframes windows themes gone s')
    (h' : s'.Reframes windows' themes' gone' s'') :
    s.Reframes (windows ++ windows') (themes ++ themes') (gone ++ gone') s'' := by
  refine ⟨fun id hid => h'.issued id (h.issued id hid), ?_, ?_, ?_, fun id o ho hk hid hp => ?_,
    fun id hid => h'.plain id (h.plain id hid), fun id hi hnone => ?_, fun id hid hi => ?_⟩
  · rw [h'.windows, h.windows, List.append_assoc]
  · rw [h'.themes, h.themes, List.append_assoc]
  · rw [h'.stack, h.stack, List.append_assoc]
  · simp only [List.mem_append, not_or] at hid
    have hfirst := h.stays id o ho hk hid.1 fun p hp' => hp p (List.mem_append_left _ hp')
    exact h'.stays id o hfirst hk hid.2 fun p hp' => hp p (List.mem_append_right _ hp')
  · exact h'.ends id (h.issued id hi) (h.ends id hi hnone)
  · rcases List.mem_append.mp hid with hid | hid
    · exact h'.ends id (h.issued id hi) (h.deleted id hid hi)
    · exact h'.deleted id hid (h.issued id hi)

end Reframes

/-- What becomes of the items while the frames of panels are left alone. -/
abbrev Spares : Display → Display → Prop := Reframes [] [] []

theorem Spares.of_look (hi : s'.issued = s.issued) (hw : s'.windows = s.windows)
    (ht : s'.themes = s.themes) (hs : s'.stack = s.stack) (hl : s'.look = s.look) :
    s.Spares s' := by
  refine ⟨fun id hid => hi ▸ hid, by rw [hw, List.append_nil], by rw [ht, List.append_nil],
    by rw [hs, List.append_nil], fun id o ho _ _ _ => hl ▸ ho,
    fun id hid => ⟨hi ▸ hid.issued, hl ▸ hid.frameless⟩, fun id _ hnone => hl ▸ hnone, by simp⟩

instance : IsPreorder Display Spares where
  refl _ := .of_look rfl rfl rfl rfl rfl
  trans _ _ _ := .trans

/-- An item is made, which may be a window or a theme. -/
theorem reframes_adding (h : s.Known) (hx : ¬s.issued x.id) :
    s.Reframes (if x.kind = "window" then [x.id] else [])
      (if x.kind = "theme" then [x.id] else []) [] (s.adding x) := by
  have hne {j : String} (hj : s.issued j) : j ≠ x.id := fun he => hx (he ▸ hj)
  refine ⟨fun _ => .inl, rfl, rfl, rfl, fun j o ho _ _ _ => ?_,
    fun j hj => ⟨.inl hj.issued, fun o ho => ?_⟩, fun j hj hnone => ?_, by simp⟩
  · rw [look_adding h hx, if_neg (hne (h.issued_of_look ho)), ho]
  · rw [look_adding h hx, if_neg (hne hj.issued)] at ho
    exact hj.frameless o ho
  · rw [look_adding h hx, if_neg (hne hj), hnone]

/-- What is deleted with an item. -/
theorem reframes_without {gone : List String} (h : s.Regular) (hid : id ∈ gone)
    (hgone : ∀ j ∈ gone, s.Below id j) : s.Reframes [] [] [id] (s.without gone) := by
  have hnone {j : String} (hj : s.look j = none) : (s.without gone).look j = none := by
    rw [look_without, hj, ite_self]
  refine ⟨fun _ h => h, by simp [without], by simp [without], by simp [without],
    fun j o ho hk hj hp => ?_, fun j hj => ⟨hj.issued, fun o ho => ?_⟩, fun j _ => hnone,
    fun j hj _ => ?_⟩
  · rw [look_without, if_neg ?_, ho]
    intro hin
    rcases h.below (hgone j hin) ho hk with rfl | ⟨hparent, -⟩
    · exact hj List.mem_cons_self
    · exact hp id List.mem_cons_self hparent
  · rw [look_without] at ho
    split at ho
    · cases ho
    · exact hj.frameless o ho
  · rw [List.mem_singleton.mp hj, look_without, if_pos hid]

/-- What is no part of a frame may be deleted. -/
theorem spares_without {gone : List String} (h : s.Regular) (hp : s.Plain id) (hid : id ∈ gone)
    (hgone : ∀ j ∈ gone, s.Below id j) : s.Spares (s.without gone) := by
  obtain ⟨issued, windows, themes, stack, -, plain, ends, -⟩ := reframes_without h hid hgone
  refine ⟨issued, windows, themes, stack, fun j o ho hk _ _ => ?_, plain, ends, by simp⟩
  rw [look_without, if_neg ?_, ho]
  intro hin
  rcases h.below (hgone j hin) ho hk with rfl | ⟨-, w, hw, hwindow⟩
  · exact hp.frameless o ho hk
  · exact hp.frameless w hw (hwindow ▸ by decide)

end Display

open Display

variable {τ κ : Type} [Gui τ κ] [LawfulGui τ κ] {t : τ} {kind : String} {options : Options}

/-- A toolkit is valid, and its items fit together. -/
structure InOrder (t : τ) : Prop where
  valid : Valid t
  regular : (display t).Regular

/-- An item fits in: a window or a theme by itself, and a body in a window. -/
structure FitsIn (kind : String) (options : Options) (s : Display) : Prop where
  made : kind ∈ makers
  untagged : options.lookup "tag" = none
  root : kind = "window" ∨ kind = "theme" → s.parentOf options = none
  body : kind = "child_window" → ∃ p o, s.parentOf options = some p ∧ s.look p = some o ∧
    o.kind = "window"

/-- What leaves the frames alone, given what new items go into after it. -/
structure Mild (containers : List String) (t t' : τ) : Prop where
  inOrder : InOrder t'
  spares : (display t).Spares (display t')
  containers : (display t').containers = containers

/-- What comes of making an item. -/
structure Makes (kind : String) (options : Options) (t : τ) (made : String × τ) : Prop where
  inOrder : InOrder made.2
  new : ¬(display t).issued made.1
  issued : (display made.2).issued made.1
  look : (display made.2).look made.1 = some ⟨kind, (display t).parentOf options⟩
  containers : (display made.2).containers = (display t).containers
  reframes : (display t).Reframes (if kind = "window" then [made.1] else [])
    (if kind = "theme" then [made.1] else []) [] (display made.2)

theorem InOrder.makes (h : InOrder t) (hf : FitsIn kind options (display t))
    (arguments : List Value) (callback : Option κ) :
    Makes kind options t (Gui.make t kind arguments options callback) := by
  obtain ⟨hvalid, hnew, hdisplay⟩ := LawfulGui.make t kind arguments options callback h.valid
    h.regular.known hf.made hf.untagged
  generalize Gui.make t kind arguments options callback = made at *
  let x : Shown := ⟨made.1, kind, arguments, options, (display t).parentOf options⟩
  refine ⟨⟨hvalid, ?_⟩, hnew, ?_, ?_, ?_, ?_⟩ <;> rw [hdisplay]
  · exact h.regular.adding (x := x) hnew hf.root hf.body
  · exact .inr rfl
  · exact (look_adding (x := x) h.regular.known hnew made.1).trans (if_pos rfl)
  · rfl
  · exact reframes_adding (x := x) h.regular.known hnew

theorem Makes.mild {made : String × τ} (h : Makes kind options t made) (hf : kind ∉ frameKinds) :
    Mild (display t).containers t made.2 := by
  refine ⟨h.inOrder, ?_, h.containers⟩
  have hreframes := h.reframes
  have hne {k : String} (hk : k ∈ frameKinds) : kind ≠ k := fun he => hf (he ▸ hk)
  rwa [if_neg (hne (by decide)), if_neg (hne (by decide))] at hreframes

theorem Makes.plain {made : String × τ} (h : Makes kind options t made) (hf : kind ∉ frameKinds) :
    (display made.2).Plain made.1 := by
  refine ⟨h.issued, fun o ho => ?_⟩
  rw [h.look] at ho
  cases ho
  exact hf

theorem Display.Regular.inside {s : Display} (h : s.Regular) (containers : List String) :
    ({ s with containers } : Display).Regular := ⟨h.distinct, h.known, h.roots, h.bodies⟩

theorem InOrder.enter (h : InOrder t) (id : String) :
    Mild (id :: (display t).containers) t (Gui.enter t id) := by
  obtain ⟨hvalid, hdisplay⟩ := LawfulGui.enter id h.valid
  refine ⟨⟨hvalid, ?_⟩, ?_, ?_⟩ <;> rw [hdisplay]
  · exact h.regular.inside _
  · exact .of_look rfl rfl rfl rfl rfl

theorem InOrder.leave (h : InOrder t) : Mild (display t).containers.tail t (Gui.leave t) := by
  obtain ⟨hvalid, hdisplay⟩ := LawfulGui.leave h.valid
  refine ⟨⟨hvalid, ?_⟩, ?_, ?_⟩ <;> rw [hdisplay]
  · exact h.regular.inside _
  · exact .of_look rfl rfl rfl rfl rfl

theorem InOrder.mild_of_eq {t' : τ} (h : InOrder t) (hvalid : Valid t')
    (hdisplay : display t' = display t) : Mild (display t).containers t t' :=
  ⟨⟨hvalid, hdisplay ▸ h.regular⟩, hdisplay ▸ refl_of Spares _, by rw [hdisplay]⟩

theorem InOrder.call (h : InOrder t) {function : String} (hf : function ∈ passive)
    (arguments : List Value) :
    Mild (display t).containers t (Gui.call t function arguments []) :=
  have hcall := LawfulGui.call t function arguments h.valid hf
  h.mild_of_eq hcall.1 hcall.2

theorem InOrder.setMouse (h : InOrder t) (position : Point Float) :
    Mild (display t).containers t (Gui.setMouse t position) :=
  have hmouse := LawfulGui.setMouse position h.valid
  h.mild_of_eq hmouse.1 hmouse.2

theorem InOrder.configure (h : InOrder t) (id : String) (options : Options) :
    Mild (display t).containers t ((Gui.configure id options).outcome t).2 := by
  obtain ⟨-, hvalid, f, hdisplay⟩ := LawfulGui.configure id options h.valid
  refine ⟨⟨hvalid, ?_⟩, ?_, ?_⟩ <;> rw [hdisplay]
  · exact h.regular.changing id f
  · exact .of_look rfl rfl rfl rfl (look_changing ..)
  · rfl

/-- An item is deleted, and if it is no part of a frame, then the frames are left alone. -/
theorem InOrder.delete (h : InOrder t) (id : String) :
    InOrder (Gui.delete t (some id)).2 ∧
      (display (Gui.delete t (some id)).2).containers = (display t).containers ∧
      (display t).Reframes [] [] [id] (display (Gui.delete t (some id)).2) ∧
      ((display t).Plain id → (display t).Spares (display (Gui.delete t (some id)).2)) := by
  obtain ⟨hvalid, gone, hid, hgone, hdisplay⟩ := LawfulGui.delete id h.valid
  rw [hdisplay]
  exact ⟨⟨hvalid, hdisplay ▸ h.regular.without gone⟩, rfl,
    reframes_without h.regular hid hgone, fun hp => spares_without h.regular hp hid hgone⟩

end DebugDesk.Toolkit
