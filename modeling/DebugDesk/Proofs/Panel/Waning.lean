import DebugDesk.Proofs.Panel.Frames

/-!
# Panels of a title

A title may have several panels, and those that are managed and do not close are live. As long as no
panel is added, the live panels of a title do not become more.
-/
namespace DebugDesk

/-- How a panel changes: it keeps its title, and goes on closing once it closes. -/
structure Panel.Fades {α β : Type} (p q : Panel α β) : Prop where
  title : q.title = p.title
  closing : p.closing = true → q.closing = true

namespace Panel

variable {α β : Type} {p q r : Panel α β}

theorem Fades.refl (p : Panel α β) : p.Fades p := ⟨rfl, id⟩

theorem Fades.trans (h : p.Fades q) (h' : q.Fades r) : p.Fades r :=
  ⟨h'.title.trans h.title, h'.closing ∘ h.closing⟩

theorem fades_endMove (p : Panel α β) : p.Fades p.endMove.1 := by
  unfold endMove
  split <;> exact ⟨rfl, id⟩

theorem fades_endResize (p : Panel α β) : p.Fades p.endResize.1 := by
  unfold endResize
  split <;> exact ⟨rfl, id⟩

theorem fades_cancelGesture (p : Panel α β) : p.Fades p.cancelGesture.1 := by
  unfold cancelGesture
  split
  · exact p.fades_endMove
  · exact p.fades_endResize
  · exact .refl p

variable [Scalar α]

theorem fades_toggleExpanded (p : Panel α β) : p.Fades p.toggleExpanded.1 := by
  unfold toggleExpanded
  split <;> exact ⟨rfl, id⟩

theorem fades_fade (p : Panel α β) (stages : α) : p.Fades (p.fade stages).2 := by
  unfold fade
  repeat' split
  all_goals exact ⟨rfl, id⟩

theorem fades_moveTo {grid : α} {pointer : Point α} {b : Bool}
    (h : p.moveTo grid pointer = .ok (b, q)) : p.Fades q := by
  simp only [moveTo, Bind.bind, Except.bind, pure, Except.pure] at h
  repeat' split at h
  all_goals cases h
  all_goals exact ⟨rfl, id⟩

theorem fades_resizeTo {grid : α} {pointer : Point α} {b : Bool}
    (h : p.resizeTo grid pointer = .ok (b, q)) : p.Fades q := by
  simp only [resizeTo, Bind.bind, Except.bind, pure, Except.pure] at h
  repeat' split at h
  all_goals cases h
  all_goals exact ⟨rfl, id⟩

end Panel

namespace Workspace

variable {α β : Type} {w w' w'' : Workspace α β} {S : Stacks} {m i : Nat} {title : String}

/-- All panels keep their titles, and go on closing. -/
structure Fades (w w' : Workspace α β) : Prop where
  managers : w'.managers.length = w.managers.length
  count : w'.panels.length = w.panels.length
  fades : ∀ i q, w'.panel? i = some q → ∃ p, w.panel? i = some p ∧ p.Fades q

theorem Fades.refl (w : Workspace α β) : Fades w w := ⟨rfl, rfl, fun _ q h => ⟨q, h, .refl q⟩⟩

theorem Fades.trans (h : Fades w w') (h' : Fades w' w'') : Fades w w'' := by
  refine ⟨h'.managers.trans h.managers, h'.count.trans h.count, fun i r hr => ?_⟩
  obtain ⟨q, hq, hqr⟩ := h'.fades i r hr
  obtain ⟨p, hp, hpq⟩ := h.fades i q hq
  exact ⟨p, hp, hpq.trans hqr⟩

theorem Fades.modifyPanel (w : Workspace α β) (i : Nat) {f : Panel α β → Panel α β}
    (hf : ∀ p : Panel α β, w.panel? i = some p → p.Fades (f p)) :
    Fades w (w.modifyPanel i f) := by
  refine ⟨rfl, List.length_modify .., fun j q hq => ?_⟩
  rw [panel?_modifyPanel] at hq
  obtain ⟨p, hp, rfl⟩ := Option.map_eq_some_iff.mp hq
  by_cases h : i = j
  · subst h
    simpa using ⟨p, hp, hf p hp⟩
  · simpa [h] using ⟨p, hp, .refl p⟩

theorem Fades.foldl_modifyPanel {f : Nat → Panel α β → Panel α β}
    (hf : ∀ i (p : Panel α β), p.Fades (f i p)) (is : List Nat) (w : Workspace α β) :
    Fades w (is.foldl (fun w i => w.modifyPanel i (f i)) w) := by
  induction is generalizing w with
  | nil => exact .refl w
  | cons i is ih => exact (Fades.modifyPanel w i fun p _ => hf i p).trans (ih _)

theorem Fades.tell (w : Workspace α β) (i : Nat) (signals : List (PanelSignal α β)) :
    Fades w (w.tell i signals) := ⟨rfl, rfl, fun _ q h => ⟨q, h, .refl q⟩⟩

theorem Fades.setMembers (w : Workspace α β) (m : Nat) (is : List Nat) :
    Fades w (w.setMembers m is) :=
  ⟨List.length_modify .., rfl, fun _ q h => ⟨q, h, .refl q⟩⟩

theorem Fades.signalling (w : Workspace α β) (i : Nat)
    {f : Panel α β → Panel α β × List (PanelSignal α β)}
    (hf : ∀ p : Panel α β, p.Fades (f p).1) :
    Fades w (w.signalling i f) := by
  unfold Workspace.signalling
  split
  next p hp =>
    refine (Fades.modifyPanel w i fun q hq => ?_).trans (.tell _ i _)
    rw [hp] at hq
    exact Option.some.inj hq ▸ hf p
  · exact .refl w

theorem Fades.raise (w : Workspace α β) (m i : Nat) : Fades w (w.raise m i) := by
  cases hp : w.panel? i with
  | none =>
    simp only [Workspace.raise, hp]
    exact .refl w
  | some p =>
    rw [raise_eq w m hp]
    refine (Fades.foldl_modifyPanel (fun j q => ?_) _ w).trans
      (.modifyPanel _ i fun q _ => ⟨rfl, id⟩)
    split <;> exact ⟨rfl, id⟩

theorem Fades.remove (h : w.remove m i = .ok w') : Fades w w' := by
  unfold Workspace.remove at h
  split at h
  · cases h
  next p _ =>
    split at h
    · cases h
    · cases h
      have hcancel := Fades.signalling w i (f := Panel.cancelGesture) Panel.fades_cancelGesture
      have hdetach (w : Workspace α β) : Fades w (w.detach m i p.z) := by
        have hlower := Fades.foldl_modifyPanel
          (f := fun (_ : Nat) (q : Panel α β) => { q with z := if p.z < q.z then q.z - 1 else q.z })
          (fun _ _ => ⟨rfl, id⟩)
        exact ((Fades.setMembers w m _).trans (hlower _ _)).trans
          (.modifyPanel _ i fun _ _ => ⟨rfl, id⟩)
      have hrelease (w : Workspace α β) :
          Fades w ((w.tell i [.destroyed]).signalling i Panel.releaseBindings) :=
        (Fades.tell w i _).trans (.signalling _ i fun _ => ⟨rfl, id⟩)
      have htop (w : Workspace α β) : Fades w (w.raiseTopmost m) := by
        unfold raiseTopmost
        split
        · exact .raise w m _
        · exact .refl w
      exact ((hcancel.trans (hdetach _)).trans (hrelease _)).trans (htop _)

/-- How a workspace goes on as long as no panel is added. -/
structure Wanes (w w' : Workspace α β) : Prop extends Fades w w' where
  arranged : (∃ S, w.Arranged S) → ∃ S, w'.Arranged S
  members : ∀ m, (w'.members m).Sublist (w.members m)

theorem Wanes.refl (w : Workspace α β) : Wanes w w := ⟨.refl w, id, fun _ => .refl _⟩

theorem Wanes.trans (h : Wanes w w') (h' : Wanes w' w'') : Wanes w w'' :=
  ⟨h.toFades.trans h'.toFades, h'.arranged ∘ h.arranged,
    fun m => (h'.members m).trans (h.members m)⟩

theorem Fades.wanes (h : Fades w w') (ha : Alike w w') : Wanes w w' := by
  refine ⟨h, fun harr => ?_, fun m => ha.members m ▸ .refl _⟩
  obtain ⟨S, hS⟩ := harr
  exact ⟨S, hS.alike ha⟩

theorem Wanes.of_panels (hp : w'.panels = w.panels) (hm : w'.managers = w.managers) :
    Wanes w w' := by
  have hpanel : ∀ i, w'.panel? i = w.panel? i := fun i => by rw [panel?, hp, panel?]
  have hmembers : ∀ m, w'.members m = w.members m := fun m => by
    rw [Workspace.members, hm, Workspace.members]
  refine Fades.wanes ⟨by rw [hm], by rw [hp], fun i q h => ⟨q, hpanel i ▸ h, .refl q⟩⟩
    ⟨hmembers, fun i => ?_⟩
  rw [place?, hpanel, place?]

theorem Wanes.modifyPanel (w : Workspace α β) (i : Nat) {f : Panel α β → Panel α β}
    (hf : ∀ p : Panel α β, w.panel? i = some p → p.Fades (f p) ∧ (f p).place = p.place) :
    Wanes w (w.modifyPanel i f) :=
  (Fades.modifyPanel w i fun p hp => (hf p hp).1).wanes (.modifyPanel w i fun p hp => (hf p hp).2)

theorem Wanes.signalling (w : Workspace α β) (i : Nat)
    {f : Panel α β → Panel α β × List (PanelSignal α β)}
    (hf : ∀ p : Panel α β, p.Fades (f p).1)
    (hs : Panel.Steady f) : Wanes w (w.signalling i f) :=
  (Fades.signalling w i hf).wanes (.signalling w i fun p => (hs p).1)

theorem Wanes.tell (w : Workspace α β) (i : Nat) (signals : List (PanelSignal α β)) :
    Wanes w (w.tell i signals) := (Fades.tell w i signals).wanes ⟨fun _ => rfl, fun _ => rfl⟩

theorem Wanes.raise (w : Workspace α β) {p : Panel α β} (hp : w.panel? i = some p)
    (hm : p.manager = some m) : Wanes w (w.raise m i) := by
  refine ⟨.raise w m i, fun harr => ?_, fun n => (members_raise w m n i) ▸ .refl _⟩
  obtain ⟨S, hS⟩ := harr
  exact ⟨_, hS.raise ((hS.mem_iff hp).mpr hm)⟩

theorem Wanes.focus (h : w.focus m i = .ok w') : Wanes w w' := by
  cases hp : w.panel? i with
  | none => simp [Workspace.focus, isManagedBy, hp] at h
  | some p =>
    by_cases hm : p.manager = some m
    · simp only [Workspace.focus, isManagedBy, hp, hm, BEq.rfl, ↓reduceIte] at h
      cases h
      exact .raise w hp hm
    · simp [Workspace.focus, isManagedBy, hp, hm] at h

theorem Wanes.raiseManaged (w : Workspace α β) (i : Nat) : Wanes w (w.raiseManaged i) := by
  unfold Workspace.raiseManaged
  cases hp : w.panel? i with
  | none => exact .refl w
  | some p =>
    cases hm : p.manager with
    | none => simpa [hm] using .refl w
    | some m => simpa [hm] using .raise w hp hm

theorem members_setMembers_sublist (w : Workspace α β) {is : List Nat}
    (h : is.Sublist (w.members m)) (n : Nat) :
    ((w.setMembers m is).members n).Sublist (w.members n) := by
  by_cases hm : m < w.managers.length
  · rw [members_setMembers w m n is hm]
    split
    next hn => exact hn ▸ h
    · exact .refl _
  · have hsame : w.setMembers m is = w := by
      simp [setMembers, List.modify_eq_self (Nat.not_lt.mp hm)]
    rw [hsame]

theorem Wanes.remove (h : w.remove m i = .ok w') : Wanes w w' := by
  refine ⟨.remove h, fun harr => ?_, fun n => ?_⟩
  · obtain ⟨S, hS⟩ := harr
    exact ⟨_, hS.of_remove h⟩
  · unfold Workspace.remove at h
    split at h
    · cases h
    · split at h
      · cases h
      · cases h
        have htop (w : Workspace α β) : (w.raiseTopmost m).members n = w.members n := by
          unfold raiseTopmost
          split
          · exact members_raise w m n _
          · rfl
        simp only [htop, members_signalling, members_tell, detach, members_modifyPanel,
          members_foldl_modifyPanel]
        have herase : (((w.signalling i Panel.cancelGesture).members m).erase i).Sublist
            ((w.signalling i Panel.cancelGesture).members m) := List.erase_sublist
        simpa using members_setMembers_sublist _ herase n

theorem Wanes.beginClose (w : Workspace α β) (i : Nat) : Wanes w (w.beginClose i).2 := by
  unfold Workspace.beginClose
  split
  · exact .refl w
  · split
    · exact .refl w
    · have hmark : Wanes w (w.modifyPanel i fun q => { q with closing := true }) :=
        .modifyPanel w i fun q _ => ⟨⟨rfl, fun _ => rfl⟩, rfl⟩
      exact hmark.trans (.signalling _ i Panel.fades_cancelGesture Panel.steady_cancelGesture)

theorem Wanes.finishClosing (h : w.finishClosing i = .ok w') : Wanes w w' := by
  unfold Workspace.finishClosing at h
  split at h
  · split at h
    · cases h
      exact .refl w
    · exact .remove h
  · cases h
    exact .refl w

theorem Wanes.beginMove (w : Workspace α β) (i : Nat) (pointer : Point α) :
    Wanes w (w.beginMove i pointer) := by
  unfold Workspace.beginMove
  split
  · exact .refl w
  · split
    · exact .refl w
    · exact (Wanes.raiseManaged w i).trans
        (.signalling _ i (fun _ => ⟨rfl, id⟩) (Panel.steady_beginMove pointer))

theorem Wanes.beginResize (w : Workspace α β) (i : Nat) (pointer : Point α) :
    Wanes w (w.beginResize i pointer).2 := by
  unfold Workspace.beginResize
  split
  · exact .refl w
  · split
    · exact .refl w
    · exact (Wanes.raiseManaged w i).trans
        (.signalling _ i (fun _ => ⟨rfl, id⟩) (Panel.steady_beginResize pointer))

theorem Wanes.endMove (w : Workspace α β) (i : Nat) : Wanes w (w.endMove i) :=
  .signalling w i Panel.fades_endMove Panel.steady_endMove

theorem Wanes.endResize (w : Workspace α β) (i : Nat) : Wanes w (w.endResize i) :=
  .signalling w i Panel.fades_endResize Panel.steady_endResize

section

variable [Scalar α]

theorem Wanes.toggleExpanded (w : Workspace α β) (i : Nat) : Wanes w (w.toggleExpanded i).2 :=
  .signalling w i Panel.fades_toggleExpanded Panel.steady_toggleExpanded

theorem Wanes.closingFrame {time : Int} {action : FrameAction}
    (h : w.closingFrame i time = .ok (action, w')) : Wanes w w' := by
  unfold Workspace.closingFrame at h
  split at h
  next c p _ hp =>
    obtain ⟨stages, _, h⟩ := Effect.bind_eq_ok h
    cases h
    have hunmoved := PanelScript.Stage.unmoved_fade w hp stages
    refine Fades.wanes (.modifyPanel w i fun q hq => ?_) hunmoved.toAlike
    rw [hp] at hq
    exact Option.some.inj hq ▸ p.fades_fade stages
  · cases h
    exact .refl w

theorem Wanes.moveTo {pointer : Point α} {b : Bool} (h : w.moveTo i pointer = .ok (b, w')) :
    Wanes w w' := by
  unfold Workspace.moveTo at h
  split at h
  · cases h
  next p hp =>
    obtain ⟨moved, hmove, h⟩ := Effect.bind_eq_ok h
    cases h
    refine .modifyPanel w i fun q hq => ?_
    rw [hp] at hq
    cases hq
    exact ⟨Panel.fades_moveTo hmove, (Panel.steady_moveTo hmove).1⟩

theorem Wanes.resizeTo {pointer : Point α} {b : Bool} (h : w.resizeTo i pointer = .ok (b, w')) :
    Wanes w w' := by
  unfold Workspace.resizeTo at h
  split at h
  · cases h
  next p hp =>
    obtain ⟨resized, hresize, h⟩ := Effect.bind_eq_ok h
    cases h
    have hchange : Wanes w (w.modifyPanel i fun _ => resized.2) := by
      refine .modifyPanel w i fun q hq => ?_
      rw [hp] at hq
      cases hq
      exact ⟨Panel.fades_resizeTo hresize, (Panel.steady_resizeTo hresize).1⟩
    split
    · exact hchange.trans (.tell _ i _)
    · exact hchange

end

/-- Whether a panel has a title and does not close. -/
def isLive (w : Workspace α β) (title : String) (i : Nat) : Bool :=
  (w.panel? i).any fun p => p.title == title && !p.closing

def live (w : Workspace α β) (m : Nat) (title : String) : List Nat :=
  (w.members m).filter (w.isLive title)

theorem Fades.isLive (h : Fades w w') (hi : w'.isLive title i = true) :
    w.isLive title i = true := by
  cases hq : w'.panel? i with
  | none => simp [Workspace.isLive, hq] at hi
  | some q =>
    obtain ⟨p, hp, hpq⟩ := h.fades i q hq
    simp only [Workspace.isLive, hq, Option.any_some, hpq.title, Bool.and_eq_true] at hi
    have hopen : p.closing = false := by
      cases hc : p.closing with
      | false => rfl
      | true => simp [hpq.closing hc] at hi
    simp [Workspace.isLive, hp, hopen, hi.1]

theorem Wanes.live (h : Wanes w w') (m : Nat) (title : String) :
    (w'.live m title).Sublist (w.live m title) := by
  have hfewer : (w'.live m title).Sublist ((w'.members m).filter (w.isLive title)) :=
    List.monotone_filter_right _ fun _ => h.isLive
  exact hfewer.trans ((h.members m).filter _)

end Workspace

end DebugDesk
