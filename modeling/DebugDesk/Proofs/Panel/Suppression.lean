import DebugDesk.Proofs.Panel.Gestures

/-!
# Suppressed contents

The content of a panel is told to stop drawing when a gesture begins, and to draw again when it
ends. What it was told last is whether the panel is in a gesture, whichever way that ended: nobody
leaves a content suppressed.
-/
namespace DebugDesk

def Notice.suppressed? {α : Type} : Notice α → Option Bool
  | .suppressed flag => some flag
  | .resized .. => none

/-- What a content was told last of its suppression. It is not suppressed at first. -/
def lastSuppressed {α : Type} (told : List (Notice α)) : Bool :=
  (told.filterMap Notice.suppressed?).getLast?.getD false

theorem lastSuppressed_append {α : Type} (told told' : List (Notice α)) :
    lastSuppressed (told ++ told') =
      (told'.filterMap Notice.suppressed?).getLast?.getD (lastSuppressed told) := by
  rw [lastSuppressed, List.filterMap_append, List.getLast?_append]
  cases (told'.filterMap Notice.suppressed?).getLast? <;> rfl

namespace Panel

variable {α β : Type}

def Touch.Begins : Touch α → Prop
  | .beginMove _ | .beginResize _ => True
  | .toggle | .moveTo _ | .endMove | .resizeTo _ | .endResize | .cancel => False

variable [Scalar α] {p : Panel α β} {touch : Option (Touch α)} {g : Grip α}
  {told told' : List (Notice α)}

/-- A content that knows whether its panel is in a gesture is told when that changes. -/
theorem Goes.lastSuppressed (h : p.Goes touch g told')
    (hp : lastSuppressed told = p.gesture.isSome) :
    DebugDesk.lastSuppressed (told ++ told') = g.gesture.isSome := by
  rw [lastSuppressed_append]
  cases h with
  | rests => exact hp
  | frees =>
    rw [Grip.farewell]
    split
    next => rfl
    next hidle =>
      have hnone : p.gesture.isSome = false := by simpa [grip] using hidle
      exact hp.trans hnone
  | toggles =>
    split
    next => exact hp
    next => exact hp
  | lifts => rfl
  | moves => exact hp
  | grabs => rfl
  | resizes => exact hp

/-- A panel stays out of gestures until one begins. -/
theorem Goes.idle (h : p.Goes touch g told) (hp : p.gesture = none)
    (hbegins : ∀ t ∈ touch, ¬ t.Begins) : g.gesture = none := by
  cases h with
  | rests => exact hp
  | frees => rfl
  | toggles => exact hp
  | lifts => exact absurd trivial (hbegins _ rfl)
  | moves => exact hp
  | grabs => exact absurd trivial (hbegins _ rfl)
  | resizes => exact hp

end Panel

namespace Workspace

variable {α β : Type} {w w' w'' : Workspace α β} {m i j : Nat} {p : Panel α β}

/-- A panel that is not there is not made, and nothing is told to it. -/
def Lacks (i : Nat) (w w' : Workspace α β) : Prop :=
  w.panel? i = none → w'.panel? i = none ∧ w'.notices i = w.notices i

instance : IsPreorder (Workspace α β) (Lacks i) where
  refl _ hi := ⟨hi, rfl⟩
  trans _ _ _ h h' hi := ⟨(h' (h hi).1).1, (h' (h hi).1).2.trans (h hi).2⟩

theorem Lacks.of_fares (h : Fares w w') (hs : w'.signals = w.signals) : Lacks i w w' :=
  fun hi => ⟨(h.others i hi).1, notices_congr hs i⟩

theorem ne_of_absent (hi : w.panel? i = none) (hp : w.panel? j = some p) : j ≠ i := by
  rintro rfl
  rw [hi] at hp
  cases hp

theorem Lacks.modifyPanel (w : Workspace α β) (j : Nat) (f : Panel α β → Panel α β) :
    Lacks i w (w.modifyPanel j f) :=
  fun hi => ⟨by rw [panel?_modifyPanel, hi, Option.map_none], rfl⟩

theorem Lacks.signalling (w : Workspace α β) (j : Nat)
    (f : Panel α β → Panel α β × List (PanelSignal α β)) : Lacks i w (w.signalling j f) := by
  intro hi
  refine ⟨by rw [panel?_signalling, hi, Option.map_none], ?_⟩
  unfold Workspace.signalling
  split
  next p hp =>
    rw [notices_tell, if_neg (ne_of_absent hi hp), List.append_nil]
    rfl
  next => rfl

theorem Lacks.remove (h : w.remove m j = .ok w') : Lacks i w w' := by
  intro hi
  refine ⟨((Fares.remove h).others i hi).1, ?_⟩
  cases hp : w.panel? j with
  | none => simp [Workspace.remove, hp] at h
  | some p =>
    have htell := notices_tell w j i
      ((p.cancelGesture.2 ++ [.destroyed]) ++ p.bindings.map PanelSignal.released)
    rw [if_neg (ne_of_absent hi hp), List.append_nil] at htell
    rw [← htell]
    exact notices_congr (signals_remove h hp) i

theorem Lacks.beginClose (w : Workspace α β) (j : Nat) : Lacks i w (w.beginClose j).2 := by
  unfold Workspace.beginClose
  split
  · exact refl_of (Lacks i) w
  · split
    · exact refl_of (Lacks i) w
    · rw [signalling_modifyPanel]
      exact .signalling w j _

theorem signals_raiseManaged (w : Workspace α β) (j : Nat) :
    (w.raiseManaged j).signals = w.signals := by
  unfold raiseManaged
  split
  · exact signals_raise w _ j
  · rfl

theorem Lacks.signalling_raised (w : Workspace α β) (j : Nat)
    (f : Panel α β → Panel α β × List (PanelSignal α β)) :
    Lacks i w ((w.raiseManaged j).signalling j f) := by
  have hraise : Lacks i w (w.raiseManaged j) :=
    .of_fares (.raiseManaged w j) (signals_raiseManaged w j)
  exact trans_of (Lacks i) hraise (.signalling _ j f)

theorem Lacks.beginMove (w : Workspace α β) (j : Nat) (pointer : Point α) :
    Lacks i w (w.beginMove j pointer) := by
  unfold Workspace.beginMove
  split
  · exact refl_of (Lacks i) w
  · split
    · exact refl_of (Lacks i) w
    · exact .signalling_raised w j _

theorem Lacks.beginResize (w : Workspace α β) (j : Nat) (pointer : Point α) :
    Lacks i w (w.beginResize j pointer).2 := by
  unfold Workspace.beginResize
  split
  · exact refl_of (Lacks i) w
  · split
    · exact refl_of (Lacks i) w
    · exact .signalling_raised w j _

theorem Lacks.add (h : w.add m j = .ok w') : Lacks i w w' := by
  intro hi
  refine ⟨?_, notices_congr (signals_add h) i⟩
  have halone := alone_add h i
  rw [hi] at halone
  simpa using halone

theorem Lacks.focus (h : w.focus m j = .ok w') : Lacks i w w' := by
  have hfares := Fares.focus h
  unfold Workspace.focus at h
  split at h
  · cases h
    exact .of_fares hfares (signals_raise w m j)
  · cases h

variable [Scalar α]

theorem Lacks.moveTo {pointer : Point α} {b : Bool} (h : w.moveTo j pointer = .ok (b, w')) :
    Lacks i w w' := by
  unfold Workspace.moveTo at h
  split at h
  · cases h
  · obtain ⟨moved, _, h⟩ := Effect.bind_eq_ok h
    cases h
    exact .modifyPanel w j _

theorem Lacks.resizeTo {pointer : Point α} {b : Bool} (h : w.resizeTo j pointer = .ok (b, w')) :
    Lacks i w w' := by
  unfold Workspace.resizeTo at h
  split at h
  · cases h
  next p hp =>
    obtain ⟨resized, _, h⟩ := Effect.bind_eq_ok h
    cases h
    split
    · have hsame : (w.modifyPanel j fun _ => resized.2).tell j
          [.resized resized.2.width resized.2.bodyHeight] =
          w.signalling j fun _ =>
            (resized.2, [.resized resized.2.width resized.2.bodyHeight]) := by
        simp only [Workspace.signalling, hp]
      exact hsame ▸ .signalling w j _
    · exact .modifyPanel w j _

theorem Lacks.closingFrame {time : Int} {action : FrameAction}
    (h : w.closingFrame j time = .ok (action, w')) : Lacks i w w' := by
  unfold Workspace.closingFrame at h
  split at h
  · obtain ⟨stages, _, h⟩ := Effect.bind_eq_ok h
    cases h
    exact .modifyPanel w j _
  · cases h
    exact refl_of (Lacks i) w

end Workspace

namespace PanelScript

/-- Whether an action begins a gesture of a panel, if the panel answers to it. -/
def Action.Begins {α β : Type} (i : Nat) (x : Action α β) : Prop :=
  ∃ touch ∈ x.touch? i, touch.Begins

namespace Stage

open Workspace hiding bind

variable {α β : Type} [Scalar α] {s : Stage α β} {x : Action α β} {i : Nat} {p : Panel α β}

theorem bears_lacks (i : Nat) : Bears (Workspace.Lacks (α := α) (β := β) i) where
  remove := .remove
  beginClose w j := .beginClose w j
  closingFrame := .closingFrame
  closings _ _ hi := ⟨hi, rfl⟩

theorem lacks_perform {c : Command α β}
    (hc : ∀ title x y width height expanded headerHeight minWidth minHeight,
      c ≠ .create title x y width height expanded headerHeight minWidth minHeight) :
    (perform c).Respects (Along (Lacks i)) := by
  cases c with
  | create => exact absurd rfl (hc _ _ _ _ _ _ _ _ _)
  | add m j => exact .bind (along_needManager m) fun _ => along_trying fun _ _ => .add
  | focus m j => exact .bind (along_needManager m) fun _ => along_trying fun _ _ => .focus
  | remove m j => exact .bind (along_needManager m) fun _ => along_trying fun _ _ => .remove
  | close m j animate =>
    exact .bind (along_needManager m) fun _ =>
      .bind ((bears_lacks i).close m j animate) fun _ => .pure _
  | closeAll m =>
    exact .bind .get fun _ =>
      .bind (.forM _ fun j _ => (bears_lacks i).close m j false) fun _ => .pure _
  | frame time => exact .bind .get fun _ => .bind ((bears_lacks i).frame _) fun _ => .pure _
  | toggle j =>
    refine along_asking fun w b w' h => ?_
    cases h
    exact .signalling w j _
  | beginMove j pointer => exact along_change fun w => .beginMove w j pointer
  | moveTo j pointer => exact along_asking fun _ _ _ => .moveTo
  | endMove j => exact along_change fun w => .signalling w j _
  | beginResize j pointer =>
    refine along_asking fun w b w' h => ?_
    have hresize : Lacks i w _ := .beginResize w j pointer
    rw [Except.ok.inj h] at hresize
    exact hresize
  | resizeTo j pointer => exact along_asking fun _ _ _ => .resizeTo
  | endResize j => exact along_change fun w => .signalling w j _
  | cancelGesture j => exact along_change fun w => .signalling w j _
  | bind j binding => exact along_change fun w => .modifyPanel w j _
  | releaseBindings j => exact along_change fun w => .signalling w j _
  | setClock time => exact .bind (fun s => refl_of (Along (Lacks i)) s) fun _ => .pure _

/-- Nothing is told to a panel before it is made. -/
theorem notices_act_of_absent (s : Stage α β) (x : Action α β)
    (hi : s.workspace.panel? i = none) :
    (s.act x).workspace.notices i = s.workspace.notices i := by
  cases x with
  | clear => exact ((bears_lacks i).clear s hi).2
  | command c =>
    by_cases hc : ∀ title x y width height expanded headerHeight minWidth minHeight,
        c ≠ .create title x y width height expanded headerHeight minWidth minHeight
    · exact (lacks_perform hc s hi).2
    · push Not at hc
      obtain ⟨_, _, _, _, _, _, _, _, _, rfl⟩ := hc
      rfl

def suppressed (s : Stage α β) (i : Nat) : Bool := lastSuppressed (s.workspace.notices i)

theorem notices_acts_of_absent (settings : List (α × α)) (xs : List (Action α β))
    (hi : ((start settings).acts xs).workspace.panel? i = none) :
    ((start settings).acts xs).workspace.notices i = [] := by
  induction xs using List.reverseRecOn with
  | nil => rfl
  | append_singleton xs x ih =>
    rw [acts_concat] at hi ⊢
    -- Panels do not vanish, so this one was not there before either.
    have hbefore : ((start settings).acts xs).workspace.panel? i = none := by
      cases hp : ((start settings).acts xs).workspace.panel? i with
      | none => rfl
      | some p =>
        obtain ⟨_, q, _, hq, _⟩ := goes _ x hp
        rw [hi] at hq
        cases hq
    exact (notices_act_of_absent _ x hbefore).trans (ih hbefore)

/-- A content is suppressed when its panel is in a gesture, and only then. -/
theorem suppressed_acts (settings : List (α × α)) (xs : List (Action α β)) :
    ∀ p, ((start settings).acts xs).workspace.panel? i = some p →
      ((start settings).acts xs).suppressed i = p.isDragging := by
  induction xs using List.reverseRecOn with
  | nil =>
    intro p hp
    simp [acts, start, Workspace.make, panel?] at hp
  | append_singleton xs x ih =>
    intro q hq
    rw [acts_concat] at hq ⊢
    cases hp : ((start settings).acts xs).workspace.panel? i with
    | none =>
      have hidle : q.gesture = none := ((absent_act _ x hp).2 q hq).idle.1
      rw [suppressed, notices_act_of_absent _ x hp, notices_acts_of_absent settings xs hp,
        Panel.isDragging, hidle]
      rfl
    | some p =>
      obtain ⟨-, r, told, hr, htold, hpr, -⟩ := goes _ x hp
      obtain rfl : r = q := Option.some.inj (hr.symm.trans hq)
      rw [suppressed, htold]
      exact hpr.lastSuppressed (ih p hp)

/-- A panel that closes is in no gesture. -/
theorem idle_acts (settings : List (α × α)) (xs : List (Action α β)) :
    ∀ p, ((start settings).acts xs).workspace.panel? i = some p → p.closing = true →
      p.gesture = none := by
  induction xs using List.reverseRecOn with
  | nil =>
    intro p hp
    simp [acts, start, Workspace.make, panel?] at hp
  | append_singleton xs x ih =>
    intro q hq hclosing
    rw [acts_concat] at hq
    cases hp : ((start settings).acts xs).workspace.panel? i with
    | none => exact ((absent_act _ x hp).2 q hq).idle.1
    | some p =>
      obtain ⟨r, _, hr, _, hcalms, _⟩ := through _ x hp
      obtain rfl : r = q := Option.some.inj (hr.symm.trans hq)
      exact hcalms.idle (ih p hp) hclosing

/-- A panel that is in no gesture is in none as long as none begins. -/
theorem stays_idle (s : Stage α β) (hp : s.workspace.panel? i = some p) (hidle : p.gesture = none)
    (xs : List (Action α β)) (hxs : ∀ x ∈ xs, ¬ x.Begins i) :
    ∃ q, (s.acts xs).workspace.panel? i = some q ∧ q.gesture = none := by
  induction xs using List.reverseRecOn with
  | nil => exact ⟨p, hp, hidle⟩
  | append_singleton xs x ih =>
    obtain ⟨q, hq, hstill⟩ := ih fun y hy => hxs y (List.mem_append_left _ hy)
    obtain ⟨-, r, told, hr, -, hqr, -⟩ := goes _ x hq
    rw [acts_concat]
    exact ⟨r, hr, hqr.idle hstill fun t ht hbegins => hxs x (by simp) ⟨t, ht, hbegins⟩⟩

/-- Whatever is done, what a content was told last of its suppression is whether its panel is in a
gesture. A panel that closes does not leave it suppressed; nor does one that is taken from its
manager, until a gesture begins again. -/
theorem acts_suppressed (settings : List (α × α)) (xs : List (Action α β))
    (hp : ((start settings).acts xs).workspace.panel? i = some p) :
    (((start settings).acts xs).suppressed i = true ↔ p.isDragging = true) ∧
      (p.closing = true → ((start settings).acts xs).suppressed i = false) ∧
      ∀ x q, (((start settings).acts xs).act x).workspace.panel? i = some q →
        p.manager.isSome = true → q.manager = none → ∀ ys : List (Action α β),
          (∀ y ∈ ys, ¬ y.Begins i) →
            ((((start settings).acts xs).act x).acts ys).suppressed i = false := by
  have hsuppressed := suppressed_acts settings xs p hp
  refine ⟨by rw [hsuppressed], fun hclosing => ?_, fun x q hq hmanaged hleft ys hys => ?_⟩
  · rw [hsuppressed, Panel.isDragging, idle_acts settings xs p hp hclosing]
    rfl
  · obtain ⟨m, hm⟩ := Option.isSome_iff_exists.mp hmanaged
    obtain ⟨-, r, _, hr, _, _, hparts⟩ := goes _ x hp
    obtain rfl : r = q := Option.some.inj (hr.symm.trans hq)
    have hidle : r.gesture = none := (hparts m hm).resolve_left (by simp [hleft])
    obtain ⟨t, ht, hstill⟩ := stays_idle _ hr hidle ys hys
    rw [← acts_concat, ← acts_append] at ht ⊢
    rw [suppressed_acts settings _ t ht, Panel.isDragging, hstill]
    rfl

def grasped : List (Action ℚ Unit) :=
  [.command (.create "plot" 0 0 100 100 true 20 40 40), .command (.add 0 0),
    .command (.beginMove 0 ⟨5, 5⟩), .command (.endMove 0), .command (.beginMove 0 ⟨5, 5⟩),
    .command (.beginResize 0 ⟨95, 95⟩), .command (.endMove 0)]

theorem grasped_suppressed :
    ((start [(20, 1 / 2)]).acts grasped).suppressed 0 = true ∧
      (((start [(20, 1 / 2)]).acts grasped).act (.command (.remove 0 0))).suppressed 0 = false ∧
      ((start [(20, 1 / 2)]).acts (grasped ++ [.command (.close 0 0 true)])).suppressed 0 =
        false := by
  have hgrasped : (((start [(20, 1 / 2)]).acts grasped).workspace.panel? 0).map
      (fun p => (p.isDragging, p.manager)) = some (true, some 0) := by decide +kernel
  have hremoved : ((((start [(20, 1 / 2)]).acts grasped).act
      (.command (.remove 0 0))).workspace.panel? 0).map Panel.manager = some none := by
    decide +kernel
  have hclosed : (((start [(20, 1 / 2)]).acts
      (grasped ++ [.command (.close 0 0 true)])).workspace.panel? 0).map Panel.closing =
        some true := by decide +kernel
  obtain ⟨p, hp, hpanel⟩ := Option.map_eq_some_iff.mp hgrasped
  obtain ⟨hdragging, hmanager⟩ := Prod.mk.inj hpanel
  obtain ⟨q, hq, hleft⟩ := Option.map_eq_some_iff.mp hremoved
  obtain ⟨r, hr, hclosing⟩ := Option.map_eq_some_iff.mp hclosed
  obtain ⟨hiff, -, hlost⟩ := acts_suppressed [(20, 1 / 2)] grasped hp
  refine ⟨hiff.mpr hdragging, hlost _ q hq (by rw [hmanager]; rfl) hleft [] (by simp), ?_⟩
  exact (acts_suppressed [(20, 1 / 2)] _ hr).2.1 hclosing

end Stage

end PanelScript

end DebugDesk
