import Mathlib.Data.List.Induction
import Mathlib.Data.List.Nodup
import Mathlib.Tactic.Common
import Mathlib.Order.Basic
import Mathlib.Data.Nat.Basic
import DebugDesk.Panel.Workspace
import DebugDesk.Panel.Closing

/-!
# Stacks of panels

The panels of a manager form a stack, from bottom to top. `Stacked` relates a workspace to the stack
of a manager: stacking positions are places in the stack counted from one, and the panel at the end
has the focus. Adding, raising and removing panels are list operations on the stack. An arrangement
tells the stack of every manager; each operation of a workspace pushes, raises or drops panels of
the arrangement, or leaves it as it is.
-/
namespace DebugDesk

@[ext]
structure Panel.Place where
  manager : Option Nat
  z : Nat
  focused : Bool

namespace Panel

variable {α β : Type}

def place (p : Panel α β) : Place := ⟨p.manager, p.z, p.focused⟩

/-- Below a panel that leaves position `z`, nothing changes; those above go down by one. -/
def Place.lower (z : Nat) (q : Place) : Place := { q with z := if z < q.z then q.z - 1 else q.z }

@[simp] theorem place_cancelGesture (p : Panel α β) : p.cancelGesture.1.place = p.place := by
  unfold cancelGesture endMove endResize
  split <;> try split
  all_goals rfl

@[simp] theorem place_releaseBindings (p : Panel α β) : p.releaseBindings.1.place = p.place := rfl

end Panel

namespace Workspace

variable {α β : Type} {w : Workspace α β} {m i j : Nat}

def place? (w : Workspace α β) (i : Nat) : Option Panel.Place := (w.panel? i).map Panel.place

@[simp] theorem members_modifyPanel (w : Workspace α β) (i : Nat) (f : Panel α β → Panel α β) :
    (w.modifyPanel i f).members m = w.members m := rfl

@[simp] theorem members_tell (w : Workspace α β) (i : Nat) (signals : List (PanelSignal α β)) :
    (w.tell i signals).members m = w.members m := rfl

@[simp] theorem panel?_tell (w : Workspace α β) (i : Nat) (signals : List (PanelSignal α β)) :
    (w.tell i signals).panel? j = w.panel? j := rfl

@[simp] theorem panel?_setMembers (w : Workspace α β) (m : Nat) (is : List Nat) :
    (w.setMembers m is).panel? j = w.panel? j := rfl

theorem panel?_modifyPanel (w : Workspace α β) (i j : Nat) (f : Panel α β → Panel α β) :
    (w.modifyPanel i f).panel? j = (w.panel? j).map fun p => if i = j then f p else p := by
  simp [modifyPanel, panel?, List.getElem?_modify]

theorem modifyPanel_id (w : Workspace α β) (i : Nat) : w.modifyPanel i id = w := by
  simp [modifyPanel, List.modify_id]

theorem members_setMembers (w : Workspace α β) (m n : Nat) (is : List Nat)
    (hm : m < w.managers.length) :
    (w.setMembers m is).members n = if m = n then is else w.members n := by
  by_cases h : m = n
  · subst h
    simp [members, setMembers, hm]
  · simp [members, setMembers, h]

@[simp] theorem members_signalling (w : Workspace α β) (i : Nat)
    (f : Panel α β → Panel α β × List (PanelSignal α β)) :
    (w.signalling i f).members m = w.members m := by
  unfold signalling
  split <;> rfl

theorem panel?_signalling (w : Workspace α β) (i j : Nat)
    (f : Panel α β → Panel α β × List (PanelSignal α β)) :
    (w.signalling i f).panel? j = (w.panel? j).map fun p => if i = j then (f p).1 else p := by
  unfold signalling
  cases hp : w.panel? i with
  | none =>
    by_cases h : i = j
    · subst h; simp [hp]
    · simp [h]
  | some p =>
    simp only [panel?_tell, panel?_modifyPanel]
    by_cases h : i = j
    · subst h; simp [hp]
    · simp [h]

theorem map_panel?_modifyPanel {γ : Type} {v : Panel α β → γ} (w : Workspace α β) (i j : Nat)
    {f : Panel α β → Panel α β} (hf : ∀ p, v (f p) = v p) :
    ((w.modifyPanel i f).panel? j).map v = (w.panel? j).map v := by
  rw [panel?_modifyPanel, Option.map_map]
  congr 1
  funext p
  by_cases h : i = j <;> simp [h, hf]

theorem map_panel?_signalling {γ : Type} {v : Panel α β → γ} (w : Workspace α β) (i j : Nat)
    {f : Panel α β → Panel α β × List (PanelSignal α β)} (hf : ∀ p, v (f p).1 = v p) :
    ((w.signalling i f).panel? j).map v = (w.panel? j).map v := by
  rw [panel?_signalling, Option.map_map]
  congr 1
  funext p
  by_cases h : i = j <;> simp [h, hf]

theorem map_panel?_foldl_modifyPanel {γ : Type} {v : Panel α β → γ}
    {f : Nat → Panel α β → Panel α β} (hf : ∀ i p, v (f i p) = v p) (is : List Nat)
    (w : Workspace α β) (j : Nat) :
    ((is.foldl (fun w i => w.modifyPanel i (f i)) w).panel? j).map v = (w.panel? j).map v := by
  induction is generalizing w with
  | nil => rfl
  | cons i is ih => rw [List.foldl_cons, ih, map_panel?_modifyPanel w i j (hf i)]

theorem place?_signalling (w : Workspace α β) (i j : Nat)
    {f : Panel α β → Panel α β × List (PanelSignal α β)} (hf : ∀ p, (f p).1.place = p.place) :
    (w.signalling i f).place? j = w.place? j := map_panel?_signalling w i j hf

/-- One change after the other, each to a panel of its own. -/
theorem panel?_foldl_modifyPanel (f : Nat → Panel α β → Panel α β) (is : List Nat)
    (hd : is.Nodup) (w : Workspace α β) (j : Nat) :
    (is.foldl (fun w i => w.modifyPanel i (f i)) w).panel? j =
      (w.panel? j).map fun p => if j ∈ is then f j p else p := by
  induction is generalizing w with
  | nil => simp
  | cons i is ih =>
    obtain ⟨hi, hd⟩ := List.nodup_cons.mp hd
    rw [List.foldl_cons, ih hd, panel?_modifyPanel, Option.map_map]
    congr 1
    funext p
    by_cases h : i = j
    · subst h; simp [hi]
    · simp [h, Ne.symm h]

theorem members_foldl_modifyPanel (f : Nat → Panel α β → Panel α β) (is : List Nat)
    (w : Workspace α β) :
    (is.foldl (fun w i => w.modifyPanel i (f i)) w).members m = w.members m := by
  induction is generalizing w with
  | nil => rfl
  | cons i is ih => rw [List.foldl_cons, ih, members_modifyPanel]

theorem raise_eq (w : Workspace α β) (m : Nat) {p : Panel α β} (hp : w.panel? i = some p) :
    w.raise m i =
      ((w.members m).foldl (fun w j => w.modifyPanel j fun q =>
          if j = i then q
          else { q with z := if p.z < q.z then q.z - 1 else q.z, focused := false }) w).modifyPanel
        i
        fun q => { q with z := (w.members m).length, focused := true } := by
  simp only [raise, hp]
  congr 2
  funext w j
  by_cases h : j = i
  · simp only [h, ↓reduceIte]
    exact (modifyPanel_id w i).symm
  · simp only [h, ↓reduceIte]

/-- What only depends on neither the stacking position nor the focus. -/
theorem map_panel?_raise {γ : Type} {v : Panel α β → γ} (w : Workspace α β) (m i j : Nat)
    (hv : ∀ (p : Panel α β) z focused, v { p with z, focused } = v p) :
    ((w.raise m i).panel? j).map v = (w.panel? j).map v := by
  cases hp : w.panel? i with
  | none => simp only [raise, hp]
  | some p =>
    rw [raise_eq w m hp, map_panel?_modifyPanel _ i j fun q => hv q _ _,
      map_panel?_foldl_modifyPanel fun k q => ?_]
    split
    · rfl
    · exact hv q _ _

@[simp] theorem members_raise (w : Workspace α β) (m n i : Nat) :
    (w.raise m i).members n = w.members n := by
  cases hp : w.panel? i with
  | none => simp only [raise, hp]
  | some p => rw [raise_eq w m hp, members_modifyPanel, members_foldl_modifyPanel]

/-- Where panels are after one of them is raised. -/
theorem place?_raise (hd : (w.members m).Nodup) {q : Panel.Place} (hq : w.place? i = some q)
    (j : Nat) :
    (w.raise m i).place? j =
      (w.place? j).map fun r =>
        if i = j then { r with z := (w.members m).length, focused := true }
        else if j ∈ w.members m then { r.lower q.z with focused := false } else r := by
  obtain ⟨p, hp, rfl⟩ := Option.map_eq_some_iff.mp hq
  simp only [place?, raise_eq w m hp, panel?_modifyPanel, panel?_foldl_modifyPanel _ _ hd,
    Option.map_map]
  congr 1
  funext r
  by_cases h : i = j
  · subst h
    simp [Panel.place]
  · by_cases hj : j ∈ w.members m
    · simp only [Function.comp_apply, h, Ne.symm h, hj, ↓reduceIte]
      rfl
    · simp [h, hj]

def owner? (w : Workspace α β) (i : Nat) : Option Nat := (w.place? i).bind Panel.Place.manager

/-- The panels of a manager, from bottom to top: each stands where its stacking position says. -/
structure Ranked (w : Workspace α β) (m : Nat) (stack : List Nat) : Prop where
  nodup : stack.Nodup
  perm : stack.Perm (w.members m)
  owned : ∀ i, i ∈ stack ↔ w.owner? i = some m
  rank : ∀ i ∈ stack, ∀ q, w.place? i = some q → q.z = stack.idxOf i + 1

/-- The panel at the top of the stack has the focus, and no other one. -/
structure Stacked (w : Workspace α β) (m : Nat) (stack : List Nat) : Prop
    extends Ranked w m stack where
  top : ∀ i ∈ stack, ∀ q, w.place? i = some q → (q.focused = true ↔ stack.getLast? = some i)

variable {w' : Workspace α β} {stack : List Nat}

theorem Ranked.place (h : Ranked w m stack) (hi : i ∈ stack) :
    ∃ q, w.place? i = some q ∧ q.manager = some m :=
  Option.bind_eq_some_iff.mp ((h.owned i).mp hi)

theorem Ranked.nodup_members (h : Ranked w m stack) : (w.members m).Nodup :=
  h.perm.nodup_iff.mp h.nodup

/-- What happens to the panels of other managers does not matter to a stack. -/
theorem Stacked.congr (h : Stacked w m stack) (hm : w'.members m = w.members m)
    (hp : ∀ i, w'.place? i = w.place? i ∨ (w.owner? i ≠ some m ∧ w'.owner? i ≠ some m)) :
    Stacked w' m stack := by
  have hsame : ∀ i ∈ stack, w'.place? i = w.place? i := by
    intro i hi
    exact (hp i).resolve_right fun hne => hne.1 ((h.owned i).mp hi)
  refine ⟨⟨h.nodup, hm ▸ h.perm, ?_, ?_⟩, ?_⟩
  · intro i
    rcases hp i with he | ⟨hne, hne'⟩
    · simp only [owner?, he]
      exact h.owned i
    · exact ⟨fun hi => absurd ((h.owned i).mp hi) hne, fun hi => absurd hi hne'⟩
  · intro i hi q hq
    exact h.rank i hi q (hsame i hi ▸ hq)
  · intro i hi q hq
    exact h.top i hi q (hsame i hi ▸ hq)

theorem idxOf_erase {l : List Nat} (hd : l.Nodup) (hi : i ∈ l) (hj : j ∈ l) (h : i ≠ j) :
    (l.erase i).idxOf j = if l.idxOf i < l.idxOf j then l.idxOf j - 1 else l.idxOf j := by
  obtain ⟨a, b, rfl⟩ := List.append_of_mem hi
  have ha : i ∉ a := fun hm => List.disjoint_of_nodup_append hd hm (by simp)
  rw [List.erase_append_right _ ha, List.erase_cons_head]
  simp only [List.idxOf_append, ha, ↓reduceIte, List.idxOf_cons_self, List.idxOf_cons_ne _ h]
  by_cases hja : j ∈ a
  · have := List.idxOf_lt_length_of_mem hja
    simp only [hja, ↓reduceIte]
    split <;> omega
  · simp only [hja, ↓reduceIte]
    split <;> omega

theorem mem_raised (hi : i ∈ stack) : j ∈ stack.erase i ++ [i] ↔ j ∈ stack := by
  by_cases h : j = i
  · subst h; simp [hi]
  · simp [h, List.mem_erase_of_ne h]

theorem perm_raised (hi : i ∈ stack) : (stack.erase i ++ [i]).Perm stack :=
  List.perm_append_comm.trans (List.perm_cons_erase hi).symm

/-- Raising keeps who has which panel. -/
theorem owner?_raise (hd : (w.members m).Nodup) {q : Panel.Place} (hq : w.place? i = some q)
    (j : Nat) : (w.raise m i).owner? j = w.owner? j := by
  simp only [owner?, place?_raise hd hq, Option.bind_map]
  congr 1
  funext r
  simp only [Function.comp_apply]
  split
  · rfl
  · split <;> rfl

/-- A raised panel goes to the top of its stack, whatever had the focus before. -/
theorem Ranked.raise (h : Ranked w m stack) (hi : i ∈ stack) :
    Stacked (w.raise m i) m (stack.erase i ++ [i]) := by
  obtain ⟨q, hq, _⟩ := h.place hi
  have hd := h.nodup_members
  have hlen : (stack.erase i).length = stack.length - 1 := List.length_erase_of_mem hi
  have hpos : 0 < stack.length := List.length_pos_of_mem hi
  refine ⟨⟨?_, ?_, ?_, ?_⟩, ?_⟩
  · exact (perm_raised hi).nodup_iff.mpr h.nodup
  · rw [members_raise]
    exact (perm_raised hi).trans h.perm
  · intro j
    rw [mem_raised hi, owner?_raise hd hq]
    exact h.owned j
  · intro j hj r hr
    rw [place?_raise hd hq] at hr
    obtain ⟨s, hs, rfl⟩ := Option.map_eq_some_iff.mp hr
    by_cases hij : i = j
    · subst hij
      have hnot : i ∉ stack.erase i := h.nodup.not_mem_erase
      simp only [↓reduceIte, List.idxOf_append, hnot, List.idxOf_cons_self, ← h.perm.length_eq]
      omega
    · have hjs : j ∈ stack := (mem_raised hi).mp hj
      have hje : j ∈ stack.erase i := (List.mem_erase_of_ne (Ne.symm hij)).mpr hjs
      have hz := h.rank j hjs s hs
      have hzi := h.rank i hi q hq
      simp only [hij, h.perm.mem_iff.mp hjs, ↓reduceIte, Panel.Place.lower, List.idxOf_append,
        hje, idxOf_erase h.nodup hi hjs hij, hz, hzi]
      split <;> split <;> omega
  · intro j hj r hr
    rw [place?_raise hd hq] at hr
    obtain ⟨s, hs, rfl⟩ := Option.map_eq_some_iff.mp hr
    by_cases hij : i = j
    · simp [hij]
    · have hjs : j ∈ stack := (mem_raised hi).mp hj
      simp [hij, h.perm.mem_iff.mp hjs]

theorem Stacked.raise_other {n : Nat} {other : List Nat} (h : Ranked w m stack) (hi : i ∈ stack)
    (ho : Stacked w n other) (hmn : m ≠ n) : Stacked (w.raise m i) n other := by
  obtain ⟨q, hq, hqm⟩ := h.place hi
  have hd := h.nodup_members
  refine ho.congr (members_raise w m n i) fun j => ?_
  by_cases hj : j ∈ w.members m
  · have hown : w.owner? j = some m := (h.owned j).mp (h.perm.mem_iff.mpr hj)
    have hne : (some m : Option Nat) ≠ some n := fun he => hmn (Option.some.inj he)
    exact .inr ⟨hown ▸ hne, by rw [owner?_raise hd hq, hown]; exact hne⟩
  · have hij : i ≠ j := fun he => hj (he ▸ h.perm.mem_iff.mp hi)
    left
    simp [place?_raise hd hq, hij, hj]

def higher (best : Option (Nat × Nat)) (x : Nat × Panel α β) : Option (Nat × Nat) :=
  match best with
  | some (_, z) => if z < x.2.z then some (x.1, x.2.z) else best
  | none => some (x.1, x.2.z)

theorem foldl_higher {xs : List (Nat × Panel α β)} (hx : xs ≠ []) :
    ∃ x ∈ xs, xs.foldl higher none = some (x.1, x.2.z) ∧ ∀ y ∈ xs, y.2.z ≤ x.2.z := by
  induction xs using List.reverseRecOn with
  | nil => exact absurd rfl hx
  | append_singleton xs y ih =>
    rw [List.foldl_append, List.foldl_cons, List.foldl_nil]
    by_cases hn : xs = []
    · subst hn
      exact ⟨y, by simp, rfl, by simp⟩
    · obtain ⟨x, hmem, he, hle⟩ := ih hn
      simp only [he, higher]
      by_cases hlt : x.2.z < y.2.z
      · refine ⟨y, by simp, by simp [hlt], fun u hu => ?_⟩
        rcases List.mem_append.mp hu with hu | hu
        · exact le_trans (hle u hu) hlt.le
        · rw [List.mem_singleton.mp hu]
      · refine ⟨x, List.mem_append_left _ hmem, by simp [hlt], fun u hu => ?_⟩
        rcases List.mem_append.mp hu with hu | hu
        · exact hle u hu
        · rw [List.mem_singleton.mp hu]
          exact not_lt.mp hlt

theorem mem_managed {x : Nat × Panel α β} :
    x ∈ w.managed m ↔ x.1 ∈ w.members m ∧ w.panel? x.1 = some x.2 := by
  simp only [managed, List.mem_filterMap, Option.map_eq_some_iff]
  constructor
  · rintro ⟨i, hi, p, hp, rfl⟩
    exact ⟨hi, hp⟩
  · rintro ⟨hi, hp⟩
    exact ⟨x.1, hi, x.2, hp, rfl⟩

/-- The topmost panel is the end of the stack. -/
theorem Ranked.topmost (h : Ranked w m stack) : w.topmost m = stack.getLast? := by
  have hfold : w.topmost m = ((w.managed m).foldl higher none).map Prod.fst := rfl
  rw [hfold]
  rcases List.eq_nil_or_concat stack with rfl | ⟨below, last, rfl⟩
  · have hm : w.members m = [] := List.nil_perm.mp h.perm
    simp [managed, hm]
  · obtain ⟨q, hq, _⟩ := h.place (i := last) (by simp)
    obtain ⟨p, hp, rfl⟩ := Option.map_eq_some_iff.mp hq
    have hlast : (last, p) ∈ w.managed m :=
      mem_managed.mpr ⟨h.perm.mem_iff.mp (by simp), hp⟩
    obtain ⟨x, hx, he, hle⟩ := foldl_higher (List.ne_nil_of_mem hlast)
    obtain ⟨hxm, hxp⟩ := mem_managed.mp hx
    have hxs : x.1 ∈ below.concat last := h.perm.mem_iff.mpr hxm
    have hzx := h.rank x.1 hxs x.2.place (by simp [place?, hxp])
    have hzl := h.rank last (by simp) p.place hq
    have hxl : p.z ≤ x.2.z := hle (last, p) hlast
    have hnot : last ∉ below := by
      have := h.nodup
      rw [List.concat_eq_append] at this
      exact fun hm => List.disjoint_of_nodup_append this hm (by simp)
    simp only [Panel.place, List.concat_eq_append, List.idxOf_append, hnot, ↓reduceIte,
      List.idxOf_cons_self] at hzx hzl
    have hxe : x.1 = last := by
      by_contra hne
      have hxb : x.1 ∈ below := by simpa [hne] using hxs
      have := List.idxOf_lt_length_of_mem hxb
      simp only [hxb, ↓reduceIte] at hzx
      omega
    simp [he, hxe]

theorem place?_attach (w : Workspace α β) (m i j : Nat) :
    (w.attach m i).place? j =
      (w.place? j).map fun q =>
        if i = j then { q with manager := some m, z := (w.members m).length + 1 } else q := by
  simp only [place?, attach, panel?_modifyPanel, panel?_setMembers, Option.map_map,
    List.length_append, List.length_singleton]
  congr 1
  funext p
  by_cases h : i = j <;> simp [h, Panel.place]

theorem place?_detach (hd : (w.members m).Nodup) (hm : m < w.managers.length) (i z j : Nat) :
    (w.detach m i z).place? j =
      (w.place? j).map fun q =>
        if i = j then ⟨none, q.z, false⟩
        else if j ∈ (w.members m).erase i then q.lower z else q := by
  have hmem : (w.setMembers m ((w.members m).erase i)).members m = (w.members m).erase i := by
    rw [members_setMembers w m m _ hm, if_pos rfl]
  simp only [place?, detach, hmem, panel?_modifyPanel,
    panel?_foldl_modifyPanel _ _ (hd.erase i), panel?_setMembers, Option.map_map]
  congr 1
  funext p
  by_cases h : i = j
  · subst h
    simp [hd.not_mem_erase, Panel.place]
  · by_cases hj : j ∈ (w.members m).erase i
    · simp only [Function.comp_apply, h, hj, ↓reduceIte]
      rfl
    · simp [h, hj]

theorem members_attach (hm : m < w.managers.length) (i n : Nat) :
    (w.attach m i).members n = if m = n then w.members m ++ [i] else w.members n :=
  members_setMembers w m n _ hm

theorem members_detach (hm : m < w.managers.length) (i z n : Nat) :
    (w.detach m i z).members n = if m = n then (w.members m).erase i else w.members n := by
  simp only [detach, members_modifyPanel, members_foldl_modifyPanel]
  exact members_setMembers w m n _ hm

theorem lt_length_of_mem_members (hi : i ∈ w.members m) : m < w.managers.length := by
  by_contra hn
  simp [members, List.getElem?_eq_none (not_lt.mp hn)] at hi

/-- A panel that no manager has goes to the top of a stack. -/
theorem Ranked.attach (h : Ranked w m stack) (hm : m < w.managers.length) {q : Panel.Place}
    (hq : w.place? i = some q) (hfree : q.manager = none) :
    Ranked (w.attach m i) m (stack ++ [i]) := by
  have hnot : i ∉ stack := by
    intro hi
    have hown := (h.owned i).mp hi
    simp [owner?, hq, hfree] at hown
  refine ⟨?_, ?_, ?_, ?_⟩
  · exact List.nodup_append.mpr ⟨h.nodup, by simp, by rintro a ha b hb rfl; simp_all⟩
  · rw [members_attach hm, if_pos rfl]
    exact h.perm.append_right [i]
  · intro j
    by_cases hij : i = j
    · subst hij
      simp [owner?, place?_attach, hq]
    · have hown : (w.attach m i).owner? j = w.owner? j := by
        simp [owner?, place?_attach, hij]
      rw [hown, ← h.owned j]
      simp [Ne.symm hij]
  · intro j hj r hr
    rw [place?_attach] at hr
    obtain ⟨s, hs, rfl⟩ := Option.map_eq_some_iff.mp hr
    by_cases hij : i = j
    · subst hij
      simp [List.idxOf_append, hnot, h.perm.length_eq]
    · have hjs : j ∈ stack := by simpa [Ne.symm hij] using hj
      simp [hij, List.idxOf_append, hjs, h.rank j hjs s hs]

theorem Stacked.attach_other {n : Nat} (h : Stacked w n stack) (hm : m < w.managers.length)
    (hmn : m ≠ n) {q : Panel.Place} (hq : w.place? i = some q) (hfree : q.manager = none) :
    Stacked (w.attach m i) n stack := by
  refine h.congr (by rw [members_attach hm, if_neg hmn]) fun j => ?_
  by_cases hij : i = j
  · subst hij
    exact .inr ⟨by simp [owner?, hq, hfree], by simp [owner?, place?_attach, hq, hmn]⟩
  · left
    simp [place?_attach, hij]

/-- A panel leaves its stack, and the others keep their order. -/
theorem Ranked.detach (h : Ranked w m stack) (hi : i ∈ stack) {q : Panel.Place}
    (hq : w.place? i = some q) : Ranked (w.detach m i q.z) m (stack.erase i) := by
  have hm := lt_length_of_mem_members (h.perm.mem_iff.mp hi)
  have hd := h.nodup_members
  have hmem : ∀ {j}, i ≠ j → (j ∈ (w.members m).erase i ↔ j ∈ stack) := by
    intro j hij
    rw [List.mem_erase_of_ne (Ne.symm hij), ← h.perm.mem_iff]
  refine ⟨h.nodup.erase i, ?_, ?_, ?_⟩
  · rw [members_detach hm, if_pos rfl]
    exact h.perm.erase i
  · intro j
    by_cases hij : i = j
    · subst hij
      simp [owner?, place?_detach hd hm, hq, h.nodup.not_mem_erase]
    · have hown : (w.detach m i q.z).owner? j = w.owner? j := by
        simp only [owner?, place?_detach hd hm, hij, ↓reduceIte, Option.bind_map]
        congr 1
        funext r
        simp only [Function.comp_apply]
        split <;> rfl
      rw [hown, ← h.owned j, List.mem_erase_of_ne (Ne.symm hij)]
  · intro j hj r hr
    have hjs : j ∈ stack := List.mem_of_mem_erase hj
    have hij : i ≠ j := fun he => h.nodup.not_mem_erase (he ▸ hj)
    rw [place?_detach hd hm] at hr
    obtain ⟨s, hs, rfl⟩ := Option.map_eq_some_iff.mp hr
    have hz := h.rank j hjs s hs
    have hzi := h.rank i hi q hq
    simp only [hij, (hmem hij).mpr hjs, ↓reduceIte, Panel.Place.lower, hz, hzi,
      idxOf_erase h.nodup hi hjs hij]
    split <;> split <;> omega

theorem Stacked.detach_other {n z : Nat} {other : List Nat} (h : Ranked w m stack)
    (hi : i ∈ stack) (ho : Stacked w n other) (hmn : m ≠ n) :
    Stacked (w.detach m i z) n other := by
  have hm := lt_length_of_mem_members (h.perm.mem_iff.mp hi)
  have hd := h.nodup_members
  have hne : (some m : Option Nat) ≠ some n := fun he => hmn (Option.some.inj he)
  refine ho.congr (by rw [members_detach hm, if_neg hmn]) fun j => ?_
  by_cases hj : j ∈ stack
  · have hown : w.owner? j = some m := (h.owned j).mp hj
    obtain ⟨r, hr, hrm⟩ := h.place hj
    refine .inr ⟨hown ▸ hne, ?_⟩
    by_cases hij : i = j
    · simp [owner?, place?_detach hd hm, hr, hij]
    · by_cases hje : j ∈ (w.members m).erase i
      · simp [owner?, place?_detach hd hm, hr, hij, hje, Panel.Place.lower, hrm, hmn]
      · simp [owner?, place?_detach hd hm, hr, hij, hje, hrm, hmn]
  · have hij : i ≠ j := fun he => hj (he ▸ hi)
    have hje : j ∉ (w.members m).erase i := fun he =>
      hj (h.perm.mem_iff.mpr (List.mem_of_mem_erase he))
    left
    simp [place?_detach hd hm, hij, hje]

end Workspace

/-- A stack of panels for every manager, from bottom to top. -/
abbrev Stacks := Nat → List Nat

/-- What happens to a stack. -/
inductive Restacking where
  | push (manager panel : Nat)
  | raise (manager panel : Nat)
  | drop (manager panel : Nat)
  deriving DecidableEq, Repr

namespace Stacks

def restack (S : Stacks) : Restacking → Stacks
  | .push m i => Function.update S m (S m ++ [i])
  | .raise m i => Function.update S m ((S m).erase i ++ [i])
  | .drop m i => Function.update S m ((S m).erase i)

def restackAll (S : Stacks) (rs : List Restacking) : Stacks := rs.foldl restack S

@[simp] theorem restackAll_nil (S : Stacks) : S.restackAll [] = S := rfl

@[simp] theorem restackAll_cons (S : Stacks) (r : Restacking) (rs : List Restacking) :
    S.restackAll (r :: rs) = (S.restack r).restackAll rs := rfl

end Stacks

namespace Workspace

variable {α β : Type} {w w' : Workspace α β} {S : Stacks} {m i : Nat}

def Arranged (w : Workspace α β) (S : Stacks) : Prop := ∀ m, w.Stacked m (S m)

/-- Stacking sees no difference between two workspaces. -/
structure Alike (w w' : Workspace α β) : Prop where
  members : ∀ m, w'.members m = w.members m
  place : ∀ i, w'.place? i = w.place? i

theorem Alike.refl (w : Workspace α β) : Alike w w := ⟨fun _ => rfl, fun _ => rfl⟩

theorem Alike.trans {w'' : Workspace α β} (h : Alike w w') (h' : Alike w' w'') : Alike w w'' :=
  ⟨fun m => (h'.members m).trans (h.members m), fun i => (h'.place i).trans (h.place i)⟩

theorem Alike.signalling (w : Workspace α β) (i : Nat)
    {f : Panel α β → Panel α β × List (PanelSignal α β)} (hf : ∀ p, (f p).1.place = p.place) :
    Alike w (w.signalling i f) :=
  ⟨fun _ => members_signalling w i f, fun j => place?_signalling w i j hf⟩

theorem Alike.modifyPanel (w : Workspace α β) (i : Nat) {f : Panel α β → Panel α β}
    (hf : ∀ p, w.panel? i = some p → (f p).place = p.place) : Alike w (w.modifyPanel i f) := by
  refine ⟨fun _ => rfl, fun j => ?_⟩
  simp only [place?, panel?_modifyPanel, Option.map_map]
  cases hp : w.panel? j with
  | none => rfl
  | some p =>
    by_cases h : i = j
    · subst h
      simp [hf p hp]
    · simp [h]

theorem Ranked.alike (h : w.Ranked m stack) (ha : Alike w w') : w'.Ranked m stack := by
  refine ⟨h.nodup, ha.members m ▸ h.perm, fun i => ?_, fun i hi q hq => ?_⟩
  · rw [owner?, ha.place]
    exact h.owned i
  · exact h.rank i hi q (ha.place i ▸ hq)

theorem Arranged.alike (h : w.Arranged S) (ha : Alike w w') : w'.Arranged S :=
  fun m => (h m).congr (ha.members m) fun i => .inl (ha.place i)

theorem Arranged.update {stack : List Nat} (h : w'.Stacked m stack)
    (ho : ∀ n, m ≠ n → w'.Stacked n (S n)) : w'.Arranged (Function.update S m stack) := by
  intro n
  by_cases hn : m = n
  · subst hn
    simpa using h
  · simpa [Function.update_of_ne (Ne.symm hn)] using ho n hn

theorem Arranged.raise (h : w.Arranged S) (hi : i ∈ S m) :
    (w.raise m i).Arranged (S.restack (.raise m i)) :=
  Arranged.update ((h m).toRanked.raise hi) fun n hn =>
    Stacked.raise_other (h m).toRanked hi (h n) hn

/-- The arrangement holds the panels that have a manager. -/
theorem Arranged.mem_iff (h : w.Arranged S) {p : Panel α β} (hp : w.panel? i = some p) :
    i ∈ S m ↔ p.manager = some m := by
  simp [(h m).owned i, owner?, place?, hp, Panel.place]

theorem Arranged.add (h : w.Arranged S) (hm : m < w.managers.length) {p : Panel α β}
    (hp : w.panel? i = some p) (hfree : p.manager = none) :
    ((w.attach m i).raise m i).Arranged (S.restack (.push m i)) := by
  have hq : w.place? i = some p.place := by simp [place?, hp]
  have hnot : i ∉ S m := by
    simp [h.mem_iff hp, hfree]
  have hranked := (h m).toRanked.attach hm hq hfree
  have hraised := hranked.raise (i := i) (by simp)
  rw [List.erase_append_right _ hnot, List.erase_cons_head, List.append_nil] at hraised
  exact Arranged.update hraised fun n hn =>
    Stacked.raise_other hranked (by simp) ((h n).attach_other hm hn hq hfree) hn

/-- With the topmost panel raised, the right panel has the focus. -/
theorem Ranked.raiseTopmost {stack : List Nat} (h : w.Ranked m stack) :
    (w.raiseTopmost m).Stacked m stack := by
  rw [Workspace.raiseTopmost, h.topmost]
  rcases List.eq_nil_or_concat stack with rfl | ⟨below, last, rfl⟩
  · exact ⟨h, nofun⟩
  · have hnot : last ∉ below := by
      have := h.nodup
      rw [List.concat_eq_append] at this
      exact fun hm => List.disjoint_of_nodup_append this hm (by simp)
    have := h.raise (i := last) (by simp)
    simpa [List.erase_append_right _ hnot] using this

theorem Ranked.raiseTopmost_other {stack other : List Nat} {n : Nat} (h : w.Ranked m stack)
    (ho : w.Stacked n other) (hmn : m ≠ n) : (w.raiseTopmost m).Stacked n other := by
  rw [Workspace.raiseTopmost, h.topmost]
  cases ht : stack.getLast? with
  | none => exact ho
  | some top => exact Stacked.raise_other h (List.mem_of_getLast? ht) ho hmn

theorem Arranged.remove (h : w.Arranged S) {p : Panel α β} (hp : w.panel? i = some p)
    (hm : p.manager = some m) :
    ∃ w', w.remove m i = .ok w' ∧ w'.Arranged (S.restack (.drop m i)) := by
  have hi : i ∈ S m := (h.mem_iff hp).mpr hm
  refine ⟨_, by simp only [Workspace.remove, hp, hm, ne_eq, not_true_eq_false, ↓reduceIte]; rfl, ?_⟩
  have ha := Alike.signalling w i (f := Panel.cancelGesture) Panel.place_cancelGesture
  have h₁ := h.alike ha
  have hq : (w.signalling i Panel.cancelGesture).place? i = some p.place := by
    rw [ha.place, place?, hp, Option.map_some]
  have hb := Alike.signalling (((w.signalling i Panel.cancelGesture).detach m i p.z).tell i
    [.destroyed]) i (f := Panel.releaseBindings) Panel.place_releaseBindings
  have ht : Alike ((w.signalling i Panel.cancelGesture).detach m i p.z) _ :=
    ⟨fun m => (members_tell _ i [.destroyed]), fun _ => rfl⟩
  have hr := ((h₁ m).toRanked.detach hi hq).alike (ht.trans hb)
  refine Arranged.update hr.raiseTopmost fun n hn => hr.raiseTopmost_other ?_ hn
  have ho := Stacked.detach_other (z := p.z) (h₁ m).toRanked hi (h₁ n) hn
  exact ho.congr ((ht.trans hb).members n) fun j => .inl ((ht.trans hb).place j)

end Workspace

end DebugDesk
