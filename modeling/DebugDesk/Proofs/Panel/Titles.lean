import DebugDesk.Proofs.Panel.Waning

/-!
# Opening panels by their title

A title is looked up among the managed panels, and the first panel that has it counts. If that one
is closing, it hides a live panel of the same title behind it.
-/
namespace DebugDesk.Workspace

variable {α β : Type} {w w' : Workspace α β} {S : Stacks} {m i j : Nat} {title : String}
  {p : Panel α β}

/-- The panel at the top of the stack is the one that has the focus. -/
theorem Stacked.focused {stack : List Nat} (h : w.Stacked m stack) :
    w.focused m = stack.getLast? := by
  cases hlast : stack.getLast? with
  | none =>
    have hempty : w.members m = [] := by
      have hperm := h.perm
      rw [List.getLast?_eq_none_iff.mp hlast] at hperm
      exact hperm.symm.eq_nil
    simp [Workspace.focused, managed, hempty]
  | some top =>
    have htop : top ∈ stack := List.mem_of_getLast? hlast
    obtain ⟨q, hq, -⟩ := h.place htop
    obtain ⟨p, hp, rfl⟩ := Option.map_eq_some_iff.mp hq
    have hfocused : p.focused = true := (h.top top htop _ hq).mpr hlast
    have hmem : (top, p) ∈ w.managed m := mem_managed.mpr ⟨h.perm.mem_iff.mp htop, hp⟩
    have hfound : ((w.managed m).find? fun x => x.2.focused).isSome :=
      List.find?_isSome.mpr ⟨_, hmem, hfocused⟩
    obtain ⟨x, hx⟩ := Option.isSome_iff_exists.mp hfound
    obtain ⟨hmx, hpx⟩ := mem_managed.mp (List.mem_of_find?_eq_some hx)
    have hplace : w.place? x.1 = some x.2.place := by rw [place?, hpx, Option.map_some]
    have hx' : x.2.focused = true := by simpa using List.find?_some hx
    have hsame := (h.top x.1 (h.perm.mem_iff.mpr hmx) _ hplace).mp hx'
    rw [Workspace.focused, hx, Option.map_some, ← hsame, hlast]

theorem Arranged.mem_members (h : w.Arranged S) (hi : i ∈ w.members m) :
    ∃ p, w.panel? i = some p ∧ p.manager = some m := by
  obtain ⟨q, hq, hm⟩ := (h m).place ((h m).perm.mem_iff.mpr hi)
  obtain ⟨p, hp, rfl⟩ := Option.map_eq_some_iff.mp hq
  exact ⟨p, hp, hm⟩

theorem Arranged.focused_raise (h : w.Arranged S) (hi : i ∈ w.members m) :
    (w.raise m i).focused m = some i := by
  have hraised := h.raise ((h m).perm.mem_iff.mpr hi) m
  rw [hraised.focused]
  simp [Stacks.restack]

theorem Arranged.focused_add (h : w.Arranged S) (hm : m < w.managers.length)
    (hp : w.panel? i = some p) (hfree : p.manager = none) :
    ((w.attach m i).raise m i).focused m = some i := by
  rw [(h.add hm hp hfree m).focused]
  simp [Stacks.restack]

theorem mem_live : i ∈ w.live m title ↔ i ∈ w.members m ∧ w.isLive title i = true := List.mem_filter

def label? (w : Workspace α β) (i : Nat) : Option (String × Bool) :=
  (w.panel? i).map fun p => (p.title, p.closing)

theorem isLive_congr (h : w'.label? i = w.label? i) : w'.isLive title i = w.isLive title i := by
  have hlabel : ∀ w : Workspace α β,
      w.isLive title i = (w.label? i).any fun l => l.1 == title && !l.2 := by
    intro w
    rw [isLive, label?, Option.any_map]
  rw [hlabel, hlabel, h]

theorem isLive_modifyPanel (w : Workspace α β) (i : Nat) {f : Panel α β → Panel α β}
    (hf : ∀ p, ((f p).title, (f p).closing) = (p.title, p.closing)) :
    (w.modifyPanel i f).isLive title = w.isLive title :=
  funext fun j => isLive_congr (map_panel?_modifyPanel w i j hf)

theorem isLive_raise (w : Workspace α β) (m i : Nat) :
    (w.raise m i).isLive title = w.isLive title :=
  funext fun j => isLive_congr (map_panel?_raise w m i j fun _ _ _ => rfl)

theorem live_raise (w : Workspace α β) (m n i : Nat) :
    (w.raise m i).live n title = w.live n title := by
  rw [live, members_raise, isLive_raise, live]

theorem live_modifyPanel (w : Workspace α β) (i m : Nat) {f : Panel α β → Panel α β}
    (hf : ∀ p, ((f p).title, (f p).closing) = (p.title, p.closing)) :
    (w.modifyPanel i f).live m title = w.live m title := by
  rw [live, isLive_modifyPanel w i hf, members_modifyPanel, live]

theorem panel?_push (w : Workspace α β) (p : Panel α β) :
    (w.push p).panel? w.panels.length = some p := by
  simp [panel?, push]

/-- A panel that is made and added is the last of its title. -/
theorem Arranged.live_add (h : w.Arranged S) (hm : m < w.managers.length) (p : Panel α β) :
    (((w.push p).attach m w.panels.length).raise m w.panels.length).live m title =
      w.live m title ++ if p.title == title && !p.closing then [w.panels.length] else [] := by
  have hold : ∀ j ∈ w.members m, (w.push p).isLive title j = w.isLive title j := by
    intro j hj
    obtain ⟨q, hq, -⟩ := h.mem_members hj
    rw [isLive, isLive, panel?_push_of_some w p hq, hq]
  have hattach : ((w.push p).attach m w.panels.length).isLive title = (w.push p).isLive title :=
    isLive_modifyPanel _ _ fun _ => rfl
  have hmembers : (w.push p).members m = w.members m := rfl
  have hm' : m < (w.push p).managers.length := hm
  have hnew : (w.push p).isLive title w.panels.length = (p.title == title && !p.closing) := by
    rw [isLive, panel?_push, Option.any_some]
  rw [live_raise, live, members_attach hm', if_pos rfl, hattach, hmembers, List.filter_append,
    List.filter_congr hold, List.filter_singleton, hnew, live]
  cases p.title == title && !p.closing <;> rfl

def opened? (w : Workspace α β) (m : Nat) (title : String) : Option Nat :=
  (w.find m title).filter fun i =>
    match w.panel? i with
    | some p => !p.closing
    | none => false

/-- The first managed panel of a title is closing, but another one is live. -/
def Shadowed (w : Workspace α β) (m : Nat) (title : String) : Prop :=
  w.live m title ≠ [] ∧ w.opened? m title = none

instance (w : Workspace α β) (m : Nat) (title : String) : Decidable (w.Shadowed m title) :=
  inferInstanceAs (Decidable (_ ∧ _))

theorem find_eq (w : Workspace α β) (m : Nat) (title : String) :
    w.find m title = (w.members m).find? fun i => (w.panel? i).any fun p => p.title == title := by
  rw [find, managed]
  induction w.members m with
  | nil => rfl
  | cons i l ih =>
    cases hp : w.panel? i with
    | none => simpa [hp] using ih
    | some p =>
      cases ht : p.title == title with
      | true => simp [hp, ht]
      | false => simpa [hp, ht] using ih

/-- The panel that is looked up is the first live one. -/
theorem opened?_eq_some (h : w.opened? m title = some i) : (w.live m title).head? = some i := by
  obtain ⟨hfind, hopen⟩ := Option.filter_eq_some_iff.mp h
  rw [find_eq] at hfind
  have htitle := List.find?_some hfind
  have hlive : w.isLive title i = true := by
    cases hp : w.panel? i with
    | none => simp [hp] at hopen
    | some p => simp_all [isLive]
  obtain ⟨-, before, after, hmembers, hbefore⟩ := List.find?_eq_some_iff_append.mp hfind
  have hnone : before.filter (w.isLive title) = [] := by
    refine List.filter_eq_nil_iff.mpr fun j hj hlive => ?_
    have hother := hbefore j hj
    cases hp : w.panel? j with
    | none => simp [isLive, hp] at hlive
    | some p => simp_all [isLive]
  rw [live, hmembers, List.filter_append, hnone, List.nil_append, List.filter_cons_of_pos hlive,
    List.head?_cons]

theorem live_eq_nil (h : ¬ w.Shadowed m title) (hnone : w.opened? m title = none) :
    w.live m title = [] := by
  by_contra hlive
  exact h ⟨hlive, hnone⟩

theorem signals_foldl_modifyPanel (f : Nat → Panel α β → Panel α β) (l : List Nat)
    (w : Workspace α β) :
    (l.foldl (fun w i => w.modifyPanel i (f i)) w).signals = w.signals := by
  induction l generalizing w with
  | nil => rfl
  | cons i l ih =>
    rw [List.foldl_cons, ih]
    rfl

theorem signals_raise (w : Workspace α β) (m i : Nat) : (w.raise m i).signals = w.signals := by
  cases hp : w.panel? i with
  | none => simp only [raise, hp]
  | some p =>
    rw [raise_eq w m hp]
    exact signals_foldl_modifyPanel _ _ w

/-- How the panels of a manager are after a title was opened. -/
inductive Opened (m : Nat) (title : String) (w w' : Workspace α β) : Prop where
  | focused (i : Nat) (found : w.opened? m title = some i)
      (live : ∀ t, w'.live m t = w.live m t) (focus : w'.focused m = some i)
      (count : w'.panels.length = w.panels.length)
  /-- There is none to look up, and a new panel gets the focus. -/
  | added (missed : w.opened? m title = none)
      (live : ∀ t, w'.live m t = w.live m t ++ if title == t then [w.panels.length] else [])
      (focus : w'.focused m = some w.panels.length)
      (count : w'.panels.length = w.panels.length + 1)
  /-- There is none, nor a place to put a new one. -/
  | failed (missed : w.opened? m title = none) (same : w' = w)

/-- Opening a title makes its only live panel, unless it is hidden. -/
theorem Opened.length_live (h : Opened m title w w') (hseen : ¬ w.Shadowed m title)
    (hone : ∀ t, (w.live m t).length ≤ 1) (t : String) : (w'.live m t).length ≤ 1 := by
  cases h with
  | focused i found live focus count => exact live t ▸ hone t
  | failed missed same => exact same ▸ hone t
  | added missed live focus count =>
    rw [live]
    by_cases ht : title = t
    · subst ht
      simp [live_eq_nil hseen missed]
    · simpa [ht] using hone t

/-- Opening a title that is hidden makes one more live panel of it. -/
theorem Opened.of_shadowed (h : Opened m title w w') (hidden : w.Shadowed m title) :
    w' = w ∨ 2 ≤ (w'.live m title).length := by
  cases h with
  | focused i found live focus count => simp [hidden.2] at found
  | failed missed same => exact .inl same
  | added missed live focus count =>
    have hlive : 0 < (w.live m title).length := List.length_pos_iff.mpr hidden.1
    refine .inr ?_
    rw [live, List.length_append, if_pos BEq.rfl, List.length_singleton]
    exact Nat.succ_le_succ hlive

theorem Arranged.opened_raise (h : w.Arranged S) (hi : w.opened? m title = some i) :
    Opened m title w (w.raise m i) := by
  have hlive : i ∈ w.live m title := List.mem_of_head? (opened?_eq_some hi)
  exact .focused i hi (fun t => live_raise w m m i) (h.focused_raise (mem_live.mp hlive).1)
    (Fades.raise w m i).count

theorem Arranged.opened_add (h : w.Arranged S) (hm : m < w.managers.length)
    (hnone : w.opened? m p.title = none) (hfree : p.manager = none) (hopen : p.closing = false) :
    Opened m p.title w
      (((w.push p).attach m w.panels.length).raise m w.panels.length) := by
  have hattach : ((w.push p).attach m w.panels.length).panels.length = (w.push p).panels.length :=
    List.length_modify ..
  refine .added hnone (fun t => ?_) ?_ ?_
  · rw [h.live_add hm p, hopen, Bool.not_false, Bool.and_true]
  · exact (h.push hfree).focused_add hm (panel?_push w p) hfree
  · rw [(Fades.raise _ m _).count, hattach]
    exact List.length_append

/-- What is bound to a new panel is of no matter to its title. -/
theorem Opened.bind (h : Opened m title w w') (harranged : ∃ S, w'.Arranged S)
    (hnew : w'.panels.length = w.panels.length + 1) (i : Nat) (binding : β) :
    Opened m title w (w'.bind i binding) := by
  have hlive : ∀ t, (w'.bind i binding).live m t = w'.live m t := fun t =>
    live_modifyPanel w' i m fun _ => rfl
  have halike : Alike w' (w'.bind i binding) := .modifyPanel w' i fun _ _ => rfl
  have hfocus : (w'.bind i binding).focused m = w'.focused m := by
    obtain ⟨S, hS⟩ := harranged
    rw [(hS m).focused, (hS.alike halike m).focused]
  have hlength : (w'.bind i binding).panels.length = w'.panels.length := List.length_modify ..
  cases h with
  | focused i found live focus count => omega
  | failed missed same =>
    subst same
    omega
  | added missed live focus count =>
    exact .added missed (fun t => (hlive t).trans (live t)) (hfocus.trans focus)
      (hlength.trans count)

end DebugDesk.Workspace
