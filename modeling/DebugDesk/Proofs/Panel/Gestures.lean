import DebugDesk.Proofs.Number.Exact
import DebugDesk.Proofs.Panel.Touches

/-!
# Gestures that get in each other's way

A panel is shown above all others while it is moved, and keeps its size while it is collapsed,
unless a gesture gets in the way of another: a resize that begins during a move leaves the panel
above all others, and a resize during which the panel is collapsed goes on resizing it.
-/
namespace DebugDesk

namespace Panel

variable {α β : Type}

/-- A panel that is moved is shown above all others. -/
def Grip.Lifted (g : Grip α) : Prop := g.gesture = some .move → g.elevated = true

/-- A panel is shown above all others though it is not moved. -/
def Grip.Stuck (g : Grip α) : Prop := g.elevated = true ∧ g.gesture ≠ some .move

/-- A panel is resized though it is collapsed. -/
def Grip.Strained (g : Grip α) : Prop := g.expanded = false ∧ g.gesture = some .resize

def Overtaken (p : Panel α β) (touch : Touch α) : Prop :=
  p.gesture = some .move ∧ p.Answers touch ∧ ∃ pointer, touch = .beginResize pointer

def Folded (p : Panel α β) (touch : Touch α) : Prop :=
  p.gesture = some .resize ∧ p.expanded = true ∧ p.Answers touch ∧ touch = .toggle

variable [Scalar α] {p : Panel α β} {touch : Option (Touch α)} {g : Grip α}
  {told : List (Notice α)}

theorem IsNew.idle (h : p.IsNew) : p.grip.gesture = none ∧ p.grip.elevated = false := by
  obtain ⟨_, _, _, _, _, _, _, _, _, rfl⟩ := h
  exact ⟨rfl, rfl⟩

theorem Goes.lifted (h : p.Goes touch g told) (hp : p.grip.Lifted) : g.Lifted := by
  cases h with
  | rests | toggles | moves | resizes => exact hp
  | lifts => exact fun _ => rfl
  | frees | grabs => simp [Grip.Lifted, Grip.free]

/-- A panel gets stuck above all others when it is resized in a move, until it is moved again. -/
theorem Goes.stuck_iff (h : p.Goes touch g told) (hp : p.grip.Lifted) :
    g.Stuck ↔ ((∃ t ∈ touch, p.Overtaken t) ∨ p.grip.Stuck) ∧ g.gesture ≠ some .move := by
  have hsame (hnot : ∀ t ∈ touch, ¬ p.Overtaken t) (hstuck : g.Stuck ↔ p.grip.Stuck) :
      g.Stuck ↔ ((∃ t ∈ touch, p.Overtaken t) ∨ p.grip.Stuck) ∧ g.gesture ≠ some .move := by
    rw [hstuck]
    constructor
    · exact fun h => ⟨.inr h, (hstuck.mpr h).2⟩
    · rintro ⟨⟨t, ht, htaken⟩ | h, -⟩
      · exact absurd htaken (hnot t ht)
      · exact h
  cases h with
  | rests _ idle => exact hsame (fun t ht htaken => idle t ht htaken.2.1) Iff.rfl
  | frees _ idle =>
    refine hsame (fun t ht htaken => idle t ht htaken.2.1) ?_
    simp [Grip.Stuck, Grip.free]
  | toggles => exact hsame (by simp [Overtaken]) Iff.rfl
  | lifts => simp [Grip.Stuck]
  | moves => exact hsame (by simp [Overtaken]) Iff.rfl
  | grabs pointer opened expanded =>
    have hmoving : ¬ some Gesture.resize = some .move := by simp
    constructor
    · rintro ⟨helevated, -⟩
      refine ⟨?_, hmoving⟩
      by_cases hg : p.gesture = some .move
      · exact .inl ⟨_, rfl, hg, ⟨opened, expanded⟩, pointer, rfl⟩
      · exact .inr ⟨helevated, hg⟩
    · rintro ⟨⟨t, ht, htaken⟩ | hstuck, -⟩
      · exact ⟨hp htaken.1, hmoving⟩
      · exact ⟨hstuck.1, hmoving⟩
  | resizes => exact hsame (by simp [Overtaken]) Iff.rfl

/-- A panel is strained when it is collapsed in a resize, until it is expanded or that ends. -/
theorem Goes.strained_iff (h : p.Goes touch g told) :
    g.Strained ↔ ((∃ t ∈ touch, p.Folded t) ∨ p.grip.Strained) ∧ g.Strained := by
  refine ⟨fun hg => ⟨?_, hg⟩, And.right⟩
  cases h with
  | rests => exact .inr hg
  | frees => cases hg.2
  | toggles opened =>
    have hexpanded : p.expanded = true := by simpa [grip] using hg.1
    exact .inl ⟨_, rfl, hg.2, hexpanded, opened, rfl⟩
  | lifts => cases hg.2
  | moves => exact .inr hg
  | grabs _ _ expanded => exact absurd hg.1 (by simp [grip, expanded])
  | resizes => exact .inr hg

end Panel

def Notice.size? {α : Type} : Notice α → Option (α × α)
  | .resized width height => some (width, height)
  | .suppressed _ => none

namespace Panel

variable {α β : Type} [Scalar α] {p : Panel α β} {touch : Option (Touch α)} {g : Grip α}
  {told : List (Notice α)}

structure Grip.Sized (g : Grip α) (p : Panel α β) : Prop where
  width : g.width = p.width
  height : g.height = p.height
  headerHeight : g.headerHeight = p.headerHeight

omit [Scalar α] in
theorem Grip.Sized.trans {q : Panel α β} (h : g.Sized q) (h' : q.grip.Sized p) : g.Sized p :=
  ⟨h.width.trans h'.width, h.height.trans h'.height, h.headerHeight.trans h'.headerHeight⟩

theorem Grip.Sized.bodyHeight {q : Panel α β} (h : q.grip.Sized p) :
    q.bodyHeight = p.bodyHeight := by
  have hheight : q.height = p.height := h.height
  have hheader : q.headerHeight = p.headerHeight := h.headerHeight
  rw [Panel.bodyHeight, hheight, hheader, Panel.bodyHeight]

/-- A collapsed panel keeps its size unless a resize goes on, and its content is told of it when the
panel is expanded. -/
theorem Goes.sized (h : p.Goes touch g told) (hcollapsed : p.expanded = false)
    (hfree : p.gesture = some .resize → ∀ pointer, touch ≠ some (.resizeTo pointer)) :
    g.Sized p ∧
      told.filterMap Notice.size? = if g.expanded then [(p.width, p.bodyHeight)] else [] := by
  have hgrip : p.grip.expanded = false := hcollapsed
  cases h with
  | rests => exact ⟨⟨rfl, rfl, rfl⟩, by simp [hgrip]⟩
  | frees =>
    refine ⟨⟨rfl, rfl, rfl⟩, ?_⟩
    rw [Grip.farewell]
    split <;> simp [Notice.size?, Grip.free, hgrip]
  | toggles => exact ⟨⟨rfl, rfl, rfl⟩, by simp [hcollapsed, Notice.size?]⟩
  | lifts => exact ⟨⟨rfl, rfl, rfl⟩, by simp [Notice.size?, hgrip]⟩
  | moves => exact ⟨⟨rfl, rfl, rfl⟩, by simp [hgrip]⟩
  | grabs _ _ expanded => exact absurd expanded (by simp [hcollapsed])
  | resizes pointer resizing => exact absurd rfl (hfree resizing pointer)

theorem Goes.strained_before (h : p.Goes touch g told) (hcollapsed : p.expanded = false)
    (hg : g.Strained) : p.grip.Strained := by
  refine (h.strained_iff.mp hg).1.resolve_left ?_
  rintro ⟨t, -, hfolded⟩
  exact absurd hfolded.2.1 (by simp [hcollapsed])

end Panel

namespace PanelScript.Stage

open Workspace hiding bind

variable {α β : Type} [Scalar α] {s : Stage α β} {i : Nat} {p q : Panel α β}
  {x : Action α β} {xs : List (Action α β)}
  {begins : Panel α β → Panel.Touch α → Prop} {lasts : Panel.Grip α → Prop}

/-- Something was done to a panel by hand, and has lasted since. -/
def Since (s : Stage α β) (i : Nat) (begins : Panel α β → Panel.Touch α → Prop)
    (lasts : Panel.Grip α → Prop) (xs : List (Action α β)) : Prop :=
  ∃ before x after p, xs = before ++ x :: after ∧ (s.acts before).workspace.panel? i = some p ∧
    (∃ touch ∈ x.touch? i, begins p touch) ∧
    ∀ mid, mid <+: after → ∀ q, (s.acts (before ++ x :: mid)).workspace.panel? i = some q →
      lasts q.grip

theorem since_nil (s : Stage α β) : ¬ s.Since i begins lasts [] := by
  rintro ⟨before, x, after, _, hsplit, _⟩
  cases before <;> cases hsplit

theorem since_concat (s : Stage α β) (xs : List (Action α β)) (x : Action α β) :
    s.Since i begins lasts (xs ++ [x]) ↔
      ((∃ p, (s.acts xs).workspace.panel? i = some p ∧ ∃ touch ∈ x.touch? i, begins p touch) ∨
        s.Since i begins lasts xs) ∧
      ∀ q, (s.acts (xs ++ [x])).workspace.panel? i = some q → lasts q.grip := by
  constructor
  · rintro ⟨before, y, after, p, hsplit, hp, hbegins, hlasts⟩
    -- It began with the last action, or before.
    rcases List.eq_nil_or_concat after with rfl | ⟨after, z, rfl⟩
    · obtain ⟨rfl, hy⟩ := List.append_inj' hsplit rfl
      obtain rfl := List.singleton_inj.mp hy
      exact ⟨.inl ⟨p, hp, hbegins⟩, hlasts [] List.nil_prefix⟩
    · rw [List.concat_eq_append] at hsplit hlasts
      have hlast := hlasts _ (List.prefix_refl _)
      rw [← hsplit] at hlast
      rw [← List.cons_append, ← List.append_assoc] at hsplit
      obtain ⟨rfl, -⟩ := List.append_inj' hsplit rfl
      exact ⟨.inr ⟨before, y, after, p, rfl, hp, hbegins, fun mid hmid =>
        hlasts mid (hmid.trans (List.prefix_append _ _))⟩, hlast⟩
  · rintro ⟨⟨p, hp, hbegins⟩ | ⟨before, y, after, p, rfl, hp, hbegins, hlasts⟩, hlast⟩
    · refine ⟨xs, x, [], p, rfl, hp, hbegins, fun mid hmid => ?_⟩
      obtain rfl := List.prefix_nil.mp hmid
      exact hlast
    · refine ⟨before, y, after ++ [x], p, by simp, hp, hbegins, fun mid hmid => ?_⟩
      rcases List.prefix_concat_iff.mp hmid with rfl | hmid
      · rw [← List.cons_append, ← List.append_assoc]
        exact hlast
      · exact hlasts mid hmid

/-- What is true of new panels, and stays true however they go on, is true of all panels. -/
theorem grips_acts {J : Panel.Grip α → Prop} (hnew : ∀ p : Panel α β, p.IsNew → J p.grip)
    (hgoes : ∀ (p : Panel α β) touch g told, p.Goes touch g told → J p.grip → J g)
    (settings : List (α × α)) (xs : List (Action α β)) :
    ∀ p, ((start settings).acts xs).workspace.panel? i = some p → J p.grip := by
  induction xs using List.reverseRecOn with
  | nil =>
    intro p hp
    simp [acts, start, Workspace.make, panel?] at hp
  | append_singleton xs x ih =>
    intro q hq
    rw [acts_concat] at hq
    cases hp : ((start settings).acts xs).workspace.panel? i with
    | none => exact hnew q ((absent_act _ x hp).2 q hq)
    | some p =>
      obtain ⟨-, r, told, hr, -, hpr, -⟩ := goes _ x hp
      obtain rfl : r = q := Option.some.inj (hr.symm.trans hq)
      exact hgoes p _ _ told hpr (ih p hp)

/-- What is not true of new panels, and of others from when something begins and as long as it
lasts, is true while that has lasted. -/
theorem since_iff {J I : Panel.Grip α → Prop} (hnew : ∀ p : Panel α β, p.IsNew → J p.grip)
    (hgoes : ∀ (p : Panel α β) touch g told, p.Goes touch g told → J p.grip → J g)
    (hnot : ∀ p : Panel α β, p.IsNew → ¬ I p.grip)
    (hturns : ∀ (p : Panel α β) touch g told, p.Goes touch g told → J p.grip →
      (I g ↔ ((∃ t ∈ touch, begins p t) ∨ I p.grip) ∧ lasts g))
    (settings : List (α × α)) (xs : List (Action α β)) :
    (∃ p, ((start settings).acts xs).workspace.panel? i = some p ∧ I p.grip) ↔
      (start settings).Since i begins lasts xs := by
  induction xs using List.reverseRecOn with
  | nil =>
    refine iff_of_false ?_ (since_nil _)
    rintro ⟨p, hp, _⟩
    simp [acts, start, Workspace.make, panel?] at hp
  | append_singleton xs x ih =>
    rw [since_concat, ← ih, acts_concat]
    cases hp : ((start settings).acts xs).workspace.panel? i with
    | none =>
      refine iff_of_false ?_ (by simp)
      rintro ⟨q, hq, hI⟩
      exact hnot q ((absent_act _ x hp).2 q hq) hI
    | some p =>
      obtain ⟨-, q, told, hq, -, hpq, -⟩ := goes _ x hp
      have hturn := hturns p _ _ told hpq (grips_acts hnew hgoes settings xs p hp)
      simpa [hq] using hturn

/-- A resize took over from a move of a panel, and the panel was not moved since. -/
abbrev Overtaken (s : Stage α β) (i : Nat) (xs : List (Action α β)) : Prop :=
  s.Since i Panel.Overtaken (·.gesture ≠ some .move) xs

/-- A panel is shown above all others while it is moved, and from when a resize takes over from a
move until it is moved again. Else it is shown where it is stacked. -/
theorem acts_displayZ (settings : List (α × α)) (xs : List (Action α β))
    (hp : ((start settings).acts xs).workspace.panel? i = some p) :
    (p.elevated = true ↔ p.gesture = some .move ∨ (start settings).Overtaken i xs) ∧
      ((start settings).Overtaken i xs → p.gesture ≠ some .move ∧ p.displayZ = dragZ) ∧
      (¬ (start settings).Overtaken i xs →
        p.displayZ = if p.gesture = some .move then dragZ else p.z) := by
  have hlifted (p : Panel α β) (h : p.IsNew) : p.grip.Lifted := by
    simp [Panel.Grip.Lifted, h.idle.1]
  have hstuck : p.grip.Stuck ↔ (start settings).Overtaken i xs := by
    rw [Overtaken, ← since_iff hlifted (fun _ _ _ _ h => h.lifted)
      (fun p h => by simp [Panel.Grip.Stuck, h.idle.2]) (fun _ _ _ _ h => h.stuck_iff)]
    simp [hp]
  have hmoving : p.gesture = some .move → p.elevated = true :=
    grips_acts hlifted (fun _ _ _ _ h => h.lifted) settings xs p hp
  rw [← hstuck]
  refine ⟨⟨fun h => ?_, fun h => h.elim hmoving And.left⟩, fun h => ?_, fun h => ?_⟩
  · by_cases hg : p.gesture = some .move
    · exact .inl hg
    · exact .inr ⟨h, hg⟩
  · have helevated : p.elevated = true := h.1
    exact ⟨h.2, by rw [Panel.displayZ, if_pos helevated]⟩
  · by_cases hg : p.gesture = some .move
    · rw [Panel.displayZ, if_pos (hmoving hg), if_pos hg]
    · have hlow : ¬ p.elevated = true := fun helevated => h ⟨helevated, hg⟩
      rw [Panel.displayZ, if_neg hlow, if_neg hg]

def orderly : List (Action ℚ Unit) :=
  [.command (.create "plot" 0 0 100 100 true 20 40 40), .command (.add 0 0),
    .command (.beginMove 0 ⟨5, 5⟩), .command (.moveTo 0 ⟨25, 5⟩), .command (.endMove 0),
    .command (.beginResize 0 ⟨115, 95⟩)]

theorem orderly_displayZ :
    ∃ p, ((start [(20, 1 / 2)]).acts orderly).workspace.panel? 0 = some p ∧
      p.gesture = some .resize ∧ ¬ (start [(20, 1 / 2)]).Overtaken 0 orderly ∧
      p.displayZ = p.z := by
  have hrun : (((start [(20, 1 / 2)]).acts orderly).workspace.panel? 0).map
      (fun p => (p.gesture, p.elevated)) = some (some .resize, false) := by decide +kernel
  obtain ⟨p, hp, hpanel⟩ := Option.map_eq_some_iff.mp hrun
  obtain ⟨hgesture, hlow⟩ := Prod.mk.inj hpanel
  obtain ⟨hiff, -, hfree⟩ := acts_displayZ [(20, 1 / 2)] orderly hp
  have hnot : ¬ (start [(20, 1 / 2)]).Overtaken 0 orderly := by
    intro h
    have helevated := hiff.mpr (.inr h)
    rw [hlow] at helevated
    cases helevated
  refine ⟨p, hp, hgesture, hnot, ?_⟩
  rw [hfree hnot, hgesture]
  rfl

def hasty : List (Action ℚ Unit) :=
  [.command (.create "plot" 0 0 100 100 true 20 40 40), .command (.add 0 0),
    .command (.beginMove 0 ⟨5, 5⟩), .command (.beginResize 0 ⟨95, 95⟩), .command (.endResize 0)]

theorem hasty_stays_above :
    ∃ p, ((start [(20, 1 / 2)]).acts hasty).workspace.panel? 0 = some p ∧
      p.gesture = none ∧ p.z = 1 ∧ p.displayZ = 1000 := ⟨_, rfl, rfl, rfl, rfl⟩

def sizes (s : Stage α β) (i : Nat) : List (α × α) :=
  (s.workspace.notices i).filterMap Notice.size?

/-- A panel was collapsed during a resize, which goes on while the panel is collapsed. -/
abbrev Folded (s : Stage α β) (i : Nat) (xs : List (Action α β)) : Prop :=
  s.Since i Panel.Folded Panel.Grip.Strained xs

/-- A panel is collapsed before each of some actions. -/
def StaysCollapsed (s : Stage α β) (i : Nat) (xs : List (Action α β)) : Prop :=
  ∀ before x after, xs = before ++ x :: after →
    ∀ q, (s.acts before).workspace.panel? i = some q → q.expanded = false

def Stretches (i : Nat) (x : Action α β) : Prop := ∃ pointer, x.touch? i = some (.resizeTo pointer)

/-- A panel keeps its size as long as it is collapsed, unless it is being resized. -/
theorem sized_acts (hp : s.workspace.panel? i = some p) (hcollapsed : p.expanded = false)
    (hfree : p.gesture = some .resize → ∀ x ∈ xs, ¬ Stretches i x) (hxs : s.StaysCollapsed i xs) :
    ∃ q, (s.acts xs).workspace.panel? i = some q ∧ q.grip.Sized p ∧
      (q.grip.Strained → p.gesture = some .resize) ∧
      (s.acts xs).sizes i =
        s.sizes i ++ if q.expanded then [(p.width, p.bodyHeight)] else [] := by
  induction xs using List.reverseRecOn with
  | nil => exact ⟨p, hp, ⟨rfl, rfl, rfl⟩, And.right, by simp [hcollapsed, acts]⟩
  | append_singleton xs x ih =>
    obtain ⟨q, hq, hsized, hresizing, hsizes⟩ :=
      ih (fun h y hy => hfree h y (List.mem_append_left _ hy))
        fun before y after h => hxs before y (after ++ [x]) (by simp [h])
    have hstill := hxs xs x [] rfl q hq
    obtain ⟨-, r, told, hr, htold, hgoes, -⟩ := goes (s.acts xs) x hq
    obtain ⟨hsame, hsize⟩ := hgoes.sized hstill fun hg pointer hx =>
      hfree (hresizing ⟨hstill, hg⟩) x (by simp) ⟨pointer, hx⟩
    have hwidth : q.width = p.width := hsized.width
    have hshown : r.grip.expanded = r.expanded := rfl
    rw [acts_concat]
    refine ⟨r, hr, hsame.trans hsized, fun h => hresizing (hgoes.strained_before hstill h), ?_⟩
    rw [sizes, htold, List.filterMap_append, hsize, ← sizes, hsizes, hsized.bodyHeight, hwidth,
      hshown, hstill]
    simp

/-- A collapsed panel is being resized only if it was collapsed during that resize. Unless that goes
on then, the panel keeps its size for as long as it is collapsed; its content is told of no size
meanwhile, and of the same one as before when the panel is expanded. -/
theorem acts_collapsed (settings : List (α × α)) (xs : List (Action α β))
    (hp : ((start settings).acts xs).workspace.panel? i = some p)
    (hcollapsed : p.expanded = false) :
    (p.gesture = some .resize ↔ (start settings).Folded i xs) ∧
      ∀ ys : List (Action α β), ((start settings).acts xs).StaysCollapsed i ys →
        ((start settings).Folded i xs → ∀ y ∈ ys, ¬ Stretches i y) →
        ∃ q, (((start settings).acts xs).acts ys).workspace.panel? i = some q ∧
          q.width = p.width ∧ q.height = p.height ∧
          (((start settings).acts xs).acts ys).sizes i =
            ((start settings).acts xs).sizes i ++
              if q.expanded then [(p.width, p.bodyHeight)] else [] := by
  have hfolded : p.grip.Strained ↔ (start settings).Folded i xs := by
    rw [Folded, ← since_iff (J := fun _ => True) (fun _ _ => trivial) (fun _ _ _ _ _ => id)
      (fun p h => by simp [Panel.Grip.Strained, h.idle.1]) (fun _ _ _ _ h _ => h.strained_iff)]
    simp [hp]
  have hresizing : p.gesture = some .resize ↔ (start settings).Folded i xs := by
    rw [← hfolded]
    exact ⟨fun h => ⟨hcollapsed, h⟩, And.right⟩
  refine ⟨hresizing, fun ys hys hfree => ?_⟩
  obtain ⟨q, hq, hsized, -, hsizes⟩ :=
    sized_acts hp hcollapsed (fun h => hfree (hresizing.mp h)) hys
  exact ⟨q, hq, hsized.width, hsized.height, hsizes⟩

def shut : List (Action ℚ Unit) :=
  [.command (.create "plot" 0 0 100 100 true 20 40 40), .command (.add 0 0),
    .command (.beginResize 0 ⟨95, 95⟩), .command (.resizeTo 0 ⟨135, 95⟩), .command (.endResize 0),
    .command (.toggle 0)]

def reopening : List (Action ℚ Unit) :=
  [.command (.beginResize 0 ⟨95, 15⟩), .command (.resizeTo 0 ⟨15, 95⟩),
    .command (.beginMove 0 ⟨5, 5⟩), .command (.moveTo 0 ⟨45, 25⟩), .command (.endMove 0),
    .command (.toggle 0)]

theorem shut_keeps_size :
    ∃ q, (((start [(20, 1 / 2)]).acts shut).acts reopening).workspace.panel? 0 = some q ∧
      q.expanded = true ∧ q.width = 140 ∧ q.height = 100 ∧
      (((start [(20, 1 / 2)]).acts shut).acts reopening).sizes 0 =
        ((start [(20, 1 / 2)]).acts shut).sizes 0 ++ [(140, 80)] := by
  have hrun : (((start [(20, 1 / 2)]).acts shut).workspace.panel? 0).map
      (fun p => (p.expanded, p.gesture, p.width, p.height, p.bodyHeight)) =
        some (false, none, 140, 100, 80) := by decide +kernel
  have hreopened : ((((start [(20, 1 / 2)]).acts shut).acts reopening).workspace.panel? 0).map
      Panel.expanded = some true := by decide +kernel
  have hmeanwhile : ∀ n < 6, ((((start [(20, 1 / 2)]).acts shut).acts
      (reopening.take n)).workspace.panel? 0).map Panel.expanded = some false := by decide +kernel
  obtain ⟨p, hp, hpanel⟩ := Option.map_eq_some_iff.mp hrun
  simp only [Prod.mk.injEq] at hpanel
  obtain ⟨hcollapsed, hidle, hwidth, hheight, hbody⟩ := hpanel
  obtain ⟨hiff, hkeeps⟩ := acts_collapsed [(20, 1 / 2)] shut hp hcollapsed
  have hfree : ¬ (start [(20, 1 / 2)]).Folded 0 shut := by
    rw [← hiff, hidle]
    simp
  have hstill : ((start [(20, 1 / 2)]).acts shut).StaysCollapsed 0 reopening := by
    intro before x after h q hq
    have hbefore : before = reopening.take before.length := by rw [h, List.take_left]
    have hlength : before.length < 6 := by
      have hsum := congrArg List.length h
      simp only [reopening, List.length_cons, List.length_nil, List.length_append] at hsum
      omega
    have hcollapsed := hmeanwhile before.length hlength
    rw [← hbefore, hq] at hcollapsed
    exact Option.some.inj hcollapsed
  obtain ⟨q, hq, hqwidth, hqheight, hsizes⟩ := hkeeps reopening hstill (absurd · hfree)
  rw [hq] at hreopened
  have hexpanded : q.expanded = true := Option.some.inj hreopened
  refine ⟨q, hq, hexpanded, hqwidth.trans hwidth, hqheight.trans hheight, ?_⟩
  rw [hsizes, hexpanded, if_pos rfl, hwidth, hbody]

def pinched : Stage ℚ Unit :=
  (start [(20, 1 / 2)]).acts
    [.command (.create "plot" 0 0 100 100 true 20 40 40), .command (.add 0 0),
      .command (.beginResize 0 ⟨95, 95⟩), .command (.toggle 0)]

theorem pinched_is_resized :
    (pinched.workspace.panel? 0).map (fun p => (p.expanded, p.width)) = some (false, 100) ∧
      ((pinched.act (.command (.resizeTo 0 ⟨135, 95⟩))).workspace.panel? 0).map
        (fun p => (p.expanded, p.width)) = some (false, 140) ∧
      (pinched.act (.command (.resizeTo 0 ⟨135, 95⟩))).sizes 0 =
        pinched.sizes 0 ++ [(140, 80)] := by
  decide +kernel

end PanelScript.Stage

end DebugDesk
