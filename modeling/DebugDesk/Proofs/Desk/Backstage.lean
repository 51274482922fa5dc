import DebugDesk.Proofs.Desk.Contents
import DebugDesk.Proofs.Toolkit.Reframing
import DebugDesk.Proofs.Toolkit.Screens

/-!
# Behind the scenes

Contents are built, told of changes and destroyed inside the windows of their panels. Whatever they
do with the toolkit, the windows and themes of all panels stay as they are, and so does what other
panels show.
-/
namespace DebugDesk

namespace Desk

open Effect Toolkit
open Display (Spares frameKinds)

instance (address : Nat → Nat) :
    letI := Platform.simulated address
    LawfulGui Platform.Toolkit Handler :=
  inferInstanceAs (LawfulGui (Toolkit Handler) Handler)

variable [Platform]

/-- The items that a content deletes in the end, apart from those of a widget. -/
def Content.items : Content → List String
  | .clock c => c.text.toList
  | .log c => c.container.toList
  | _ => []

/-- What an event tells of the input of a panel: whether it is enabled, or that it is gone. -/
def Event.input? (panel : Nat) : Event → Option (Option Bool)
  | .input i flag => if i = panel then some (some flag) else none
  | .destroyed i => if i = panel then some none else none
  | _ => none

def input? (d : Desk) (panel : Nat) : Option Bool :=
  match d.contents[panel]? with
  | some .recording => (d.events.reverse.findSome? (Event.input? panel)).join
  | some (.graph c) => (c.widget.bind (d.widgets[·]?)).map GraphWidget.inputEnabled
  | _ => none

variable {d d' : Desk} {β γ : Type} {p : Option Nat} {panel i w : Nat} {ids : List String}
  {id kind : String} {arguments : List Toolkit.Value} {options : Toolkit.Options}
  {callback : Option Handler}

def OnlyToolkit (d d' : Desk) : Prop := d' = { d with toolkit := d'.toolkit }

instance : IsPreorder Desk OnlyToolkit where
  refl _ := rfl
  trans d d' d'' h h' := by
    unfold OnlyToolkit at h h' ⊢
    rw [h', h]

theorem make_only : (make kind arguments options callback).Respects OnlyToolkit := fun _ => rfl

theorem makeAround_only {inside : Effect Desk β} (hin : inside.Respects OnlyToolkit) :
    (makeAround kind arguments options inside).Respects OnlyToolkit :=
  .bind (fun _ => rfl) fun _ => .bind (fun _ => rfl) fun _ => .bind hin.attempt fun _ =>
    .bind (fun _ => rfl) fun _ => .bind (.ofExcept _) fun _ => .pure _

abbrev made (kind : String) (arguments : List Toolkit.Value) (options : Toolkit.Options)
    (callback : Option Handler) (d : Desk) : String × Platform.Toolkit :=
  Gui.make d.toolkit kind arguments options callback

theorem outcome_make (d : Desk) : (make kind arguments options callback).outcome d =
    (.ok (made kind arguments options callback d).1,
      { d with toolkit := (made kind arguments options callback d).2 }) := rfl

def inItem (kind : String) (arguments : List Toolkit.Value) (options : Toolkit.Options)
    (d : Desk) : Desk :=
  let new := made kind arguments options none d
  { d with toolkit := Gui.enter new.2 new.1 }

def afterItem (d : Desk) : Desk := { d with toolkit := Gui.leave d.toolkit }

theorem outcome_makeAround (inside : Effect Desk β) (d : Desk) :
    (makeAround kind arguments options inside).outcome d =
      ((inside.outcome (inItem kind arguments options d)).1.map
          ((made kind arguments options none d).1, ·),
        afterItem (inside.outcome (inItem kind arguments options d)).2) := by
  have henter : (toolkitPart.update (Gui.enter · (made kind arguments options none d).1)).outcome
      { d with toolkit := (made kind arguments options none d).2 } =
      (.ok (), inItem kind arguments options d) := rfl
  rw [makeAround, outcome_bind_ok (outcome_make d), outcome_bind_ok henter,
    outcome_bind_ok (outcome_attempt inside _)]
  generalize inside.outcome (inItem kind arguments options d) = r
  rcases r with ⟨fault | b, d'⟩ <;> rfl

theorem outcome_deleteItem (id : String) (d : Desk) : (deleteItem id).outcome d =
    (.ok (), { d with toolkit := (Gui.delete d.toolkit (some id)).2 }) := rfl

/-- What nothing changes of a widget. -/
def GraphWidget.marks (x : GraphWidget) : String × String × Option Nat :=
  (x.handlers, x.group, x.panel)

/-- The widget that is made for a panel knows that. -/
theorem makeWidget_made {parent : String} {width height : Float} {settings : WidgetSettings}
    {panel : Option Nat}
    (h : (makeWidget parent none width height settings panel).outcome d = (.ok w, d')) :
    ∃ x, d'.widgets[w]? = some x ∧ x.panel = panel := by
  obtain ⟨group, d₁, h₁, h⟩ := of_bind_ok h
  obtain ⟨drawlist, d₂, h₂, h⟩ := of_bind_ok h
  obtain ⟨camera, d₃, h₃, h⟩ := of_bind_ok h
  obtain ⟨e, d₄, h₄, h⟩ := of_bind_ok h
  obtain ⟨made, d₅, h₅, h⟩ := of_bind_ok h
  obtain ⟨_, d₆, h₆, h⟩ := of_bind_ok h
  obtain ⟨_, d₇, h₇, h⟩ := of_bind_ok h
  obtain ⟨hw, rfl⟩ := Prod.mk.inj h
  obtain ⟨he, rfl⟩ := Prod.mk.inj h₄
  obtain rfl := Except.ok.inj he
  obtain rfl := Except.ok.inj hw
  obtain ⟨x, hpush, hx⟩ : ∃ x, d₆.widgets = d₅.widgets ++ [x] ∧ x.panel = panel := by
    obtain ⟨-, rfl⟩ := Prod.mk.inj h₆
    exact ⟨_, rfl, rfl⟩
  have hadd : d₇.widgets = d₆.widgets := by
    obtain ⟨-, rfl⟩ := Prod.mk.inj h₇
    rfl
  have hactive {kind : String} {options : Toolkit.Options} {callback : Handler} :
      (makeActive kind options callback).Respects OnlyToolkit := make_only
  have honly : d₅ = { d₃ with toolkit := d₅.toolkit } :=
    (makeAround_only (.bind hactive fun _ => .bind hactive fun _ =>
      .bind hactive fun _ => hactive)).of_outcome h₅
  have hwidgets : d₅.widgets = d₃.widgets := by rw [honly]
  refine ⟨x, ?_, hx⟩
  rw [hadd, hpush, ← hwidgets, List.getElem?_concat_length]

/-- An item that fits in by itself: it is no window, body or theme, and has no tag. -/
structure Ordinary (kind : String) (options : Toolkit.Options) : Prop where
  made : kind ∈ makers
  frameless : kind ∉ frameKinds
  untagged : options.lookup "tag" = none

omit [Platform] in
theorem Ordinary.fitsIn (h : Ordinary kind options) (s : Display) : FitsIn kind options s := by
  refine ⟨h.made, h.untagged, fun hk => ?_, fun hk => ?_⟩
  · rcases hk with rfl | rfl <;> exact absurd (by decide) h.frameless
  · subst hk
    exact absurd (by decide) h.frameless

variable [LawfulGui Platform.Toolkit Handler]

/-- What contents and widgets delete in the end is no part of the frame of any panel, and every
widget knows whose it is. -/
structure Stocked (d : Desk) : Prop where
  inOrder : InOrder d.toolkit
  widgets : ∀ x ∈ d.widgets,
    (display d.toolkit).Plain x.handlers ∧ (display d.toolkit).Plain x.group
  items : ∀ c ∈ d.contents, ∀ id ∈ c.items, (display d.toolkit).Plain id
  owned : ∀ (i : Nat) c, d.contents[i]? = some c →
    ∀ w ∈ c.widget?, ∃ x, d.widgets[w]? = some x ∧ x.panel = some i

/-- Nothing becomes of a desk, apart from its items, but what one panel shows. -/
structure Aloof (panel : Option Nat) (d d' : Desk) : Prop where
  containers : (display d'.toolkit).containers = (display d.toolkit).containers
  host : d'.host = d.host
  workspace : d'.workspace = d.workspace
  clock : d'.clock = d.clock
  contents : ∀ i, some i ≠ panel → d'.contents[i]? = d.contents[i]?
  inputs : ∀ i, some i ≠ panel → d'.input? i = d.input? i

/-- What becomes of a desk behind the scenes, where the frames of all panels are left alone. -/
structure Backstage (panel : Option Nat) (d d' : Desk) : Prop extends Aloof panel d d' where
  toolkit : (display d.toolkit).Spares (display d'.toolkit)

instance : IsPreorder Desk (Aloof p) where
  refl _ := ⟨rfl, rfl, rfl, rfl, fun _ _ => rfl, fun _ _ => rfl⟩
  trans _ _ _ h h' := ⟨h'.containers.trans h.containers, h'.host.trans h.host,
    h'.workspace.trans h.workspace, h'.clock.trans h.clock,
    fun i hi => (h'.contents i hi).trans (h.contents i hi),
    fun i hi => (h'.inputs i hi).trans (h.inputs i hi)⟩

instance : IsPreorder Desk (Backstage p) where
  refl d := ⟨refl_of (Aloof p) d, refl_of Spares _⟩
  trans _ _ _ h h' :=
    ⟨trans_of (Aloof p) h.toAloof h'.toAloof, trans_of Spares h.toolkit h'.toolkit⟩

/-- What happens behind the scenes while some items are known to be no part of a frame. -/
abbrev Back (p : Option Nat) (ids : List String) : Desk → Desk → Prop :=
  During (fun d => Stocked d ∧ ∀ id ∈ ids, (display d.toolkit).Plain id) (Backstage p)

theorem back_of (h : Stocked d → Stocked d' ∧ Backstage p d d') : Back p ids d d' := by
  rintro ⟨hd, hids⟩
  obtain ⟨hd', hback⟩ := h hd
  exact ⟨⟨hd', fun id hid => hback.toolkit.plain id (hids id hid)⟩, hback⟩

theorem Stocked.back (h : Stocked d) (hb : Back p [] d d') : Stocked d' ∧ Backstage p d d' := by
  obtain ⟨⟨hd', -⟩, hback⟩ := hb ⟨h, by simp⟩
  exact ⟨hd', hback⟩

theorem Stocked.congr (h : Stocked d) (ht : d'.toolkit = d.toolkit)
    (hc : d'.contents = d.contents) (hx : d'.widgets = d.widgets) : Stocked d' := by
  obtain ⟨inOrder, widgets, items, owned⟩ := h
  rw [← ht] at inOrder widgets items
  rw [← hx] at widgets owned
  rw [← hc] at items owned
  exact ⟨inOrder, widgets, items, owned⟩

theorem Stocked.toolkit (h : Stocked d) {t : Platform.Toolkit} (ht : InOrder t)
    (hp : ∀ id, (display d.toolkit).Plain id → (display t).Plain id) :
    Stocked { d with toolkit := t } :=
  ⟨ht, fun x hx => ⟨hp _ (h.widgets x hx).1, hp _ (h.widgets x hx).2⟩,
    fun c hc id hid => hp id (h.items c hc id hid), h.owned⟩

theorem back_toolkit {t : Platform.Toolkit}
    (ht : InOrder d.toolkit → Mild (display d.toolkit).containers d.toolkit t) :
    Back p ids d { d with toolkit := t } := by
  refine back_of fun h => ?_
  obtain ⟨hin, hs, hc⟩ := ht h.inOrder
  exact ⟨h.toolkit hin hs.plain, ⟨hc, rfl, rfl, rfl, fun _ _ => rfl, fun _ _ => rfl⟩, hs⟩

/-- What follows a step that knows what the step made. -/
theorem Back.next (made : List String) {e : Effect Desk β} {d₁ : Desk}
    (hd : InOrder d.toolkit → ∀ id ∈ made, (display d₁.toolkit).Plain id)
    (hb : Back p ids d d₁) (hf : e.Respects (Back p (made ++ ids))) :
    Back p ids d (e.outcome d₁).2 := by
  intro h
  obtain ⟨⟨h₁, hids₁⟩, hback⟩ := hb h
  have hmade := hd h.1.inOrder
  have hall : ∀ id ∈ made ++ ids, (display d₁.toolkit).Plain id := fun id hid =>
    (List.mem_append.mp hid).elim (hmade id) (hids₁ id)
  obtain ⟨⟨h₂, hids₂⟩, hback₂⟩ := hf d₁ ⟨h₁, hall⟩
  exact ⟨⟨h₂, fun id hid => hids₂ id (List.mem_append_right _ hid)⟩,
    trans_of (Backstage p) hback hback₂⟩

/-- An item is made, and something is done that knows it. -/
theorem make_bind_back (ho : Ordinary kind options) {f : String → Effect Desk β}
    (hf : ∀ id, (f id).Respects (Back p (id :: ids))) :
    (make kind arguments options callback >>= f).Respects (Back p ids) := by
  intro d h
  rw [outcome_bind_ok (outcome_make d)]
  have hmakes (hin : InOrder d.toolkit) :
      Makes kind options d.toolkit (made kind arguments options callback d) :=
    hin.makes (ho.fitsIn _) arguments callback
  refine Back.next [_] (fun hin id hid => ?_)
    (back_toolkit fun hin => (hmakes hin).mild ho.frameless) (hf _) h
  rw [List.mem_singleton.mp hid]
  exact (hmakes hin).plain ho.frameless

theorem make_back (ho : Ordinary kind options) :
    (make kind arguments options callback).Respects (Back p ids) := by
  have hbind : (make kind arguments options callback >>= pure).Respects (Back p ids) :=
    make_bind_back ho fun id => .pure id
  rwa [bind_pure] at hbind

/-- What comes of making an item that others are made in. -/
theorem Stocked.inItem (h : Stocked d) (hf : FitsIn kind options (display d.toolkit))
    (arguments : List Toolkit.Value) :
    Makes kind options d.toolkit (made kind arguments options none d) ∧
      Stocked (inItem kind arguments options d) ∧
      Mild ((made kind arguments options none d).1 :: (display d.toolkit).containers)
        (made kind arguments options none d).2 (Desk.inItem kind arguments options d).toolkit := by
  have hmakes : Makes kind options d.toolkit (made kind arguments options none d) :=
    h.inOrder.makes hf arguments none
  have henter := hmakes.inOrder.enter (made kind arguments options none d).1
  rw [hmakes.containers] at henter
  exact ⟨hmakes, h.toolkit henter.inOrder fun id hid =>
    henter.spares.plain id (hmakes.reframes.plain id hid), henter⟩

/-- What is done while an item is open has been done behind the scenes when it is closed. -/
theorem backstage_afterItem (h : Stocked d) (ho : Ordinary kind options)
    (hs : Stocked d') (hb : Backstage p (inItem kind arguments options d) d') :
    Stocked (afterItem d') ∧ Backstage p d (afterItem d') := by
  obtain ⟨hmakes, -, hopen⟩ := h.inItem (ho.fitsIn _) arguments
  have hmade := hmakes.mild ho.frameless
  have hleave := hs.inOrder.leave
  have htoolkit := trans_of Spares (trans_of Spares hmade.spares hopen.spares)
    (trans_of Spares hb.toolkit hleave.spares)
  have hcontainers : (display (afterItem d').toolkit).containers =
      (display d.toolkit).containers := by
    refine hleave.containers.trans ?_
    rw [hb.containers, hopen.containers, List.tail_cons]
  exact ⟨hs.toolkit hleave.inOrder hleave.spares.plain,
    ⟨hcontainers, hb.host, hb.workspace, hb.clock, hb.contents, hb.inputs⟩, htoolkit⟩

/-- An item is made around others, and something is done that knows it. -/
theorem makeAround_bind_back (ho : Ordinary kind options) {inside : Effect Desk β}
    (hin : inside.Respects (Back p ids)) {f : String × β → Effect Desk γ}
    (hf : ∀ r, (f r).Respects (Back p (r.1 :: ids))) :
    (makeAround kind arguments options inside >>= f).Respects (Back p ids) := by
  rintro d ⟨hd, hids⟩
  have haround : (makeAround kind arguments options inside).outcome d = _ :=
    outcome_makeAround inside d
  obtain ⟨hmakes, hopen, henter⟩ := hd.inItem (ho.fitsIn _) arguments
  have hspares := trans_of Spares (hmakes.mild ho.frameless).spares henter.spares
  obtain ⟨⟨h₂, hids₂⟩, hback⟩ := hin (inItem kind arguments options d) ⟨hopen, fun id hid =>
    hspares.plain id (hids id hid)⟩
  have hlater := hback.toolkit.plain _ (henter.spares.plain _ (hmakes.plain ho.frameless))
  generalize inside.outcome (inItem kind arguments options d) = r at haround h₂ hids₂ hback hlater
  rcases r with ⟨fault | b, d₂⟩
  all_goals
    obtain ⟨hstocked, hafter⟩ := backstage_afterItem hd ho h₂ hback
    have hleave := h₂.inOrder.leave.spares
    have hkept : ∀ id ∈ ids, (display (afterItem d₂).toolkit).Plain id := fun id hid =>
      hleave.plain id (hids₂ id hid)
  · rw [outcome_bind_error haround]
    exact ⟨⟨hstocked, hkept⟩, hafter⟩
  · rw [outcome_bind_ok haround]
    have hall : ∀ id ∈ (made kind arguments options none d).1 :: ids,
        (display (afterItem d₂).toolkit).Plain id :=
      List.forall_mem_cons.mpr ⟨hleave.plain _ hlater, hkept⟩
    obtain ⟨⟨h₃, hids₃⟩, hback₃⟩ := hf (_, b) _ ⟨hstocked, hall⟩
    exact ⟨⟨h₃, fun id hid => hids₃ id (List.mem_cons_of_mem _ hid)⟩,
      trans_of (Backstage p) hafter hback₃⟩

theorem makeAround_back (ho : Ordinary kind options) {inside : Effect Desk β}
    (hin : inside.Respects (Back p ids)) :
    (makeAround kind arguments options inside).Respects (Back p ids) := by
  have hbind : (makeAround kind arguments options inside >>= pure).Respects (Back p ids) :=
    makeAround_bind_back ho hin fun r => .pure r
  rwa [bind_pure] at hbind

theorem makeActive_back {callback : Handler} (ho : Ordinary kind (options ++ [callbackOption])) :
    (makeActive kind options callback).Respects (Back p ids) := make_back ho

theorem call_back {function : String} (hf : function ∈ passive) :
    (call function arguments).Respects (Back p ids) :=
  fun _ => back_toolkit fun hin => hin.call hf arguments

theorem deleteItem_back (hid : id ∈ ids) : (deleteItem id).Respects (Back p ids) := by
  intro d h
  rw [outcome_deleteItem]
  refine back_toolkit (fun hin => ?_) h
  obtain ⟨hin, hcontainers, -, hspares⟩ := hin.delete id
  exact ⟨hin, hspares (h.2 id hid), hcontainers⟩

theorem configure_back (id : String) (options : Toolkit.Options) :
    (configure id options).Respects (Back p ids) :=
  fun _ => back_toolkit fun hin => hin.configure id options

theorem back_aside (ht : d'.toolkit = d.toolkit) (hh : d'.host = d.host)
    (hw : d'.workspace = d.workspace) (hk : d'.clock = d.clock) (hc : d'.contents = d.contents)
    (hx : d'.widgets = d.widgets) (he : d'.events = d.events) : Back p ids d d' := by
  refine back_of fun h => ⟨h.congr ht hc hx,
    ⟨by rw [ht], hh, hw, hk, fun i _ => by rw [hc], fun i _ => ?_⟩, ?_⟩
  · rw [input?, input?, hc, he, hx]
  · rw [ht]
    exact refl_of Spares _

theorem add_back {key : AnimationKey} (hk : ∀ i, key ≠ .closing i) :
    (registration.add key).Respects (Back p ids) := by
  have hrestart : registration.restart key = pure () := by
    cases key with
    | closing i => exact absurd rfl (hk i)
    | _ => rfl
  rw [Animator.add, hrestart]
  exact .bind (.pure ()) fun _ _ => back_aside rfl rfl rfl rfl rfl rfl rfl

theorem cancel_back (key : AnimationKey) :
    (registration.cancel key false).Respects (Back p ids) :=
  fun _ => back_aside rfl rfl rfl rfl rfl rfl rfl

/-- An event that does not tell of the input of other panels is written down. -/
theorem record_back {e : Event} (he : ∀ i, some i ≠ p → e.input? i = none) :
    (record e).Respects (Back p ids) := by
  refine fun d => back_of fun h => ⟨⟨h.inOrder, h.widgets, h.items, h.owned⟩,
    ⟨rfl, rfl, rfl, rfl, fun _ _ => rfl, fun i hi => ?_⟩, refl_of Spares _⟩
  have hevents : ((d.events ++ [e]).reverse.findSome? (Event.input? i)) =
      d.events.reverse.findSome? (Event.input? i) := by
    rw [List.reverse_append]
    simp [he i hi]
  change Desk.input? { d with events := d.events ++ [e] } i = d.input? i
  rw [input?, input?, hevents]

theorem Stocked.widget (h : Stocked d) (w : Nat) {f : GraphWidget → GraphWidget}
    (hf : ∀ x, (f x).marks = x.marks) : Stocked { d with widgets := d.widgets.modify w f } := by
  have hmarks (j : Nat) : ((d.widgets.modify w f)[j]?).map GraphWidget.marks =
      (d.widgets[j]?).map GraphWidget.marks := by
    rw [List.getElem?_modify, Option.map_eq_map, Option.map_map]
    congr 1
    funext x
    by_cases hj : w = j <;> simp [hj, hf]
  refine ⟨h.inOrder, fun x hx => ?_, h.items, fun i c hc j hj => ?_⟩
  · obtain ⟨j, hj⟩ := List.mem_iff_getElem?.mp hx
    have hmap := hmarks j
    rw [hj, Option.map_some] at hmap
    obtain ⟨y, hy, hyx⟩ := Option.map_eq_some_iff.mp hmap.symm
    have hplain := h.widgets y (List.mem_of_getElem? hy)
    have hhandlers : y.handlers = x.handlers := congrArg (·.1) hyx
    have hgroup : y.group = x.group := congrArg (·.2.1) hyx
    rwa [hhandlers, hgroup] at hplain
  · obtain ⟨y, hy, hpanel⟩ := h.owned i c hc j hj
    have hmap := hmarks j
    rw [hy, Option.map_some] at hmap
    obtain ⟨x, hx, hxy⟩ := Option.map_eq_some_iff.mp hmap
    have hsame : x.panel = y.panel := congrArg (·.2.2) hxy
    exact ⟨x, hx, hsame.trans hpanel⟩

/-- A widget looks different, and takes input or not as before. -/
theorem back_widget (w : Nat) {f : GraphWidget → GraphWidget} (hf : ∀ x, (f x).marks = x.marks)
    (hi : ∀ x, (f x).inputEnabled = x.inputEnabled) :
    Back p ids d { d with widgets := d.widgets.modify w f } := by
  refine back_of fun h => ⟨h.widget w hf, ⟨rfl, rfl, rfl, rfl, fun _ _ => rfl,
    fun i _ => ?_⟩, refl_of Spares _⟩
  have hinput (j : Nat) : ((d.widgets.modify w f)[j]?).map GraphWidget.inputEnabled =
      (d.widgets[j]?).map GraphWidget.inputEnabled := by
    rw [List.getElem?_modify, Option.map_eq_map, Option.map_map]
    congr 1
    funext x
    by_cases hj : w = j <;> simp [hj, hi]
  rw [input?, input?]
  rcases d.contents[i]? with _ | c
  · rfl
  cases c with
  | graph c =>
    cases hc : c.widget with
    | none => simp only [hc, Option.bind_none]
    | some j => simp only [hc, Option.bind_some, hinput]
  | _ => rfl

theorem changeView_back (w : Nat) (f : View Float → View Float) :
    (changeView w f).Respects (Back p ids) :=
  fun _ => back_widget w (fun _ => rfl) fun _ => rfl

/-- What is done with a widget that is looked at first. -/
theorem widget_bind_back (w : Nat) {f : GraphWidget → Effect Desk β}
    (hf : ∀ x, (f x).Respects (Back p (x.handlers :: x.group :: ids))) :
    (widget w >>= f).Respects (Back p ids) := by
  intro d h
  cases hw : d.widgets[w]? with
  | none =>
    rw [outcome_bind_error (outcome_widget_none hw)]
    exact refl_of (Back p ids) d h
  | some x =>
    rw [outcome_bind_ok (outcome_widget hw)]
    obtain ⟨hhandlers, hgroup⟩ := h.1.widgets x (List.mem_of_getElem? hw)
    have hmade : ∀ id ∈ [x.handlers, x.group], (display d.toolkit).Plain id := by
      intro id hid
      simp only [List.mem_cons, List.not_mem_nil, or_false] at hid
      rcases hid with rfl | rfl
      · exact hhandlers
      · exact hgroup
    exact Back.next [x.handlers, x.group] (fun _ => hmade) (refl_of (Back p ids) d)
      (hf x) h

theorem setWidgetGraph_back (w : Nat) (graph : Option Nat) :
    (setWidgetGraph w graph).Respects (Back p ids) :=
  widget_bind_back w fun _ => .bind .get fun _ => .bind (changeView_back w _) fun _ _ =>
    back_aside rfl rfl rfl rfl rfl rfl rfl

theorem tryView_back (w : Nat) (f : View Float → Except Fault (View Float)) :
    (tryView w f).Respects (Back p ids) :=
  widget_bind_back w fun _ => .bind (.ofExcept _) fun _ => changeView_back w _

theorem recenterWidget_back (w : Nat) : (recenterWidget w).Respects (Back p ids) :=
  .bind .get fun _ => tryView_back w _

theorem resizeWidget_back (w : Nat) (width height : Float) :
    (resizeWidget w width height).Respects (Back p ids) :=
  widget_bind_back w fun _ => .bind (configure_back _ _) fun _ => changeView_back w _

theorem suppressWidget_back (w : Nat) (flag : Bool) :
    (suppressWidget w flag).Respects (Back p ids) := changeView_back w _

theorem destroyWidget_back (w : Nat) : (destroyWidget w).Respects (Back p ids) :=
  .bind (cancel_back _) fun _ => widget_bind_back w fun _ =>
    .bind (deleteItem_back (by simp)) fun _ => deleteItem_back (by simp)

/-- A widget is made of items that are no parts of a frame. -/
theorem push_widget_back {x : GraphWidget} (hh : x.handlers ∈ ids) (hg : x.group ∈ ids) :
    (modify fun d : Desk => { d with widgets := d.widgets ++ [x] } :
      Effect Desk Unit).Respects (Back p ids) := by
  rintro d ⟨hd, hids⟩
  have hgrown {w : Nat} {y : GraphWidget} (hy : d.widgets[w]? = some y) :
      (d.widgets ++ [x])[w]? = some y := by
    obtain ⟨hw, -⟩ := List.getElem?_eq_some_iff.mp hy
    rw [List.getElem?_append_left hw, hy]
  refine ⟨⟨⟨hd.inOrder, fun y hy => ?_, hd.items, fun i c hc w hw => ?_⟩, hids⟩,
    ⟨rfl, rfl, rfl, rfl, fun _ _ => rfl, fun i _ => ?_⟩, refl_of Spares _⟩
  · rcases List.mem_append.mp hy with hy | hy
    · exact hd.widgets y hy
    · rw [List.mem_singleton.mp hy]
      exact ⟨hids _ hh, hids _ hg⟩
  · obtain ⟨y, hy, hpanel⟩ := hd.owned i c hc w hw
    exact ⟨y, hgrown hy, hpanel⟩
  -- No content knows the new widget yet.
  · change Desk.input? { d with widgets := d.widgets ++ [x] } i = d.input? i
    rw [input?, input?]
    rcases hc : d.contents[i]? with _ | c
    · rfl
    cases c with
    | graph c =>
      cases hw : c.widget with
      | none => simp [hw]
      | some w =>
        obtain ⟨y, hy, -⟩ := hd.owned i _ hc w hw
        simp [hw, hy, hgrown hy]
    | _ => rfl

theorem makeWidget_back (parent : String) (width height : Float) (settings : WidgetSettings)
    (panel : Option Nat) :
    (makeWidget parent none width height settings panel).Respects (Back p ids) := by
  refine make_bind_back ⟨by decide, by decide, rfl⟩ fun group =>
    .bind (make_back ⟨by decide, by decide, rfl⟩) fun drawlist => .bind (.ofExcept _) fun camera =>
    .bind .get fun d => makeAround_bind_back ⟨by decide, by decide, rfl⟩ ?_ fun made =>
    .bind (push_widget_back (by simp) (by simp)) fun _ =>
    .bind (add_back (by simp)) fun _ => .pure _
  exact .bind (makeActive_back ⟨by decide, by decide, rfl⟩) fun _ =>
    .bind (makeActive_back ⟨by decide, by decide, rfl⟩) fun _ =>
    .bind (makeActive_back ⟨by decide, by decide, rfl⟩) fun _ =>
    makeActive_back ⟨by decide, by decide, rfl⟩

/-- A content is put in place of another. -/
theorem back_content {c : Content} (hitems : ∀ id ∈ c.items, (display d.toolkit).Plain id)
    (howned : ∀ w ∈ c.widget?, ∃ x, d.widgets[w]? = some x ∧ x.panel = some panel) :
    Back (some panel) ids d { d with contents := d.contents.set panel c } := by
  refine back_of fun h => ⟨⟨h.inOrder, h.widgets, fun c' hc' => ?_, fun i c' hc' => ?_⟩,
    ⟨rfl, rfl, rfl, rfl, fun i hi => ?_, fun i hi => ?_⟩, refl_of Spares _⟩
  · rcases List.mem_or_eq_of_mem_set hc' with hc' | rfl
    · exact h.items c' hc'
    · exact hitems
  · rw [List.getElem?_set] at hc'
    split at hc'
    next he =>
      subst he
      split at hc'
      · cases hc'
        exact howned
      · cases hc'
    · exact h.owned i c' hc'
  · exact List.getElem?_set_ne fun he => hi (congrArg some he.symm)
  · rw [input?, input?, List.getElem?_set_ne fun he => hi (congrArg some he.symm)]

theorem setContent_back {c : Content} (hitems : ∀ id ∈ c.items, id ∈ ids)
    (hwidget : c.widget? = none) : (setContent panel c).Respects (Back (some panel) ids) :=
  fun _ h => back_content (fun id hid => h.2 id (hitems id hid)) (by simp [hwidget]) h

/-- What is done with the content of a panel. -/
theorem contentOf_bind_back {f : Content → Effect Desk β}
    (hf : ∀ c, (f c).Respects (Back p (c.items ++ ids))) :
    (contentOf panel >>= f).Respects (Back p ids) := by
  intro d h
  rw [outcome_bind_ok (show (contentOf panel).outcome d =
    (.ok ((d.contents[panel]?).getD .nothing), d) from rfl)]
  have hitems : ∀ id ∈ ((d.contents[panel]?).getD .nothing).items,
      (display d.toolkit).Plain id := by
    intro id hid
    cases hc : d.contents[panel]? with
    | none => simp [hc, Content.items] at hid
    | some c => exact h.1.items c (List.mem_of_getElem? hc) id (by simpa [hc] using hid)
  exact Back.next _ (fun _ => hitems) (refl_of (Back p ids) d) (hf _) h

theorem onWidget_back (c : GraphContent) {f : Nat → Effect Desk Unit}
    (hf : ∀ w, (f w).Respects (Back p ids)) : (onWidget c f).Respects (Back p ids) := by
  unfold onWidget
  split
  · exact hf _
  · exact .pure ()

theorem resizeContent_back (panel : Nat) (width height : Float) :
    (resizeContent panel width height).Respects (Back p ids) := by
  refine contentOf_bind_back fun c => ?_
  cases c with
  | recording => exact record_back fun _ _ => rfl
  | graph c =>
    exact onWidget_back c fun w => .bind (.ofExcept _) fun size => resizeWidget_back w _ _
  | _ => exact .pure ()

theorem suppressContent_back (panel : Nat) (flag : Bool) :
    (suppressContent panel flag).Respects (Back p ids) := by
  refine contentOf_bind_back fun c => ?_
  cases c with
  | recording => exact record_back fun _ _ => rfl
  | graph c => exact onWidget_back c fun w => suppressWidget_back w flag
  | _ => exact .pure ()

theorem destroyContent_back (panel : Nat) :
    (destroyContent panel).Respects (Back (some panel) ids) := by
  refine contentOf_bind_back fun c => ?_
  cases c with
  | nothing => exact .pure ()
  | recording =>
    refine record_back fun i hi => if_neg ?_
    rintro rfl
    exact hi rfl
  | graph c =>
    exact .bind (onWidget_back c destroyWidget_back) fun _ =>
      setContent_back (by simp [Content.items]) rfl
  | clock c =>
    refine .bind (cancel_back _) fun _ => ?_
    split
    next text htext =>
      exact .bind (deleteItem_back (by simp [Content.items, htext])) fun _ =>
        setContent_back (by simp [Content.items]) rfl
    · exact .pure ()
  | log c =>
    refine .bind (cancel_back _) fun _ => ?_
    split
    next container hcontainer =>
      exact .bind (deleteItem_back (by simp [Content.items, hcontainer])) fun _ =>
        setContent_back (by simp [Content.items]) rfl
    · exact .pure ()

theorem buildGraph_back (panel : Nat) (c : GraphContent) (p : Panel Float Binding)
    (parent : String) : (buildGraph panel c p parent).Respects (Back (some panel) ids) := by
  refine .bind (makeAround_back ⟨by decide, by decide, rfl⟩ ?_) fun _ => .bind (.ofExcept _)
    fun size d => ?_
  · exact .bind (makeActive_back ⟨by decide, by decide, rfl⟩) fun _ =>
      makeActive_back ⟨by decide, by decide, rfl⟩
  · refine related_bind (makeWidget_back parent size.1 size.2 c.settings (some panel) d)
      fun w d' hmade => related_bind ?_ fun _ e _ => ?_
    · exact back_content (by simp [Content.items]) fun w' hw' => by
        obtain rfl := Option.some.inj hw'
        exact makeWidget_made hmade
    · split
      · exact (Respects.bind (setWidgetGraph_back w _) fun _ => recenterWidget_back w) e
      · exact refl_of (Back (some panel) ids) e

theorem buildClock_back (panel : Nat) (c : ClockContent) (parent : String) :
    (buildClock panel c parent).Respects (Back (some panel) ids) :=
  .bind (.bind (.bind .get fun _ => .ofExcept _) fun _ => .ofExcept _) fun _ =>
    make_bind_back ⟨by decide, by decide, rfl⟩ fun _ =>
    .bind (setContent_back (by simp [Content.items]) rfl) fun _ => add_back (by simp)

theorem buildLog_back (panel : Nat) (parent : String) :
    (buildLog panel parent).Respects (Back (some panel) ids) :=
  make_bind_back ⟨by decide, by decide, rfl⟩ fun _ =>
    .bind (make_back ⟨by decide, by decide, rfl⟩) fun _ =>
    .bind (.forM _ fun _ _ => .bind (make_back ⟨by decide, by decide, rfl⟩) fun _ => .pure ())
      fun _ =>
    .bind (make_back ⟨by decide, by decide, rfl⟩) fun _ =>
    .bind (setContent_back (by simp [Content.items]) rfl) fun _ => add_back (by simp)

theorem buildContent_back (panel : Nat) (p : Panel Float Binding) (parent : String) :
    (buildContent panel p parent).Respects (Back (some panel) ids) := by
  refine contentOf_bind_back fun c => ?_
  cases c with
  | nothing => exact .pure ()
  | recording => exact record_back fun _ _ => rfl
  | graph c => exact buildGraph_back panel c p parent
  | clock c => exact buildClock_back panel c parent
  | log c => exact buildLog_back panel parent

end Desk

end DebugDesk
