import DebugDesk.Proofs.Desk.Windows

/-!
# Answers for managed panels

Answers are awaited for panels that are managed, and the requests of such a panel are bound to it.
When it is removed, its requests are discarded before anything else can happen.
-/
namespace DebugDesk.Desk

open Effect

variable [Platform] {d d' : Desk} {panel i : Nat} {title : String} {w : Workspace Float Binding}

/-- A panel of a title is managed. -/
def Held (title : String) (w : Workspace Float Binding) (panel : Nat) : Prop :=
  ∃ t, w.ties? panel = some t ∧ t.title = title ∧ t.manager = some manager

/-- Answers are awaited only for managed panels of a title, and their requests end with them. -/
structure Tended (title : String) (d : Desk) : Prop where
  tidy : d.transport.Tidy
  held : ∀ panel, d.transport.Awaits panel → Held title d.workspace panel
  bound : ∀ panel t, d.workspace.ties? panel = some t → t.title = title →
    t.manager = some manager → .requests panel ∈ t.bindings

/-- The panels stay, and no more answers are awaited. -/
structure Settles (d d' : Desk) : Prop where
  panels : d'.workspace.panels = d.workspace.panels
  calms : link.Calms d d'

theorem calms_of_transport (h : d'.transport = d.transport) : link.Calms d d' := by
  change HostTransport.Abates d.transport d'.transport
  rw [h]
  exact refl_of HostTransport.Abates d.transport

instance : Lenient Settles where
  refl d := ⟨rfl, refl_of link.Calms d⟩
  trans _ _ _ h h' := ⟨h'.panels.trans h.panels, trans_of link.Calms h.calms h'.calms⟩
  aside _ _ hp _ ht _ := ⟨hp, calms_of_transport ht⟩
  content _ _ _ _ _ _ _ _ := ⟨rfl, calms_of_transport rfl⟩

theorem Call.settles (c : Call) (d : Desk) : Settles d (c.effect.outcome d).2 :=
  ⟨by rw [(c.aside d).workspace], c.calms d⟩

theorem Tended.of_ties (h : Tended title d)
    (hties : ∀ j, d'.workspace.ties? j = d.workspace.ties? j) (hc : link.Calms d d') :
    Tended title d' := by
  obtain ⟨htidy, hfewer⟩ := hc h.tidy
  refine ⟨htidy, fun panel hp => ?_, fun panel t ht => h.bound panel t (hties panel ▸ ht)⟩
  obtain ⟨t, ht, hheld⟩ := h.held panel (hfewer panel hp)
  exact ⟨t, (hties panel).trans ht, hheld⟩

theorem Tended.settles (h : Tended title d) (hs : Settles d d') : Tended title d' :=
  h.of_ties (Workspace.ties?_congr hs.panels) hs.calms

def Succeeds (e : Effect Desk Unit) (d : Desk) : Prop := (e.outcome d).1 = .ok ()

theorem outcome_contentOf (panel : Nat) (d : Desk) :
    (contentOf panel).outcome d = (.ok ((d.contents[panel]?).getD .nothing), d) := rfl

theorem destroyWidget_succeeds {w : Nat} (hw : w < d.widgets.length) :
    Succeeds (destroyWidget w) d := by
  have hcancel : (registration.cancel (.widget w) false).outcome d =
      (.ok (), { d with registry := d.registry.erase (.widget w) }) := rfl
  have hwidget : (widget w).outcome { d with registry := d.registry.erase (.widget w) } =
      (.ok d.widgets[w], { d with registry := d.registry.erase (.widget w) }) :=
    outcome_widget (List.getElem?_eq_getElem hw)
  rw [Succeeds, destroyWidget, outcome_bind_ok hcancel, outcome_bind_ok hwidget]
  rfl

theorem suppressContent_succeeds (panel : Nat) (flag : Bool) (d : Desk) :
    Succeeds (suppressContent panel flag) d := by
  rw [Succeeds, suppressContent, outcome_bind_ok (outcome_contentOf panel d)]
  cases (d.contents[panel]?).getD .nothing with
  | graph c =>
    dsimp only
    unfold onWidget
    split <;> rfl
  | _ => rfl

theorem destroyContent_succeeds (h : Sound d) (panel : Nat) :
    Succeeds (destroyContent panel) d := by
  rw [Succeeds, destroyContent, outcome_bind_ok (outcome_contentOf panel d)]
  cases hc : d.contents[panel]? with
  | none => rfl
  | some c =>
    rw [Option.getD_some]
    cases c with
    | nothing => rfl
    | recording => rfl
    | graph c =>
      have hdestroy : Succeeds (onWidget c destroyWidget) d := by
        cases hw : c.widget with
        | none =>
          unfold onWidget
          simp only [hw]
          rfl
        | some w =>
          have hlt := h.widgets _ (List.mem_of_getElem? hc) w hw
          unfold onWidget
          simp only [hw]
          exact destroyWidget_succeeds hlt
      dsimp only
      rw [outcome_then _ _ hdestroy]
      rfl
    | clock c =>
      cases ht : c.text <;> simp only [destroyClock, ht] <;> rfl
    | log c =>
      cases ht : c.container <;> simp only [destroyLog, ht] <;> rfl

/-- What is told when a panel is removed is passed on without failure. -/
theorem passOn_succeeds (h : Sound d) (ht : d.transport.Tidy) {s : PanelSignal Float Binding}
    (hs : s.IsFarewell ∨ ∃ b, s = .released b) (panel : Nat) : Succeeds (passOn (panel, s)) d := by
  cases s with
  | resized width height => simp [PanelSignal.IsFarewell] at hs
  | suppressed flag => exact suppressContent_succeeds panel flag d
  | destroyed => exact destroyContent_succeeds h panel
  | released b =>
    cases b with
    | window window windowTheme bodyTheme => rfl
    | requests owner => exact (HostLink.outcome_discard separate.lawful ht owner).1

theorem forM_passOn_settles (signals : List (Nat × PanelSignal Float Binding)) (h : Sound d) :
    Settles d ((signals.forM passOn).outcome d).2 := by
  have hpass : (signals.forM passOn).Respects (KeepsAlso Settles) :=
    .forM _ fun s _ => passOn_keeps (fun c d _ => c.settles d) s
  exact (hpass d h).2.also

/-- When the requests of a panel are released, no answers are awaited for it any more. -/
theorem forM_passOn_discards {signals : List (Nat × PanelSignal Float Binding)} (h : Sound d)
    (ht : d.transport.Tidy) (hs : ∀ s ∈ signals, s.2.IsFarewell ∨ ∃ b, s.2 = .released b)
    (hi : (panel, .released (.requests i)) ∈ signals) :
    ¬ ((signals.forM passOn).outcome d).2.transport.Awaits i := by
  induction signals generalizing d with
  | nil => cases hi
  | cons s rest ih =>
    obtain ⟨hfirst, hlater⟩ := List.forall_mem_cons.mp hs
    have hok : Succeeds (passOn s) d := passOn_succeeds h ht hfirst s.1
    obtain ⟨hsound, hstays⟩ := passOn_keeps (fun c d _ => c.settles d) s d h
    obtain ⟨htidy, -⟩ := hstays.also.calms ht
    rw [forM_cons, outcome_then _ _ hok]
    rcases List.mem_cons.mp hi with rfl | hi
    · have hview := (HostLink.outcome_discard separate.lawful ht i).2
      have hnot : ¬ ((passOn (panel, .released (.requests i))).outcome d).2.transport.Awaits i := by
        change ¬ (link.view ((link.discard (some i)).outcome d).2).Awaits i
        rw [hview]
        exact (ht.without i).2.2
      obtain ⟨-, hfewer⟩ := (forM_passOn_settles rest hsound).calms htidy
      exact hnot ∘ hfewer i
    · exact ih hsound htidy hlater hi

/-- A panel that is tended goes, and no answers are awaited for it. -/
theorem Tended.cut (h : Tended title d)
    (hties : ∀ j, d'.workspace.ties? j =
      (d.workspace.ties? j).map fun t => if i = j then t.cut else t)
    (hc : link.Calms d d') (hnot : ¬ d'.transport.Awaits i) : Tended title d' := by
  obtain ⟨htidy, hfewer⟩ := hc h.tidy
  refine ⟨htidy, fun panel hp => ?_, fun panel t ht htitle hmanager => ?_⟩
  · have hne : i ≠ panel := fun he => hnot (he ▸ hp)
    obtain ⟨t, ht, hheld⟩ := h.held panel (hfewer panel hp)
    exact ⟨t, by rw [hties, ht, Option.map_some, if_neg hne], hheld⟩
  · rw [hties] at ht
    obtain ⟨u, hu, rfl⟩ := Option.map_eq_some_iff.mp ht
    by_cases hi : i = panel
    · simp [hi, Panel.Ties.cut] at hmanager
    · simp only [hi, ↓reduceIte] at htitle hmanager ⊢
      exact h.bound panel u hu htitle hmanager

def Tends (title : String) (d d' : Desk) : Prop := Tended title d → Tended title d'

instance : Lenient (Tends title) where
  refl _ := id
  trans _ _ _ h h' := h' ∘ h
  aside _ _ hp _ ht _ h := h.settles ⟨hp, calms_of_transport ht⟩
  content _ _ _ _ _ _ _ _ h := h.settles ⟨rfl, calms_of_transport rfl⟩

/-- What is told when a panel is removed ends its requests. -/
theorem Tended.discards (h : Tended title d) {d₁ : Desk} (hsound : Sound d₁)
    (ht : d₁.transport = d.transport) {p : Panel Float Binding}
    (was : d.workspace.panel? i = some p)
    (farewells : List (PanelSignal Float Binding)) (only : ∀ s ∈ farewells, s.IsFarewell) :
    let signals := (farewells ++ p.bindings.map PanelSignal.released).map (i, ·)
    ¬ ((signals.forM passOn).outcome d₁).2.transport.Awaits i := by
  intro signals hawaits
  have htidy : d₁.transport.Tidy := ht ▸ h.tidy
  obtain ⟨-, hfewer⟩ := (forM_passOn_settles signals hsound).calms htidy
  have hbefore : d.transport.Awaits i := ht ▸ hfewer i hawaits
  obtain ⟨t, hties, htitle, hmanager⟩ := h.held i hbefore
  have hp : p.ties = t := by
    rw [Workspace.ties?, was] at hties
    exact Option.some.inj hties
  have hbound : .requests i ∈ p.bindings := by
    have hb := h.bound i t hties htitle hmanager
    rwa [← hp] at hb
  have hmem : (i, .released (.requests i)) ∈ signals :=
    List.mem_map.mpr ⟨_, List.mem_append_right _ (List.mem_map.mpr ⟨_, hbound, rfl⟩), rfl⟩
  refine forM_passOn_discards hsound htidy (fun s hs => ?_) hmem hawaits
  obtain ⟨s, hin, rfl⟩ := List.mem_map.mp hs
  rcases List.mem_append.mp hin with hin | hin
  · exact .inl (only s hin)
  · obtain ⟨b, -, rfl⟩ := List.mem_map.mp hin
    exact .inr ⟨b, rfl⟩

theorem sound_takeSignals (h : Sound d) (hw : d.workspace.Wanes w) :
    Sound { d with workspace := w.takeSignals.2 } :=
  (keeps_workspace (Q := Anyhow) (hw.trans (wanes_takeSignals w)) rfl (fun _ => trivial) h).1

theorem passSignals_settles (h : Sound d) (hw : d.workspace.Wanes w) :
    Settles { d with workspace := w.takeSignals.2 }
      (passSignals.outcome { d with workspace := w }).2 :=
  forM_passOn_settles w.signals (sound_takeSignals h hw)

theorem ties?_passSignals (h : Sound d) (hw : d.workspace.Wanes w) (j : Nat) :
    (passSignals.outcome { d with workspace := w }).2.workspace.ties? j = w.ties? j :=
  Workspace.ties?_congr (passSignals_settles h hw).panels j

theorem passSignals_tends (h : Sound d) (hw : d.workspace.Wanes w) (hy : d.workspace.Yields w) :
    Tends title d (passSignals.outcome { d with workspace := w }).2 := by
  intro htended
  have hties := ties?_passSignals h hw
  have hcalms := (passSignals_settles h hw).calms
  cases hy with
  | holds ties => exact htended.of_ties (fun j => (hties j).trans (ties j)) hcalms
  | releases i p was ties farewells only signals =>
    refine htended.cut (fun j => (hties j).trans (ties j)) hcalms ?_
    have hdiscards := htended.discards (sound_takeSignals h hw) rfl was farewells only
    rwa [← List.nil_append (List.map _ _), ← h.quiet, ← signals] at hdiscards

theorem Tended.bind (h : Tended title d) (panel : Nat) (binding : Binding) :
    Tended title { d with workspace := d.workspace.bind panel binding } := by
  have hties := d.workspace.ties?_bind panel binding
  refine ⟨h.tidy, fun i hi => ?_, fun i t ht htitle hmanager => ?_⟩
  · obtain ⟨t, ht, hheld⟩ := h.held i hi
    refine ⟨if panel = i then { t with bindings := t.bindings ++ [binding] } else t, ?_, ?_⟩
    · rw [hties, ht, Option.map_some]
    · split <;> exact hheld
  · rw [hties] at ht
    obtain ⟨u, hu, rfl⟩ := Option.map_eq_some_iff.mp ht
    by_cases hi : panel = i
    · simp only [hi, ↓reduceIte] at htitle hmanager ⊢
      exact List.mem_append_left _ (h.bound i u hu htitle hmanager)
    · simp only [hi, ↓reduceIte] at htitle hmanager ⊢
      exact h.bound i u hu htitle hmanager

instance : Enduring (Tends title) where
  bind _ panel binding h := h.bind panel binding
  pass _ _ := passSignals_tends
  call c d _ h := h.settles (c.settles d)

/-- A new panel is tended if its requests are bound to it. -/
theorem Tended.add (h : Tended title d) {t : Panel.Ties Binding}
    (hnew : d.workspace.ties? i = none)
    (hties : ∀ j, d'.workspace.ties? j = if i = j then some t else d.workspace.ties? j)
    (ht : d'.transport = d.transport) (hbound : t.title = title → .requests i ∈ t.bindings) :
    Tended title d' := by
  refine ⟨ht ▸ h.tidy, fun panel hp => ?_, fun panel u hu htitle hmanager => ?_⟩
  · obtain ⟨u, hu, hheld⟩ := h.held panel (ht ▸ hp)
    have hne : i ≠ panel := by
      rintro rfl
      simp [hnew] at hu
    exact ⟨u, by rw [hties, if_neg hne, hu], hheld⟩
  · rw [hties] at hu
    split at hu
    next he =>
      subst he
      cases hu
      exact hbound htitle
    · exact h.bound panel u hu htitle hmanager

theorem fetchFor_tends (hheld : Held title d.workspace panel) :
    Tends title d ((fetchFor panel).outcome d).2 := by
  intro h
  have haside : ((fetchFor panel).outcome d).2.workspace = d.workspace :=
    (request_aside _ d).workspace
  obtain ⟨htidy, hawaits⟩ := HostLink.request_awaits separate h.tidy
    (r := ⟨.str "graph", .null, some panel, some panel, false⟩) rfl
  refine ⟨htidy, fun b hb => ?_, fun b => ?_⟩
  · rw [haside]
    rcases hawaits b hb with hb | hb
    · exact h.held b hb
    · exact Option.some.inj hb ▸ hheld
  · rw [haside]
    exact h.bound b

/-- A panel was made, and is not managed. -/
def Gone (panel : Nat) (d : Desk) : Prop :=
  ∃ t, d.workspace.ties? panel = some t ∧ t.manager ≠ some manager

theorem Gone.of_ties (h : Gone panel d)
    (hties : d'.workspace.ties? panel = d.workspace.ties? panel) : Gone panel d' := by
  obtain ⟨t, ht, hfree⟩ := h
  exact ⟨t, hties.trans ht, hfree⟩

def StaysGone (panel : Nat) (d d' : Desk) : Prop := Gone panel d → Gone panel d'

instance : Lenient (StaysGone panel) where
  refl _ := id
  trans _ _ _ h h' := h' ∘ h
  aside _ _ hp _ _ _ h := h.of_ties (Workspace.ties?_congr hp panel)
  content _ _ _ _ _ _ _ _ h := h.of_ties rfl

theorem passSignals_staysGone (h : Sound d) (hw : d.workspace.Wanes w)
    (hy : d.workspace.Yields w) :
    StaysGone panel d (passSignals.outcome { d with workspace := w }).2 := by
  intro hgone
  have hties := ties?_passSignals h hw panel
  cases hy with
  | holds ties => exact hgone.of_ties (hties.trans (ties panel))
  | releases i p was ties farewells only signals =>
    obtain ⟨t, ht, hfree⟩ := hgone
    refine ⟨if i = panel then t.cut else t, ?_, ?_⟩
    · rw [hties, ties, ht, Option.map_some]
    · split
      · simp [Panel.Ties.cut]
      · exact hfree

instance : Enduring (StaysGone panel) where
  bind d i binding h := by
    obtain ⟨t, ht, hfree⟩ := h
    refine ⟨if i = panel then { t with bindings := t.bindings ++ [binding] } else t, ?_, ?_⟩
    · rw [Workspace.ties?_bind, ht, Option.map_some]
    · split <;> exact hfree
  pass _ _ := passSignals_staysGone
  call c d _ h := h.of_ties (by rw [(c.aside d).workspace])

theorem showAnswer_settles (panel : Nat) (content : Json) :
    (showAnswer panel content).Respects Settles := by
  intro d
  have hapart := showAnswer_apart panel content d
  exact ⟨by rw [hapart.workspace], calms_of_transport hapart.transport⟩

theorem emptyQueue_settles : (link.transport.update (·.emptyQueue)).Respects Settles :=
  fun d => ⟨rfl, HostLink.emptyQueue_calms separate.lawful d⟩

theorem poll_settles : link.poll.Respects Settles :=
  .bind (.read _) fun _ => .bind emptyQueue_settles fun _ =>
    .bind (.forM _ fun r _ => showAnswer_settles r.callback r.content) fun _ => .pure _

theorem poll_tends : link.poll.Respects (KeepsAlso (Tends title)) :=
  fun d => keeps_and (poll_keeps d) fun _ h => h.settles (poll_settles d)

theorem poll_staysGone : link.poll.Respects (KeepsAlso (StaysGone panel)) :=
  fun d => keeps_and (poll_keeps d) fun _ h =>
    h.of_ties (Workspace.ties?_congr (poll_settles d).panels panel)

end DebugDesk.Desk
