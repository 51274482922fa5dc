import DebugDesk.Proofs.Desk.Gating
import DebugDesk.Proofs.Panel.Partings

/-!
# Signals that are passed on

The signals of a change of the workspace are passed on to contents and bindings. Only when a panel
is gone is anything deleted, and then nothing of that fails.
-/
namespace DebugDesk

namespace Desk

open Effect Toolkit

variable [Platform]

def Binding.items : Binding → List String
  | .window id windowTheme bodyTheme => [id, windowTheme, bodyTheme]
  | .requests _ => []

/-- The items that are deleted when a signal is passed on. -/
def goneBy : Nat × PanelSignal Float Binding → List String
  | (_, .released binding) => binding.items
  | _ => []

omit [Platform] in
theorem goneBy_of_parting {s : Nat × PanelSignal Float Binding} (hs : s.2.parting? = none) :
    goneBy s = [] := by
  rcases s with ⟨i, s⟩
  cases s with
  | released b => cases hs
  | _ => rfl

/-- Signals that part from nothing, or that are passed on in full. -/
def Gentle (signals : List (Nat × PanelSignal Float Binding)) : Prop :=
  (∀ s ∈ signals, s.2.parting? = none) ∨
    ∀ s ∈ signals, s.2.IsFarewell ∨ ∃ b, s.2 = .released b

def OnlyTransport (d d' : Desk) : Prop := d' = { d with transport := d'.transport }

instance : IsPreorder Desk OnlyTransport where
  refl _ := rfl
  trans d d' d'' h h' := by
    unfold OnlyTransport at h h' ⊢
    rw [h', h]

theorem discard_only (panel : Nat) : (link.discard (some panel)).Respects OnlyTransport := by
  have hmild : link.runner.Mild OnlyTransport := ⟨fun _ _ => rfl, fun _ _ => rfl, fun _ _ _ => rfl,
    fun _ _ _ => rfl, fun _ => rfl, fun _ _ => .pure ()⟩
  exact .bind (hmild.cancelOwned (some panel)) fun _ _ => rfl

variable [LawfulGui Platform.Toolkit Handler]

/-- What becomes of a desk when signals are passed on. -/
structure Passes (signals : List (Nat × PanelSignal Float Binding)) (d d' : Desk) : Prop where
  stocked : Stocked d'
  toolkit : (display d.toolkit).Reframes [] [] (signals.flatMap goneBy) (display d'.toolkit)
  containers : (display d'.toolkit).containers = (display d.toolkit).containers
  host : d'.host = d.host
  workspace : d'.workspace = d.workspace
  contents : ∀ i : Nat, (i, .destroyed) ∉ signals → d'.contents[i]? = d.contents[i]?
  hush : ∀ i, d.input? i = none → d'.input? i = none
  silenced : ∀ i, (i, .destroyed) ∈ signals → d'.input? i = none

variable {d d' d'' : Desk} {i : Nat} {signals signals' : List (Nat × PanelSignal Float Binding)}

theorem Passes.trans (h : Passes signals d d') (h' : Passes signals' d' d'') :
    Passes (signals ++ signals') d d'' := by
  refine ⟨h'.stocked, ?_, h'.containers.trans h.containers, h'.host.trans h.host,
    h'.workspace.trans h.workspace, fun i hi => ?_, fun i => h'.hush i ∘ h.hush i, fun i hi => ?_⟩
  · rw [List.flatMap_append]
    exact h.toolkit.trans h'.toolkit
  · simp only [List.mem_append, not_or] at hi
    exact (h'.contents i hi.2).trans (h.contents i hi.1)
  · rcases List.mem_append.mp hi with hi | hi
    · exact h'.hush i (h.silenced i hi)
    · exact h'.silenced i hi

/-- Nothing is deleted unless a panel is gone. -/
theorem Passes.of_back (h : Stocked d) (hb : Back none [] d d')
    (hgone : signals.flatMap goneBy = []) (hd : ∀ i, (i, .destroyed) ∉ signals) :
    Passes signals d d' := by
  obtain ⟨hstocked, haloof, htoolkit⟩ := h.back hb
  refine ⟨hstocked, by rwa [hgone], haloof.containers, haloof.host, haloof.workspace,
    fun i _ => haloof.contents i (by simp), fun i hi => ?_, fun i hi => absurd hi (hd i)⟩
  rw [haloof.inputs i (by simp), hi]

theorem release_window_passes (h : Stocked d) (window windowTheme bodyTheme : String) :
    Passes [(i, .released (.window window windowTheme bodyTheme))] d
      ((release (.window window windowTheme bodyTheme)).outcome d).2 := by
  obtain ⟨hfirst, hc₁, hr₁, -⟩ := h.inOrder.delete window
  obtain ⟨hsecond, hc₂, hr₂, -⟩ := hfirst.delete windowTheme
  obtain ⟨hthird, hc₃, hr₃, -⟩ := hsecond.delete bodyTheme
  have htoolkit := (hr₁.trans hr₂).trans hr₃
  exact ⟨h.toolkit hthird htoolkit.plain, htoolkit, hc₃.trans (hc₂.trans hc₁), rfl, rfl,
    fun _ _ => rfl, fun _ => id, by simp⟩

theorem passOn_passes (h : Stocked d) (hsound : Sound d) {s : PanelSignal Float Binding}
    (hs : s.IsFarewell ∨ ∃ b, s = .released b) (i : Nat) :
    Passes [(i, s)] d ((passOn (i, s)).outcome d).2 := by
  cases s with
  | resized width height => simp [PanelSignal.IsFarewell] at hs
  | suppressed flag =>
    exact .of_back h (suppressContent_back i flag d) rfl (by simp)
  | destroyed =>
    obtain ⟨hstocked, haloof, htoolkit⟩ := h.back (destroyContent_back i d)
    have hhush := destroyContent_hushes hsound i
    refine ⟨hstocked, htoolkit, haloof.containers, haloof.host, haloof.workspace,
      fun j hj => haloof.contents j fun he => ?_, fun j hj => ?_, fun j hj => ?_⟩
    · obtain rfl := Option.some.inj he
      exact hj List.mem_cons_self
    · by_cases hij : j = i
      · exact hij ▸ hhush
      · exact (haloof.inputs j fun he => hij (Option.some.inj he)).trans hj
    · obtain ⟨rfl, -⟩ := Prod.mk.inj (List.mem_singleton.mp hj)
      exact hhush
  | released b =>
    cases b with
    | window window windowTheme bodyTheme => exact release_window_passes h _ _ _
    | requests owner =>
      have honly : ((link.discard (some owner)).outcome d).2 = _ := discard_only owner d
      refine .of_back h ?_ (by simp [goneBy, Binding.items]) (by simp)
      change Back none [] d ((link.discard (some owner)).outcome d).2
      rw [honly]
      exact back_aside rfl rfl rfl rfl rfl rfl rfl

/-- What is told when a panel goes is passed on in full. -/
theorem forM_passOn_passes (h : Stocked d) (hsound : Sound d) (ht : d.transport.Tidy)
    (hs : ∀ s ∈ signals, s.2.IsFarewell ∨ ∃ b, s.2 = .released b) :
    Passes signals d ((signals.forM passOn).outcome d).2 := by
  induction signals generalizing d with
  | nil => exact .of_back h (refl_of (Back none []) d) rfl (by simp)
  | cons s rest ih =>
    obtain ⟨hfirst, hlater⟩ := List.forall_mem_cons.mp hs
    have hok : Succeeds (passOn s) d := passOn_succeeds hsound ht hfirst s.1
    have hpassed : Passes [s] d ((passOn s).outcome d).2 := passOn_passes h hsound hfirst s.1
    obtain ⟨hsound', hstays⟩ := passOn_keeps (fun c d _ => c.settles d) s d hsound
    obtain ⟨htidy, -⟩ := hstays.also.calms ht
    rw [forM_cons, outcome_then _ _ hok]
    exact hpassed.trans (ih hpassed.stocked hsound' htidy hlater)

theorem passOn_back {s : Nat × PanelSignal Float Binding} (hs : s.2.parting? = none) :
    (passOn s).Respects (Back none []) := by
  rcases s with ⟨i, s⟩
  cases s with
  | resized width height => exact resizeContent_back i width height
  | suppressed flag => exact suppressContent_back i flag
  | destroyed => cases hs
  | released b => cases hs

theorem passSignals_passes {w : Workspace Float Binding} (h : Stocked d) (hsound : Sound d)
    (ht : d.transport.Tidy) (hw : d.workspace.Wanes w) (hg : Gentle w.signals) :
    Passes w.signals { d with workspace := w.takeSignals.2 }
      (passSignals.outcome { d with workspace := w }).2 := by
  have hstocked : Stocked { d with workspace := w.takeSignals.2 } :=
    ⟨h.inOrder, h.widgets, h.items, h.owned⟩
  change Passes w.signals { d with workspace := w.takeSignals.2 }
    ((w.signals.forM passOn).outcome { d with workspace := w.takeSignals.2 }).2
  rcases hg with hmild | hall
  · have hback : (w.signals.forM passOn).Respects (Back none []) :=
      .forM _ fun s hs => passOn_back (hmild s hs)
    refine .of_back hstocked (hback _) ?_ fun i hi => ?_
    · exact List.flatMap_eq_nil_iff.mpr fun s hs => goneBy_of_parting (hmild s hs)
    · cases hmild _ hi
  · exact forM_passOn_passes hstocked (sound_takeSignals hsound hw) ht hall

end Desk

namespace Workspace

variable {w w' : Workspace Float Desk.Binding} {m i : Nat}

/-- What a change tells parts from nothing, or is nothing but farewells. -/
def Parts (w w' : Workspace Float Desk.Binding) : Prop :=
  w.signals = [] → Desk.Gentle w'.signals

theorem parting?_of_partings (h : ∀ i, w.partings i = []) :
    ∀ s ∈ w.signals, s.2.parting? = none := by
  intro s hs
  exact List.filterMap_eq_nil_iff.mp (h s.1) s (List.mem_filter.mpr ⟨hs, by simp⟩)

/-- Where no panel loses its ties, none is told that it is gone. -/
theorem Fares.quiet (hf : w.Fares w') (ties : ∀ j, w'.ties? j = w.ties? j)
    (hq : w.signals = []) : ∀ s ∈ w'.signals, s.2.parting? = none := by
  refine parting?_of_partings fun i => ?_
  have hbefore : w.partings i = [] := by simp [partings, hq]
  cases hp : w.panel? i with
  | none => rw [(hf.others i hp).2, hbefore]
  | some p =>
    obtain ⟨q, told, hq, htold, hpq⟩ := hf.panels i p hp
    rw [htold, hbefore, List.nil_append]
    cases hpq with
    | stays => rfl
    | leaves m was tenure =>
      have hsame := ties i
      rw [ties?, ties?, hp, hq, Option.map_some, Option.map_some] at hsame
      have hmanager : q.manager = p.manager := congrArg Panel.Ties.manager (Option.some.inj hsame)
      have hnone : q.manager = none := congrArg Panel.Tenure.manager tenure
      rw [was, hnone] at hmanager
      cases hmanager

theorem Parts.of_yields (hy : w.Yields w') (hf : w.Fares w') : w.Parts w' := by
  intro hquiet
  cases hy with
  | holds ties => exact .inl (hf.quiet ties hquiet)
  | releases i p was ties farewells only signals =>
    refine .inr fun s hs => ?_
    rw [signals, hquiet, List.nil_append] at hs
    obtain ⟨x, hx, rfl⟩ := List.mem_map.mp hs
    rcases List.mem_append.mp hx with hx | hx
    · exact .inl (only x hx)
    · obtain ⟨b, -, rfl⟩ := List.mem_map.mp hx
      exact .inr ⟨b, rfl⟩

/-- A panel that begins to close is told at most that it is dragged no more. -/
theorem farewell_beginClose (hq : w.signals = []) (i : Nat) :
    ∀ s ∈ (w.beginClose i).2.signals, s.2.IsFarewell := by
  intro s hs
  unfold beginClose at hs
  split at hs
  · simp [hq] at hs
  next p hp =>
    split at hs
    · simp [hq] at hs
    · rw [signalling_modifyPanel, signals_signalling hp, hq, List.nil_append] at hs
      obtain ⟨x, hx, rfl⟩ := List.mem_map.mp hs
      exact Panel.farewell_cancelGesture _ x hx

theorem Parts.closeAtOnce (w : Workspace Float Desk.Binding) (m i : Nat) :
    w.Parts (w.closeAtOnce m i).2 := by
  intro hquiet
  have hfarewell := farewell_beginClose hquiet i
  refine .inr fun s hs => ?_
  unfold Workspace.closeAtOnce at hs
  split at hs
  next v hv =>
    rw [hv] at hfarewell
    exact .inl (hfarewell s hs)
  next v hv =>
    rw [hv] at hfarewell
    split at hs
    next v' hremove =>
      cases hp : v.panel? i with
      | none => simp [Workspace.remove, hp] at hremove
      | some p =>
        rw [signals_remove hremove hp] at hs
        rcases List.mem_append.mp hs with hs | hs
        · exact .inl (hfarewell s hs)
        · obtain ⟨x, hx, rfl⟩ := List.mem_map.mp hs
          rcases List.mem_append.mp hx with hx | hx
          · exact .inl (farewell_remove p x hx)
          · obtain ⟨b, -, rfl⟩ := List.mem_map.mp hx
            exact .inr ⟨b, rfl⟩
    next => exact .inl (hfarewell s hs)

theorem Wanes.closeAtOnce (w : Workspace Float Desk.Binding) (m i : Nat) :
    w.Wanes (w.closeAtOnce m i).2 := by
  have hbegun := Wanes.beginClose w i
  unfold Workspace.closeAtOnce
  split
  next v hv => rwa [hv] at hbegun
  next v hv =>
    rw [hv] at hbegun
    split
    next v' hremove => exact hbegun.trans (.remove hremove)
    next => exact hbegun

end Workspace

end DebugDesk
