import DebugDesk.Proofs.Desk.Handling

/-!
# New frames

The window of a panel is made with its body, with two themes, and with the content of the panel in
it. All of that can only fail before anything is made, if the content can be built.
-/
namespace DebugDesk

namespace Desk

open Effect Toolkit
open Display (Spares frameKinds)

variable [Platform] {d d' d'' : Desk} {β : Type} {fs : List PanelFrame} {i panel : Nat}
  {windows windows' themes themes' : List String} {f : PanelFrame}

theorem OnlyToolkit.sound (h : OnlyToolkit d d') (hs : Sound d) : Sound d' := by
  have hkeeps : Keeps d { d with toolkit := d'.toolkit } := keeps_aside rfl rfl rfl rfl rfl
  rw [OnlyToolkit] at h
  rw [h]
  exact (hkeeps hs).1

def withWindow (host : PanelHost) (panel : Nat) (window : PanelWindow) : PanelHost :=
  { host with windows := host.windows ++ [(Platform.address panel, window)] }

theorem Tracks.append {members : List Nat} {host : PanelHost} (h : Tracks fs members host)
    (hm : f.panel ∈ members) (hnew : Platform.address f.panel ∉ host.windows.map Prod.fst)
    {window : PanelWindow} (hwindow : window.window = f.window) (hbody : window.body = f.body) :
    Tracks (fs ++ [f]) members (withWindow host f.panel window) := by
  refine ⟨fun x hx => ?_, ?_, fun g hg hm => ?_, h.apart⟩
  · rcases List.mem_append.mp hx with hx | hx
    · obtain ⟨g, hkept⟩ := h.known x hx
      exact ⟨g, List.mem_append_left _ hkept.frame, hkept.place, hkept.window, hkept.body,
        hkept.alone⟩
    · obtain rfl := List.mem_singleton.mp hx
      exact ⟨f, by simp, rfl, hwindow, hbody, fun i hi hplace =>
        List.inj_on_of_nodup_map h.apart hi hm hplace⟩
  · rw [withWindow, List.map_append, List.map_singleton, List.nodup_append]
    refine ⟨h.once, List.nodup_singleton _, fun a ha b hb he => ?_⟩
    rw [he, List.mem_singleton.mp hb] at ha
    exact hnew ha
  · rw [withWindow, List.map_append]
    rcases List.mem_append.mp hg with hg | hg
    · exact List.mem_append_left _ (h.covers g hg hm)
    · obtain rfl := List.mem_singleton.mp hg
      simp

variable [LawfulGui Platform.Toolkit Handler]

/-- Windows and themes are made, and nothing else happens that has to do with frames. -/
structure Adds (windows themes : List String) (d d' : Desk) : Prop where
  only : OnlyToolkit d d'
  stocked : Stocked d'
  containers : (display d'.toolkit).containers = (display d.toolkit).containers
  toolkit : (display d.toolkit).Reframes windows themes [] (display d'.toolkit)

theorem Adds.trans (h : Adds windows themes d d') (h' : Adds windows' themes' d' d'') :
    Adds (windows ++ windows') (themes ++ themes') d d'' :=
  ⟨trans_of OnlyToolkit h.only h'.only, h'.stocked, h'.containers.trans h.containers,
    h.toolkit.trans h'.toolkit⟩

theorem Adds.look (h : Adds windows themes d d') {id : String} {o : Outline}
    (ho : (display d.toolkit).look id = some o) (hk : o.kind ∈ frameKinds) :
    (display d'.toolkit).look id = some o :=
  h.toolkit.stays id o ho hk (by simp) (by simp)

theorem adds_of {e : Effect Desk β} (h : Stocked d) (htotal : Total e)
    (honly : e.Respects OnlyToolkit) (hback : e.Respects (Back none [])) :
    ∃ b d', e.outcome d = (.ok b, d') ∧ Adds [] [] d d' := by
  obtain ⟨b, d', he⟩ := htotal d
  obtain ⟨hstocked, haloof, htoolkit⟩ := h.back (hback.of_outcome he)
  exact ⟨b, d', he, honly.of_outcome he, hstocked, haloof.containers, htoolkit⟩

variable {kind : String} {arguments : List Toolkit.Value} {options : Toolkit.Options}

/-- A part of a frame is made around other items. -/
theorem makeAround_adds (h : Stocked d) (hfits : FitsIn kind options (display d.toolkit))
    (hk : kind ∈ frameKinds) {inside : Effect Desk β} {b : β}
    (hin : inside.outcome (inItem kind arguments options d) = (.ok b, d'))
    (ha : Adds windows themes (inItem kind arguments options d) d') :
    let new := (made kind arguments options none d).1
    (makeAround kind arguments options inside).outcome d = (.ok (new, b), afterItem d') ∧
      Adds ((if kind = "window" then [new] else []) ++ windows)
        ((if kind = "theme" then [new] else []) ++ themes) d (afterItem d') ∧
      (display (afterItem d').toolkit).look new =
        some ⟨kind, (display d.toolkit).parentOf options⟩ := by
  obtain ⟨hmakes, -, hopen⟩ := h.inItem hfits arguments
  have hleave := ha.stocked.inOrder.leave
  have hlook : (display (inItem kind arguments options d).toolkit).look _ = some _ :=
    hopen.spares.stays _ _ hmakes.look hk (by simp) (by simp)
  refine ⟨?_, ⟨?_, ?_, ?_, ?_⟩, ?_⟩
  · rw [outcome_makeAround, hin]
    rfl
  · have hbefore : OnlyToolkit d (inItem kind arguments options d) := rfl
    have hafter : OnlyToolkit d' (afterItem d') := rfl
    exact trans_of OnlyToolkit (trans_of OnlyToolkit hbefore ha.only) hafter
  · exact ha.stocked.toolkit hleave.inOrder hleave.spares.plain
  · refine hleave.containers.trans ?_
    rw [ha.containers, hopen.containers, List.tail_cons]
  · have hall := (hmakes.reframes.trans hopen.spares).trans (ha.toolkit.trans hleave.spares)
    simp only [List.append_nil] at hall
    exact hall
  · exact hleave.spares.stays _ _ (ha.look hlook hk) hk (by simp) (by simp)

theorem makeTheme_adds (h : Stocked d) (hc : (display d.toolkit).containers = [])
    (opacity : Float) :
    ∃ theme alpha d', (makeTheme opacity).outcome d = (.ok (theme, alpha), d') ∧
      Adds [] [theme] d d' ∧ (display d'.toolkit).look theme = some ⟨"theme", none⟩ ∧
      ¬(display d.toolkit).issued theme := by
  have hstyle : Total (makeAround "theme_component" [.text "mvAll"] [] <|
      make "add_theme_style" [.text "mvStyleVar_Alpha", .number opacity]
        [("category", .text "mvThemeCat_Core")] none) := makeAround_total make_total
  have halone : (display d.toolkit).parentOf [] = none := by
    rw [Display.parentOf, hc]
    rfl
  have hfits : FitsIn "theme" [] (display d.toolkit) :=
    ⟨by decide, rfl, fun _ => halone, by simp⟩
  obtain ⟨hmakes, hopen, -⟩ := h.inItem hfits []
  obtain ⟨⟨component, alpha⟩, d₁, hin, ha⟩ := adds_of hopen hstyle (makeAround_only make_only)
    (makeAround_back ⟨by decide, by decide, rfl⟩ (make_back ⟨by decide, by decide, rfl⟩))
  obtain ⟨hmade, hadds, hlook⟩ := makeAround_adds h hfits (by decide) hin ha
  refine ⟨_, alpha, _, ?_, by simpa using hadds, by rw [hlook, halone], hmakes.new⟩
  rw [makeTheme, outcome_bind_ok hmade]
  rfl

theorem makeHeader_adds (h : Stocked d) (panel : Nat) (p : Panel Float Binding)
    (buttonWidth : Float) :
    ∃ button d', (makeHeader panel p buttonWidth).outcome d = (.ok button, d') ∧
      Adds [] [] d d' := by
  refine adds_of h (.bind (makeAround_total ?_) fun _ => .pure _)
    (.bind (makeAround_only ?_) fun _ => .pure _)
    (.bind (makeAround_back ⟨by decide, by decide, rfl⟩ ?_) fun _ => .pure _)
  · exact .bind makeActive_total fun _ => .bind make_total fun _ => .bind makeActive_total fun _ =>
      .pure _
  · exact .bind make_only fun _ => .bind make_only fun _ => .bind make_only fun _ => .pure _
  · exact .bind (makeActive_back ⟨by decide, by decide, rfl⟩) fun _ =>
      .bind (make_back ⟨by decide, by decide, rfl⟩) fun _ =>
      .bind (makeActive_back ⟨by decide, by decide, rfl⟩) fun _ => .pure _

/-- A body is made in the window that is open. -/
theorem makeBody_adds (h : Stocked d) {window : String}
    (hc : (display d.toolkit).containers.head? = some window)
    (hw : (display d.toolkit).look window = some ⟨"window", none⟩)
    (htag : options.lookup "tag" = none) (hparent : options.lookup "parent" = none) :
    ∃ body d', (makeAround "child_window" [] options (pure ())).outcome d =
        (.ok (body, ()), d') ∧
      Adds [] [] d d' ∧
      (display d'.toolkit).look body = some ⟨"child_window", some window⟩ := by
  have hin : (display d.toolkit).parentOf options = some window := by
    rw [Display.parentOf, hparent, hc]
  have hfits : FitsIn "child_window" options (display d.toolkit) :=
    ⟨by decide, htag, by simp, fun _ => ⟨window, _, hin, hw, rfl⟩⟩
  obtain ⟨-, hopen, -⟩ := h.inItem hfits []
  obtain ⟨hmade, hadds, hlook⟩ := makeAround_adds h hfits (by simp [frameKinds])
    (outcome_pure () _) ⟨rfl, hopen, rfl, refl_of Spares _⟩
  exact ⟨_, _, hmade, by simpa using hadds, by rw [hlook, hin]⟩

/-- A window is made with its header and its body. -/
theorem makeItems_adds (h : Stocked d) (hc : (display d.toolkit).containers = []) (panel : Nat)
    (p : Panel Float Binding) (buttonWidth : Float) (options bodyOptions : Toolkit.Options)
    (htag : options.lookup "tag" = none) (hparent : options.lookup "parent" = none)
    (hbodyTag : bodyOptions.lookup "tag" = none)
    (hbodyParent : bodyOptions.lookup "parent" = none) :
    ∃ window button body d', (makeAround "window" [] options do
        let expandButton ← makeHeader panel p buttonWidth
        let (body, _) ← makeAround "child_window" [] bodyOptions (pure ())
        return (expandButton, body)).outcome d = (.ok (window, button, body), d') ∧
      Adds [window] [] d d' ∧ ¬(display d.toolkit).issued window ∧
      (display d'.toolkit).look window = some ⟨"window", none⟩ ∧
      (display d'.toolkit).look body = some ⟨"child_window", some window⟩ := by
  have halone : (display d.toolkit).parentOf options = none := by
    rw [Display.parentOf, hparent, hc]
    rfl
  have hfits : FitsIn "window" options (display d.toolkit) :=
    ⟨by decide, htag, fun _ => halone, by simp⟩
  obtain ⟨hmakes, hopen, henter⟩ := h.inItem hfits []
  have hnew := hmakes.look
  rw [halone] at hnew
  have hopened := henter.spares.stays _ _ hnew (by decide) (by simp) (by simp)
  obtain ⟨button, d₁, hheader, hadds₁⟩ := makeHeader_adds hopen panel p buttonWidth
  have hinside : (display d₁.toolkit).containers.head? =
      some (made "window" [] options none d).1 := by
    rw [hadds₁.containers, henter.containers, List.head?_cons]
  obtain ⟨body, d₂, hbody, hadds₂, hlook⟩ := makeBody_adds hadds₁.stocked hinside
    (hadds₁.look hopened (by decide)) hbodyTag hbodyParent
  have hin : (do
      let expandButton ← makeHeader panel p buttonWidth
      let (body, _) ← makeAround "child_window" [] bodyOptions (pure ())
      return (expandButton, body) : Effect Desk (String × String)).outcome
      (inItem "window" [] options d) = (.ok (button, body), d₂) := by
    rw [outcome_bind_ok hheader, outcome_bind_ok hbody]
    rfl
  obtain ⟨hmade, hadds, hwindow⟩ := makeAround_adds h hfits (by decide) hin (hadds₁.trans hadds₂)
  have hleave := hadds₂.stocked.inOrder.leave.spares
  exact ⟨_, button, body, _, hmade, by simpa using hadds, hmakes.new, by rw [hwindow, halone],
    hleave.stays _ _ hlook (by simp [frameKinds]) (by simp) (by simp)⟩

/-- The items of a frame are made. -/
structure Raises (f : PanelFrame) (d d' : Desk) : Prop where
  adds : Adds [f.window] f.themes d d'
  stands : f.Stands (display d'.toolkit)
  distinct : f.roots.Nodup
  fresh : ∀ id ∈ f.roots, ¬(display d.toolkit).issued id

/-- A frame is made for a panel and bound to it. -/
structure Frames (f : PanelFrame) (d d' : Desk) : Prop where
  stocked : Stocked d'
  aloof : Aloof (some f.panel) { d with workspace := d.workspace.bind f.panel f.binding } d'
  toolkit : (display d.toolkit).Reframes [f.window] f.themes [] (display d'.toolkit)
  built : Built d' f.panel
  stands : f.Stands (display d'.toolkit)
  distinct : f.roots.Nodup
  fresh : ∀ id ∈ f.roots, ¬(display d.toolkit).issued id

variable {d₁ d₂ d₃ : Desk} {p : Panel Float Binding}

/-- The items of a frame are new, one after the other. -/
theorem raises_of (h₁ : Adds [f.window] [] d d₁) (h₂ : Adds [] [f.windowTheme] d₁ d₂)
    (h₃ : Adds [] [f.bodyTheme] d₂ d₃)
    (hwindow : (display d₁.toolkit).look f.window = some ⟨"window", none⟩)
    (hbody : (display d₁.toolkit).look f.body = some ⟨"child_window", some f.window⟩)
    (htheme : (display d₂.toolkit).look f.windowTheme = some ⟨"theme", none⟩)
    (htheme' : (display d₃.toolkit).look f.bodyTheme = some ⟨"theme", none⟩)
    (hnew₁ : ¬(display d.toolkit).issued f.window)
    (hnew₂ : ¬(display d₁.toolkit).issued f.windowTheme)
    (hnew₃ : ¬(display d₂.toolkit).issued f.bodyTheme) : Raises f d d₃ := by
  have hthemes := h₂.trans h₃
  have hissued₁ : (display d₁.toolkit).issued f.window :=
    h₁.stocked.inOrder.regular.known.issued_of_look hwindow
  have hissued₂ : (display d₂.toolkit).issued f.windowTheme :=
    h₂.stocked.inOrder.regular.known.issued_of_look htheme
  have hne₁ : f.window ≠ f.windowTheme := fun he => hnew₂ (he ▸ hissued₁)
  have hne₂ : f.window ≠ f.bodyTheme := fun he => hnew₃ (he ▸ h₂.toolkit.issued _ hissued₁)
  have hne₃ : f.windowTheme ≠ f.bodyTheme := fun he => hnew₃ (he ▸ hissued₂)
  refine ⟨h₁.trans hthemes, ⟨hthemes.look hwindow (by decide),
    hthemes.look hbody (by simp [frameKinds]), fun id hid => ?_⟩,
    by simp [PanelFrame.roots, PanelFrame.themes, hne₁, hne₂, hne₃], fun id hid hissued => ?_⟩
  · simp only [PanelFrame.themes, List.mem_cons, List.not_mem_nil, or_false] at hid
    rcases hid with rfl | rfl
    · exact h₃.look htheme (by decide)
    · exact htheme'
  · simp only [PanelFrame.roots, PanelFrame.themes, List.mem_cons, List.not_mem_nil,
      or_false] at hid
    rcases hid with rfl | rfl | rfl
    · exact hnew₁ hissued
    · exact hnew₂ (h₁.toolkit.issued _ hissued)
    · exact hnew₃ ((h₁.trans h₂).toolkit.issued _ hissued)

theorem Raises.trans (h : Raises f d d₁) (h' : Adds [] [] d₁ d₂) : Raises f d d₂ := by
  have hadds := h.adds.trans h'
  rw [List.append_nil, List.append_nil] at hadds
  exact ⟨hadds, h.stands.reframes h'.toolkit, h.distinct, h.fresh⟩

theorem OnlyToolkit.aloof (h : OnlyToolkit d d')
    (hc : (display d'.toolkit).containers = (display d.toolkit).containers) (p : Option Nat) :
    Aloof p d d' := by
  rw [OnlyToolkit] at h
  have hinput (j : Nat) : d'.input? j = d.input? j := by
    rw [h]
    rfl
  exact ⟨hc, by rw [h], by rw [h], by rw [h], fun _ _ => by rw [h], fun j _ => hinput j⟩

/-- The content of a panel is built in its frame, and the frame is bound to the panel. -/
theorem Raises.frames (h : Raises f d d₁) (hs : Stocked d₂)
    (hb : Backstage (some f.panel) d₁ d₂) (hbuilt : Built d₂ f.panel) :
    Frames f d { d₂ with workspace := d₂.workspace.bind f.panel f.binding } := by
  have hall := trans_of (Aloof (some f.panel)) (h.adds.only.aloof h.adds.containers _) hb.toAloof
  have hreframes := h.adds.toolkit.trans hb.toolkit
  rw [List.append_nil, List.append_nil, List.append_nil] at hreframes
  refine ⟨⟨hs.inOrder, hs.widgets, hs.items, hs.owned⟩,
    ⟨hall.containers, hall.host, ?_, hall.clock, hall.contents, hall.inputs⟩, hreframes, hbuilt,
    h.stands.reframes hb.toolkit, h.distinct, h.fresh⟩
  dsimp only
  rw [hall.workspace]

/-- The window of a panel is made unless its size is none, if its content can be built. -/
theorem makeWindow_frames (h : Sound d) (hs : Stocked d) (hc : (display d.toolkit).containers = [])
    {host : PanelHost} (hh : d.host = some host) {width height : Int}
    (hwidth : Scalar.truncate p.width = .ok width)
    (hheight : Scalar.truncate p.renderedHeight = .ok height)
    (hcan : ∀ c, d.contents[i]? = some c → c.CanBuild p d.clock) :
    ∃ f window d', (makeWindow i p).outcome d = (.ok window, d') ∧ f.panel = i ∧
      window.window = f.window ∧ window.body = f.body ∧ Frames f d d' := by
  obtain ⟨window, button, body, d₁, hmade, hadds₁, hnew₁, hwindow, hbody⟩ :=
    makeItems_adds hs hc i p host.buttonWidth
      ([("label", .text p.title), ("pos", .point (host.origin.x + p.x) (host.origin.y + p.y)),
        ("width", wholeValue width), ("height", wholeValue height)] ++ plainWindow)
      [("width", .number (-1)), ("height", .number (-1)), ("border", .flag false)] rfl rfl rfl rfl
  obtain ⟨windowTheme, windowAlpha, d₂, hmade₂, hadds₂, htheme, hnew₂⟩ :=
    makeTheme_adds hadds₁.stocked (hadds₁.containers.trans hc) p.headerOpacity
  obtain ⟨bodyTheme, bodyAlpha, d₃, hmade₃, hadds₃, htheme', hnew₃⟩ :=
    makeTheme_adds hadds₂.stocked (hadds₂.containers.trans (hadds₁.containers.trans hc))
      p.bodyOpacity
  have hbind (arguments : List Toolkit.Value) :
      (call "bind_item_theme" arguments).Respects (Back none []) :=
    call_back (by decide)
  obtain ⟨_, d₄, hcall₄, hadds₄⟩ := adds_of hadds₃.stocked call_total (fun _ => rfl)
    (hbind [.text window, .text windowTheme])
  obtain ⟨_, d₅, hcall₅, hadds₅⟩ := adds_of hadds₄.stocked call_total (fun _ => rfl)
    (hbind [.text body, .text bodyTheme])
  let f : PanelFrame := ⟨i, window, body, windowTheme, bodyTheme⟩
  have hraises : Raises f d d₅ :=
    (raises_of hadds₁ hadds₂ hadds₃ hwindow hbody htheme htheme' hnew₁ hnew₂ hnew₃).trans
      (hadds₄.trans hadds₅)
  have honly : d₅ = { d with toolkit := d₅.toolkit } := hraises.adds.only
  have hcan₅ : ∀ c, d₅.contents[i]? = some c → c.CanBuild p d₅.clock := by
    rw [honly]
    exact hcan
  obtain ⟨d₆, hbuild, hbuilt⟩ := buildContent_succeeds (hraises.adds.only.sound h) hcan₅ body
  have hback : Back (some i) [] d₅ d₆ := (buildContent_back i p body).of_outcome hbuild
  obtain ⟨hstocked, hbackstage⟩ := hadds₅.stocked.back hback
  refine ⟨f, ⟨window, body, button, windowAlpha, bodyAlpha, none⟩, _, ?_, rfl, rfl, rfl,
    hraises.frames hstocked hbackstage hbuilt⟩
  rw [makeWindow, outcome_bind_ok (outcome_panelHost hh), hwidth,
    outcome_bind_ok (outcome_ofExcept _ _), hheight, outcome_bind_ok (outcome_ofExcept _ _),
    outcome_bind_ok hmade, outcome_bind_ok hmade₂, outcome_bind_ok hmade₃,
    outcome_bind_ok hcall₄, outcome_bind_ok hcall₅, outcome_bind_ok hbuild]
  rfl

theorem Hosted.distinct_append (h : Hosted fs d) (hf : Frames f d d') :
    ((fs ++ [f]).flatMap PanelFrame.roots).Nodup := by
  rw [List.flatMap_append, List.flatMap_singleton, List.nodup_append]
  refine ⟨h.distinct, hf.distinct, fun a ha b hb he => ?_⟩
  obtain ⟨g, hg, ha⟩ := List.mem_flatMap.mp ha
  exact hf.fresh b hb (he ▸ h.issued g hg a ha)

/-- The new frame is bound to its panel, after what was bound before. -/
theorem Hosted.bound_append (h : Hosted fs d) (hf : Frames f d d')
    (hm : f.panel ∈ d.workspace.members manager) {q : Panel Float Binding}
    (hq : d'.workspace.panel? i = some q) : q.bindings.filter Binding.isWindow =
      ((fs ++ [f]).filter fun g => g.panel = i ∧ i ∈ d.workspace.members manager).map
        PanelFrame.binding := by
  have hpanel : d'.workspace.panel? i =
      (d.workspace.panel? i).map fun p => if f.panel = i then p.bind f.binding else p := by
    rw [hf.aloof.workspace]
    exact List.getElem?_modify ..
  rw [hpanel] at hq
  obtain ⟨p, hp, rfl⟩ := Option.map_eq_some_iff.mp hq
  rw [List.filter_append, List.map_append, ← h.bound i p hp]
  by_cases hi : f.panel = i
  · subst hi
    simp [hm, Panel.bind, Binding.isWindow, PanelFrame.binding]
  · simp [hi]

theorem Hosted.issued_append (h : Hosted fs d) (hf : Frames f d d') {g : PanelFrame}
    (hg : g ∈ fs ++ [f]) : ∀ id ∈ g.roots, (display d'.toolkit).issued id := by
  intro id hid
  rcases List.mem_append.mp hg with hg | hg
  · exact hf.toolkit.issued id (h.issued g hg id hid)
  · obtain rfl := List.mem_singleton.mp hg
    obtain ⟨kind, hlook, -⟩ := hf.stands.look hid
    exact hf.stocked.inOrder.regular.known.issued_of_look hlook

theorem Hosted.standing_append (h : Hosted fs d) (hf : Frames f d d') {g : PanelFrame}
    (hg : g ∈ fs ++ [f]) (hm : g.panel ∈ d.workspace.members manager) :
    g.Stands (display d'.toolkit) := by
  rcases List.mem_append.mp hg with hg | hg
  · exact (h.standing g hg hm).reframes hf.toolkit
  · obtain rfl := List.mem_singleton.mp hg
    exact hf.stands

theorem Hosted.fallen_append (h : Hosted fs d) (hf : Frames f d d')
    (hm : f.panel ∈ d.workspace.members manager) {g : PanelFrame} (hg : g ∈ fs ++ [f])
    (hgm : g.panel ∉ d.workspace.members manager) : g.Fell (display d'.toolkit) := by
  rcases List.mem_append.mp hg with hg | hg
  · exact fun id hid => hf.toolkit.ends id (h.issued g hg id hid) (h.fallen g hg hgm id hid)
  · obtain rfl := List.mem_singleton.mp hg
    exact absurd hm hgm

theorem Hosted.built_append (h : Hosted fs d) (hf : Frames f d d')
    (hnew : ∀ g ∈ fs, g.panel ≠ f.panel) {g : PanelFrame} (hg : g ∈ fs ++ [f])
    (hm : g.panel ∈ d.workspace.members manager) : Built d' g.panel := by
  rcases List.mem_append.mp hg with hg | hg
  · intro c hc
    rw [hf.aloof.contents g.panel fun he => hnew g hg (Option.some.inj he)] at hc
    exact h.built g hg hm c hc
  · obtain rfl := List.mem_singleton.mp hg
    exact hf.built

/-- The frame that is made for a panel is one more that the host keeps. -/
theorem Hosted.frames (h : Hosted fs d) (hf : Frames f d d')
    (hp : d.workspace.panel? f.panel = some p) (hm : f.panel ∈ d.workspace.members manager)
    (hnew : ∀ g ∈ fs, g.panel ≠ f.panel) {window : PanelWindow}
    (hwindow : window.window = f.window) (hbody : window.body = f.body) {host : PanelHost}
    (hh : d.host = some host) (hplace : Platform.address f.panel ∉ host.windows.map Prod.fst) :
    Hosted (fs ++ [f]) { d' with host := some (withWindow host f.panel window) } := by
  have hmembers : d'.workspace.members manager = d.workspace.members manager := by
    rw [hf.aloof.workspace]
    rfl
  have hcount : d'.workspace.panels.length = d.workspace.panels.length := by
    rw [hf.aloof.workspace, Workspace.bind, Workspace.modifyPanel, List.length_modify]
  obtain ⟨host', hhost, htracks, hlayered⟩ := h.host
  obtain rfl := Option.some.inj (hh.symm.trans hhost)
  refine ⟨⟨hf.stocked.inOrder, hf.stocked.widgets, hf.stocked.items, hf.stocked.owned⟩,
    hf.aloof.containers.trans h.outside, ?_, ?_, ?_, h.distinct_append hf,
    fun g hg => h.issued_append hf hg, ?_, ?_,
    fun g hg hgm => h.standing_append hf hg (hmembers ▸ hgm),
    fun g hg hgm => h.fallen_append hf hm hg (hmembers ▸ hgm), ?_,
    fun g hg hgm => h.built_append hf hnew hg (hmembers ▸ hgm), ?_, _, rfl, ?_,
    hlayered.reframes hf.toolkit⟩
  · change (display d'.toolkit).windows = _
    rw [hf.toolkit.windows, h.windows, List.map_append]
    rfl
  · change (display d'.toolkit).themes = _
    rw [hf.toolkit.themes, h.themes, List.flatMap_append, List.flatMap_singleton]
  · change (display d'.toolkit).stack.Perm (display d'.toolkit).windows
    rw [hf.toolkit.stack, hf.toolkit.windows]
    exact h.stack.append_right _
  · rw [List.map_append, List.map_singleton, List.nodup_append]
    refine ⟨h.once, List.nodup_singleton _, fun a ha b hb he => ?_⟩
    obtain ⟨g, hg, rfl⟩ := List.mem_map.mp ha
    exact hnew g hg (he.trans (List.mem_singleton.mp hb))
  · intro g hg
    refine Nat.lt_of_lt_of_eq ?_ hcount.symm
    rcases List.mem_append.mp hg with hg | hg
    · exact h.known g hg
    · exact List.mem_singleton.mp hg ▸ (List.getElem?_eq_some_iff.mp hp).1
  · change ∀ j q, d'.workspace.panel? j = some q → q.bindings.filter Binding.isWindow =
      ((fs ++ [f]).filter fun g => g.panel = j ∧ j ∈ d'.workspace.members manager).map
        PanelFrame.binding
    rw [hmembers]
    exact fun j q hq => h.bound_append hf hm hq
  · change ∀ j, j ∉ d'.workspace.members manager → d'.input? j = none
    rw [hmembers]
    intro j hj
    have hne : some j ≠ some f.panel := fun he => hj (Option.some.inj he ▸ hm)
    rw [hf.aloof.inputs j hne]
    exact h.silent j hj
  · change Tracks _ (d'.workspace.members manager) _
    rw [hmembers]
    exact htracks.append hm hplace hwindow hbody

end Desk

end DebugDesk
