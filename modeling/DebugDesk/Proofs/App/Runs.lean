import DebugDesk.App.Scenario
import DebugDesk.Proofs.App.Opening

/-!
# Runs of the program

A run goes on from the beginning with whatever happens to the program, after failures as well, and
all its desks are ready. A title is opened at most once at a time, except while the first panel that
has it is closing: a panel that was opened meanwhile stands behind that one and is not found, so the
title is opened again.
-/
namespace DebugDesk.App

open Desk Effect

variable [Platform] {d d' : Desk}

inductive Move where
  | event (e : Event)
  | poll
  | frame
  | look
  | finish

def Move.effect : Move → Effect Desk Unit
  | .event e => do
    let _ ← happen e
  | .poll => do
    let _ ← link.poll
  | .frame => renderFrame
  | .look => modify forgetSeen
  | .finish => App.finish

/-- The desk after a move, whether it fails or not. -/
def Move.next (move : Move) (d : Desk) : Desk := (move.effect.outcome d).2

def follow (d : Desk) (moves : List Move) : Desk := moves.foldl (fun d move => move.next d) d

def begun (s : Arguments.Start) (text : Option String) (replies : List (Except Fault Reply)) :
    Desk := ((start s text).outcome { App.desk with replies }).2

theorem ready_desk (replies : List (Except Fault Reply)) : Ready { App.desk with replies } := by
  have hkeeps : Keeps App.desk { App.desk with replies } := keeps_parts rfl rfl rfl rfl
  refine ⟨(hkeeps (sound_empty Settings.gridSize Settings.closeStage)).1, fun i p hp => ?_⟩
  simp [Workspace.panel?, App.desk, Desk.empty, Workspace.make] at hp

section

variable {Q : Desk → Desk → Prop} [Enduring Q]

theorem openTransport_keeps
    (hfresh : ∀ (d : Desk) (address : String), Q d { d with
      transport := .make address (.object []) Settings.hostTimeout .deferred })
    (address : String) : (openTransport address).Respects (KeepsAlso Q) := by
  refine .bind (.ofExcept _) fun log d => ?_
  have htransport : KeepsAlso Q d { d with
      transport := .make address (.object []) Settings.hostTimeout .deferred } :=
    keeps_and (keeps_transport fun _ panel hp => by cases hp) fun _ => hfresh d address
  have hlog : KeepsAlso Q { d with
      transport := .make address (.object []) Settings.hostTimeout .deferred } { d with
      transport := .make address (.object []) Settings.hostTimeout .deferred, log } :=
    keeps_aside rfl rfl rfl rfl rfl
  exact trans_of (KeepsAlso Q) htransport hlog

theorem makeMenuItems_keeps (above : List String) (parent : String)
    (items : List (MenuItem MenuAction)) :
    (makeMenuItems above parent items).Respects (KeepsAlso Q) := by
  refine makeMenuItems.induct
    (fun above parent item => (makeMenuItem above parent item).Respects (KeepsAlso Q))
    (fun above parent items => (makeMenuItems above parent items).Respects (KeepsAlso Q))
    (fun above parent label call => ?_) (fun above parent label children ih => ?_)
    (fun above parent => ?_) (fun above parent item rest hitem hrest => ?_) above parent items
  · rw [makeMenuItem]
    exact .bind (makeActive_keeps _ _ _) fun _ => .pure ()
  · rw [makeMenuItem]
    exact .bind (make_keeps _ _ _ _) ih
  · rw [makeMenuItems]
    exact .pure ()
  · rw [makeMenuItems]
    exact .bind hitem fun _ => hrest

theorem makeMenuBar_keeps : makeMenuBar.Respects (KeepsAlso Q) :=
  .bind (makeAround_keeps _ _ _ <| .bind .get fun _ => makeMenuItems_keeps _ _ _) fun _ => .pure ()

end

/-- What is done before the first panel is opened. -/
def prepare (s : Arguments.Start) (text : Option String) : Effect Desk Unit := do
  openTransport s.host
  let g ← Effect.ofExcept (firstGraph text)
  modify fun d => { d with graph := d.graphs.length, graphs := d.graphs.push g }
  call "create_context" []
  toolkitPart.update (Gui.call · "create_viewport" []
    [("title", .text Settings.viewportTitle), ("width", wholeValue s.width),
      ("height", wholeValue s.height)])
  call "setup_dearpygui" []
  makeMenuBar
  makeHost ⟨0, Settings.menuBarHeight⟩ standardButtonWidth Panel.standardHandle

theorem start_eq (s : Arguments.Start) (text : Option String) :
    start s text = (do
      prepare s text
      let _ ← openGraph
      call "set_exit_callback" [.hidden]
      call "show_viewport" []) := by
  simp only [start, prepare, bind_assoc]

section

variable {Q : Desk → Desk → Prop} [Enduring Q]
  (hfresh : ∀ (d : Desk) (address : String), Q d { d with
    transport := .make address (.object []) Settings.hostTimeout .deferred })
  (hgraph : ∀ (d : Desk) (graphs : GraphStore) (graph : Nat), Q d { d with graphs, graph })

include hfresh hgraph

theorem prepare_keeps (s : Arguments.Start) (text : Option String) :
    (prepare s text).Respects (KeepsAlso Q) :=
  .bind (openTransport_keeps hfresh _) fun _ => .bind (.ofExcept _) fun _ =>
    .bind (fun d => keeps_and (keeps_parts rfl rfl rfl rfl) fun _ => hgraph d _ _) fun _ =>
    .bind (call_keeps _ _) fun _ => .bind (update_toolkit_keeps _) fun _ =>
    .bind (call_keeps _ _) fun _ => .bind makeMenuBar_keeps fun _ => makeHost_keeps _ _ _

/-- A run begins without panels, and then opens the graph unless it failed before. -/
theorem begun_also (s : Arguments.Start) (text : Option String)
    (replies : List (Except Fault Reply)) :
    ∃ d, KeepsAlso Q { App.desk with replies } d ∧
      (begun s text replies = d ∨ KeepsAlso Q (openGraph.outcome d).2 (begun s text replies)) := by
  have hprepare := prepare_keeps hfresh hgraph s text { App.desk with replies }
  rw [begun, start_eq]
  rcases h : (prepare s text).outcome { App.desk with replies } with ⟨fault | _, d⟩ <;>
    rw [h] at hprepare
  · rw [Effect.outcome_bind_error h]
    exact ⟨d, hprepare, .inl rfl⟩
  · rw [Effect.outcome_bind_ok h]
    exact ⟨d, hprepare, .inr <| related_rest (P := KeepsAlso Q)
      (fun _ => .bind (call_keeps _ _) fun _ => call_keeps _ _) openGraph d⟩

end

theorem begun_cases (s : Arguments.Start) (text : Option String)
    (replies : List (Except Fault Reply)) :
    ∃ d, Keeps { App.desk with replies } d ∧
      (begun s text replies = d ∨ Keeps (openGraph.outcome d).2 (begun s text replies)) :=
  begun_also (fun _ _ => trivial) (fun _ _ _ => trivial) s text replies

theorem ready_begun (s : Arguments.Start) (text : Option String)
    (replies : List (Except Fault Reply)) : Ready (begun s text replies) := by
  obtain ⟨d, hbefore, hrest⟩ := begun_cases s text replies
  have hready : Ready d := (ready_desk replies).keeps hbefore
  rcases hrest with hrest | hrest
  · exact hrest ▸ hready
  · exact (openGraph_shows hready).ready.keeps hrest

/-- The item of the menu that a move chooses, if there is one at its path. -/
def chosen? (d : Desk) : Move → Option MenuAction
  | .event (.user (.menu path)) =>
    (Gui.menuItem? d.toolkit path).bind fun _ => (MenuItem.actionAt menu path).toOption
  | _ => none

section

variable {Q : Desk → Desk → Prop} [Enduring Q]

theorem mouseOverVertex_keeps (position : Int) :
    (mouseOverVertex position).Respects (KeepsAlso Q) := by
  refine .bind .get fun d => ?_
  split
  · exact .throw _
  · exact .bind (vertexOnScreen_keeps _ position) fun _ => update_toolkit_keeps _

theorem finish_keeps : finish.Respects (KeepsAlso Q) :=
  .bind (call_keeps_also .shutdown) fun _ => .bind clearAnimations_keeps fun _ => call_keeps _ _

end

theorem next_event (e : Event) (d : Desk) : (Move.event e).next d = ((happen e).outcome d).2 :=
  outcome_bind_pure (happen e) (fun _ => ()) d

variable {path : List String}

theorem happen_menu_none (h : Gui.menuItem? d.toolkit path = none) :
    ((happen (.user (.menu path))).outcome d).2 = d := by
  rw [happen, act, Effect.outcome_bind_ok (Effect.outcome_get d), h]
  rfl

theorem happen_menu_some {item : Toolkit.Item Handler}
    (h : Gui.menuItem? d.toolkit path = some item) :
    ((happen (.user (.menu path))).outcome d).2 = ((choose path).outcome d).2 := by
  rw [happen, act, Effect.outcome_bind_ok (Effect.outcome_get d), h]
  exact outcome_bind_pure _ _ d

theorem choose_of_error {fault : Fault} (h : MenuItem.actionAt menu path = .error fault) :
    choose path = throw fault := by
  rw [choose, MenuItem.activate, h]
  rfl

theorem choose_of_ok {action : MenuAction} (h : MenuItem.actionAt menu path = .ok action) :
    choose path = perform action := by
  rw [choose, MenuItem.activate, h]

section

variable {Q : Desk → Desk → Prop} [Enduring Q]

theorem happen_keeps {e : Event} (h : chosen? d (.event e) = none) :
    KeepsAlso Q d ((happen e).outcome d).2 := by
  cases e with
  | user action =>
    by_cases hmenu : ∃ path, action = .menu path
    · obtain ⟨path, rfl⟩ := hmenu
      cases hitem : Gui.menuItem? d.toolkit path with
      | none => exact (happen_menu_none hitem).symm ▸ refl_of (KeepsAlso Q) d
      | some item =>
        rw [happen_menu_some hitem]
        cases hat : MenuItem.actionAt menu path with
        | error fault => exact choose_of_error hat ▸ refl_of (KeepsAlso Q) d
        | ok action => simp [chosen?, hitem, hat, Except.toOption] at h
    · exact act_keeps action (fun path hpath => absurd ⟨path, hpath⟩ hmenu) d
  | runRequests => exact (Respects.bind (call_keeps_also .runQueued) fun _ => .pure none) d
  | replies outcomes => exact keeps_aside rfl rfl rfl rfl rfl
  | overVertex position =>
    exact (Respects.bind (mouseOverVertex_keeps position) fun _ => .pure none) d
  | interrupt => exact refl_of (KeepsAlso Q) d

theorem next_also {move : Move} (h : chosen? d move = none)
    (hpoll : move = .poll → link.poll.Respects (KeepsAlso Q)) : KeepsAlso Q d (move.next d) := by
  cases move with
  | event e => exact next_event e d ▸ happen_keeps h
  | poll => exact (Respects.bind (hpoll rfl) fun _ => .pure ()) d
  | frame => exact renderFrame_keeps d
  | look => exact keeps_aside rfl rfl rfl rfl rfl
  | finish => exact finish_keeps d

end

theorem next_keeps {move : Move} (h : chosen? d move = none) : Keeps d (move.next d) :=
  next_also h fun _ => poll_keeps

/-- What chooses an item of the menu does what that item does. -/
theorem next_eq {move : Move} {action : MenuAction} (h : chosen? d move = some action) :
    move.next d = ((perform action).outcome d).2 := by
  unfold chosen? at h
  split at h
  next path =>
    obtain ⟨item, hitem, hat⟩ := Option.bind_eq_some_iff.mp h
    rw [next_event, happen_menu_some hitem]
    cases hr : MenuItem.actionAt menu path with
    | error fault => simp [hr, Except.toOption] at hat
    | ok action' =>
      rw [hr] at hat
      cases hat
      rw [choose_of_ok hr]
  · cases h

theorem ready_next (h : Ready d) (move : Move) : Ready (move.next d) := by
  cases hc : chosen? d move with
  | none => exact h.keeps (next_keeps hc)
  | some action =>
    rw [next_eq hc]
    cases ht : action.title? with
    | none => exact h.keeps (perform_keeps (Q := Anyhow) ht d)
    | some title => exact (perform_opens h ht).1

theorem ready_follow (h : Ready d) (moves : List Move) : Ready (follow d moves) := by
  induction moves generalizing d with
  | nil => exact h
  | cons move rest ih => exact ih (ready_next h move)

variable {move : Move} {title : String}

def opens (d : Desk) (move : Move) : Option String := (chosen? d move).bind MenuAction.title?

/-- What a move does to the panels of all titles. -/
inductive Turns (d : Desk) (move : Move) : Prop where
  /-- It opens a title. -/
  | opened (title : String) (chosen : opens d move = some title)
      (how : d.workspace.Opened manager title (move.next d).workspace)
  /-- It opens none, and panels may only close. -/
  | waned (chosen : opens d move = none) (how : d.workspace.Wanes (move.next d).workspace)

theorem Ready.turns (h : Ready d) (move : Move) : Turns d move := by
  cases hc : chosen? d move with
  | none =>
    have hopens : opens d move = none := by rw [opens, hc, Option.bind_none]
    exact .waned hopens (next_keeps hc h.toSound).2.workspace
  | some action =>
    have hopens : opens d move = action.title? := by rw [opens, hc, Option.bind_some]
    cases ht : action.title? with
    | none =>
      refine .waned (hopens.trans ht) ?_
      rw [next_eq hc]
      exact (perform_keeps (Q := Anyhow) ht d h.toSound).2.workspace
    | some title =>
      refine .opened title (hopens.trans ht) ?_
      rw [next_eq hc]
      exact (perform_opens h ht).2

/-- Every title has at most one live panel. -/
def Single (d : Desk) : Prop := ∀ title, (d.workspace.live manager title).length ≤ 1

theorem Single.wanes {d' : Desk} (h : Single d) (hw : d.workspace.Wanes d'.workspace) :
    Single d' := fun title => (hw.live manager title).length_le.trans (h title)

theorem single_begun (s : Arguments.Start) (text : Option String)
    (replies : List (Except Fault Reply)) : Single (begun s text replies) := by
  obtain ⟨d, hbefore, hrest⟩ := begun_cases s text replies
  have hfirst := ready_desk replies
  have hready : Ready d := hfirst.keeps hbefore
  have hnone : ∀ title, d.workspace.live manager title = [] := by
    intro title
    exact List.sublist_nil.mp ((hbefore hfirst.toSound).2.workspace.live manager title)
  have hsingle : Single d := fun title => by simp [hnone title]
  rcases hrest with hrest | hrest
  · exact hrest ▸ hsingle
  · have hgraph := openGraph_shows hready
    have hseen : ¬ d.workspace.Shadowed manager graphTitle := fun hidden => hidden.1 (hnone _)
    have hopened : Single (openGraph.outcome d).2 := hgraph.opened.length_live hseen hsingle
    exact hopened.wanes (hrest hgraph.ready.toSound).2.workspace

/-- No title is opened while its live panel is hidden behind one that is closing. -/
def Seen : Desk → List Move → Prop
  | _, [] => True
  | d, move :: rest =>
    (∀ title ∈ opens d move, ¬ d.workspace.Shadowed manager title) ∧ Seen (move.next d) rest

instance decidableSeen : ∀ (d : Desk) (moves : List Move), Decidable (Seen d moves)
  | _, [] => .isTrue trivial
  | d, move :: rest =>
    have := decidableSeen (move.next d) rest
    inferInstanceAs (Decidable (_ ∧ _))

theorem Single.next (h : Single d) (hready : Ready d)
    (hseen : ∀ title ∈ opens d move, ¬ d.workspace.Shadowed manager title) :
    Single (move.next d) := by
  cases hready.turns move with
  | opened title chosen how => exact how.length_live (hseen title chosen) h
  | waned chosen how => exact h.wanes how

theorem Single.follow {moves : List Move} (h : Single d) (hready : Ready d)
    (hseen : Seen d moves) : Single (follow d moves) := by
  induction moves generalizing d with
  | nil => exact h
  | cons move rest ih => exact ih (h.next hready hseen.1) (ready_next hready move) hseen.2

/-- In every run, opening a title gives the focus to its first panel, or to a new one if that panel
is closing or there is none, and nothing else makes panels. As long as no title is opened while its
live panel is hidden, every title has at most one live panel; to open a hidden title makes another
one. -/
theorem run_titles (s : Arguments.Start) (text : Option String)
    (replies : List (Except Fault Reply)) (moves : List Move) :
    let d := follow (begun s text replies) moves
    (∀ move, Turns d move) ∧
      (Seen (begun s text replies) moves → Single d) ∧
      ∀ move title, opens d move = some title → d.workspace.Shadowed manager title →
        (move.next d).workspace = d.workspace ∨
          2 ≤ ((move.next d).workspace.live manager title).length := by
  have hbegun := ready_begun s text replies
  have hready := ready_follow hbegun moves
  refine ⟨hready.turns, (single_begun s text replies).follow hbegun, fun move title ho hidden => ?_⟩
  cases hready.turns move with
  | opened title' chosen how =>
    obtain rfl := Option.some.inj (ho.symm.trans chosen)
    exact how.of_shadowed hidden
  | waned chosen how => simp [chosen] at ho

def openClockMove : Move := .event (.user (.menu ["View", "Clock"]))

def closePanelsMove : Move := .event (.user (.menu ["View", "Close all panels"]))

def reopening : List Move := [openClockMove, openClockMove, closePanelsMove, openClockMove]

omit [Platform] in
theorem reopened_titles :
    letI : Platform := .simulated id
    Seen (begun .standard none []) reopening ∧
      Single (follow (begun .standard none []) reopening) :=
  let _ : Platform := .simulated id
  ⟨by decide +kernel, (run_titles .standard none [] reopening).2.1 (by decide +kernel)⟩

omit [Platform] in
/-- Opened once more, while it is closing still, the clock has two live panels. -/
theorem reopened_twice :
    letI : Platform := .simulated id
    (follow (begun .standard none []) (reopening ++ [openClockMove])).workspace.live manager
      clockTitle = [2, 3] := by
  decide +kernel

end DebugDesk.App
