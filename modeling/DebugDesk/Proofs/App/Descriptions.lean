import DebugDesk.Proofs.App.Runs
import DebugDesk.Proofs.Desk.Contents
import DebugDesk.Proofs.Graph.Describing

/-!
# Descriptions from outside

A description that a file or the host gives is shown if all its edges lead from node to node, and
passed over if an edge dangles. A malformed one is not contained: it ends the start of the program,
or the pass of the main loop that hands the answer over.
-/
namespace DebugDesk.App

open Desk Effect DebugDesk.Graph

variable [Platform] {d : Desk} {panel : Nat} {content description : Json}

/-- What becomes of a file with a text. -/
inductive FileRead (text : String) (r : Except Fault Graph) : Prop where
  | described (description : Json) (parsed : Json.parse text = .ok description)
      (linked : Linked description) (g : Graph) (eq : r = .ok g) (how : Describes description g)
  | replaced (description : Json) (parsed : Json.parse text = .ok description)
      (dangling : Dangling description) (provider : ContentProvider)
      (eq : r = .ok (sample provider))
  | raised (description : Json) (parsed : Json.parse text = .ok description)
      (unlinked : ¬ Linked description) (undangling : ¬ Dangling description) (fault : Fault)
      (eq : r = .error fault)
  /-- It holds no value, and the sample is shown. -/
  | unparsed (fault : Fault) (parsed : Json.parse text = .error fault) (shallow : fault ≠ .tooDeep)
      (eq : r = .ok (sample standardProvider))
  | tooDeep (parsed : Json.parse text = .error .tooDeep) (eq : r = .error .tooDeep)

omit [Platform] in
theorem graphOfText_read (text : String) : FileRead text (graphOfText text) := by
  rw [graphOfText]
  cases h : Json.parse text with
  | error fault =>
    by_cases hdeep : fault = .tooDeep
    · subst hdeep
      exact .tooDeep h rfl
    · refine .unparsed fault h hdeep ?_
      cases fault with
      | tooDeep => exact absurd rfl hdeep
      | _ => rfl
  | ok description =>
    dsimp only
    cases reads_ofJson description standardProvider with
    | found g eq how linked _ => exact .described description h linked g (by rw [eq]) how
    | lacks edge eq _ dangling =>
      rw [eq]
      exact .replaced description h dangling _ rfl
    | fails fault eq shape unlinked undangling =>
      refine .raised description h unlinked undangling fault ?_
      rw [eq]
      cases fault with
      | unknownNode edge => exact absurd rfl (shape edge)
      | _ => rfl

/-- The graph that a description describes is shown from now on, in the panel that asked for it and
in those that are opened, and no other graph changes. -/
structure Installs (description : Json) (panel : Nat) (d d' : Desk) : Prop where
  graph : Describes description (d'.graphs.graph d'.graph)
  content : ∃ c, d.contents[panel]? = some (.graph c) ∧
    d'.contents = d.contents.set panel (.graph { c with graph := some d'.graph }) ∧
    ∀ w ∈ c.widget, ∃ x, d'.widgets[w]? = some x ∧ x.view.graph = some d'.graph
  others : ∀ r < d.graphs.length, d'.graphs.graph r = d.graphs.graph r

/-- What becomes of an answer. -/
inductive Answered (panel : Nat) (content : Json) (d : Desk) (r : Except Fault Unit × Desk) :
    Prop where
  | passed (missing : descriptionIn content = none) (eq : r = (.ok (), d))
  | installed (description : Json) (isIn : descriptionIn content = some description)
      (linked : Linked description) (d' : Desk) (eq : r = (.ok (), d'))
      (how : Installs description panel d d')
  | dropped (description : Json) (isIn : descriptionIn content = some description)
      (dangling : Dangling description) (eq : r = (.ok (), d))
  | raised (description : Json) (isIn : descriptionIn content = some description)
      (unlinked : ¬ Linked description) (undangling : ¬ Dangling description) (fault : Fault)
      (eq : r = (.error fault, d))

omit [Platform] in
theorem describes_unchanged {g : Graph} (h : Describes description g) :
    g.updateIdentifiers = g := by
  obtain ⟨nodes, edges, -, hids, -⟩ := h
  have hsize : g.size = nodes.length := by simpa [Graph.size] using congrArg List.length hids
  exact updateIdentifiers_eq_self (hsize ▸ hids)

/-- The graph of an answer is installed. -/
theorem install (h : Sound d) (hpanel : ShowsGraph d panel) {g : Graph}
    (hg : Describes description g) :
    ∃ d', (showGraph panel (some d.graphs.length)).outcome
        { d with graphs := d.graphs.push g, graph := d.graphs.length } = (.ok (), d') ∧
      Installs description panel d d' := by
  have hkeeps : Keeps d { d with graphs := d.graphs.push g, graph := d.graphs.length } :=
    keeps_parts rfl rfl rfl rfl
  obtain ⟨content, hcontent, hgraph⟩ := Option.map_eq_some_iff.mp hpanel
  obtain ⟨c, rfl⟩ : ∃ c, content = .graph c := by
    cases content with
    | graph c => exact ⟨c, rfl⟩
    | _ => cases hgraph
  obtain ⟨d', hshow, hnow⟩ := (hkeeps h).1.showGraph hcontent d.graphs.length
  have hnew : (d.graphs.push g).graph d.graphs.length = g := by
    simp [GraphStore.graph, GraphStore.push]
  have hshown : d'.graphs.graph d.graphs.length = g := by
    rcases hnow.graphs d.graphs.length with hsame | ⟨-, hnumbered⟩
    · exact hsame.trans hnew
    · exact hnumbered.trans ((congrArg _ hnew).trans (describes_unchanged hg))
  refine ⟨d', hshow, ?_, ⟨c, hcontent, ?_, ?_⟩, fun r hr => ?_⟩
  · rwa [hnow.graph, hshown]
  · rw [hnow.graph, hnow.contents]
  · rw [hnow.graph]
    exact hnow.widget
  · have hold : (d.graphs.push g).graph r = d.graphs.graph r := by
      simp [GraphStore.graph, GraphStore.push, List.getElem?_append_left hr]
    rcases hnow.graphs r with hsame | ⟨rfl, -⟩
    · exact hsame.trans hold
    · exact absurd hr (Nat.lt_irrefl _)

theorem showAnswer_answered (h : Sound d) (hpanel : ShowsGraph d panel) (content : Json) :
    Answered panel content d ((showAnswer panel content).outcome d) := by
  rw [showAnswer]
  cases hin : descriptionIn content with
  | none => exact .passed hin rfl
  | some description =>
    dsimp only
    cases reads_ofJson description standardProvider with
    | found g eq how linked _ =>
      obtain ⟨d', hshow, hinstalls⟩ := install h hpanel how
      rw [eq]
      exact .installed description hin linked d' hshow hinstalls
    | lacks edge eq _ dangling =>
      rw [eq]
      exact .dropped description hin dangling rfl
    | fails fault eq shape unlinked undangling =>
      refine .raised description hin unlinked undangling fault ?_
      rw [eq]
      cases fault with
      | unknownNode edge => exact absurd rfl (shape edge)
      | _ => rfl

/-- An answer is contained if it has no description, or one that is linked or dangling. -/
def Contained (content : Json) : Prop :=
  ∀ description ∈ descriptionIn content, Linked description ∨ Dangling description

theorem Answered.ok_or_error {r : Except Fault Unit × Desk} (h : Answered panel content d r) :
    (Contained content ∧ r.1 = .ok ()) ∨ ¬ Contained content ∧ ∃ fault, r.1 = .error fault := by
  cases h with
  | passed missing eq => exact .inl ⟨by simp [Contained, missing], by rw [eq]⟩
  | installed description isIn linked d' eq how =>
    refine .inl ⟨fun description' hin => ?_, by rw [eq]⟩
    cases isIn.symm.trans hin
    exact .inl linked
  | dropped description isIn dangling eq =>
    refine .inl ⟨fun description' hin => ?_, by rw [eq]⟩
    cases isIn.symm.trans hin
    exact .inr dangling
  | raised description isIn unlinked undangling fault eq =>
    exact .inr ⟨fun hall => (hall description isIn).elim unlinked undangling, fault, by rw [eq]⟩

/-- Answers are handed over one after the other, up to the first that is not contained. -/
theorem forM_showAnswer (h : Sound d) (batch : List (Response Nat Nat))
    (hpanels : ∀ r ∈ batch, ShowsGraph d r.callback) :
    ((batch.forM fun r => showAnswer r.callback r.content).outcome d).1 = .ok () ↔
      ∀ r ∈ batch, Contained r.content := by
  induction batch generalizing d with
  | nil => simp
  | cons r rest ih =>
    obtain ⟨hr, hrest⟩ := List.forall_mem_cons.mp hpanels
    have hanswer := (showAnswer_answered h hr r.content).ok_or_error
    have hkept := showAnswer_keeps r.callback r.content d h
    rw [forM_cons, List.forall_mem_cons]
    rcases ho : (showAnswer r.callback r.content).outcome d with ⟨fault | _, d'⟩ <;>
      rw [ho] at hanswer hkept
    · have hnot : ¬ Contained r.content := by simpa using hanswer
      rw [Effect.outcome_bind_error ho]
      simp [hnot]
    · have hyes : Contained r.content := by simpa using hanswer
      rw [Effect.outcome_bind_ok ho]
      simpa [hyes] using ih hkept.1 fun x hx => (hrest x hx).stays hkept.2

theorem outcome_poll (d : Desk) :
    link.poll.outcome d = (do
      d.transport.queue.forM fun r => showAnswer r.callback r.content
      return d.transport.queue.length : Effect Desk Nat).outcome
        { d with transport := d.transport.emptyQueue } := rfl

/-- A poll fails exactly if an answer that is queued is not contained. -/
theorem poll_succeeds_iff (h : Sound d) :
    (∃ n, (link.poll.outcome d).1 = .ok n) ↔ ∀ r ∈ d.transport.queue, Contained r.content := by
  have hempty : Keeps d { d with transport := d.transport.emptyQueue } := emptyQueue_keeps d
  have hpanels : ∀ r ∈ d.transport.queue,
      ShowsGraph { d with transport := d.transport.emptyQueue } r.callback := fun r hr =>
    h.callees _ (List.mem_append_left _ (List.mem_map_of_mem hr))
  have hbatch := forM_showAnswer (hempty h).1 d.transport.queue hpanels
  rw [outcome_poll, ← hbatch]
  rcases ho : (d.transport.queue.forM fun r => showAnswer r.callback r.content).outcome
    { d with transport := d.transport.emptyQueue } with ⟨fault | _, d'⟩
  · rw [Effect.outcome_bind_error ho]
    simp
  · rw [Effect.outcome_bind_ok ho]
    simp

/-- In every run, a description in a file or in the answer to a fetch is shown as the graph it
describes or passed over, and nothing fails, unless it is malformed: neither linked nor dangling. A
malformed answer raises without any change, and a poll fails exactly if one is queued. -/
theorem run_contains (s : Arguments.Start) (text : Option String)
    (replies : List (Except Fault Reply)) (moves : List Move) :
    let d := follow (begun s text replies) moves
    (∀ text, FileRead text (graphOfText text)) ∧
      (∀ panel ∈ callees d.transport, ∀ content,
        Answered panel content d ((showAnswer panel content).outcome d)) ∧
      ((∃ n, (link.poll.outcome d).1 = .ok n) ↔
        ∀ r ∈ d.transport.queue, Contained r.content) := by
  have hready := ready_follow (ready_begun s text replies) moves
  refine ⟨graphOfText_read, fun panel hp content => ?_, ?_⟩
  · exact showAnswer_answered hready.toSound (hready.callees panel hp) content
  · exact poll_succeeds_iff hready.toSound

def answerWith (description : Json) : Json := .object [("status", .str "ok"), ("data", description)]

/-- The host answers a fetch with a description whose nodes are a number. -/
def numbered : List (Except Fault Reply) :=
  [.ok ⟨.int 200, .str "OK", some (answerWith (.object [("nodes", .int 5)]))⟩]

def fetching : List Move := [.event (.user (.menu ["Host", "Fetch graph"])), .event .runRequests]

omit [Platform] in
theorem fetched_contains :
    letI : Platform := .simulated id
    0 ∈ callees (follow (begun .standard none numbered) fetching).transport ∧
      Answered 0 (answerWith (.object [("nodes", .list [.object []])]))
        (follow (begun .standard none numbered) fetching)
        ((showAnswer 0 (answerWith (.object [("nodes", .list [.object []])]))).outcome
          (follow (begun .standard none numbered) fetching)) :=
  let _ : Platform := .simulated id
  have hcallee : 0 ∈ callees (follow (begun .standard none numbered) fetching).transport := by
    decide +kernel
  ⟨hcallee, (run_contains .standard none numbered fetching).2.1 0 hcallee _⟩

omit [Platform] in
/-- A file with a list raises, and so does an answer whose nodes are a number. -/
theorem malformed_raise :
    letI : Platform := .simulated id
    graphOfText "[]" = .error .notAnObject ∧
      (link.poll.outcome (follow (begun .standard none numbered) fetching)).1 =
        .error .notASequence :=
  ⟨rfl, by decide +kernel⟩

end DebugDesk.App
