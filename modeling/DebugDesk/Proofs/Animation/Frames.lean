import DebugDesk.Proofs.Animation.Casts

/-!
# Frames of an animator

A frame gives each animation that is registered when it begins one turn, in order, whatever the
animations before it do to the registry. What they add and cancel meanwhile happens within their
turns, and the registry is left as those changes make it, without the animations that ended.
-/
namespace DebugDesk.AnimationHistory

variable {ι β γ : Type} {a : ι} {time : Int} {es fs : List (Event ι)} {s t u : Chronicle ι}

/-- What happens while an animation is called: it adds others and cancels some, which are finished
on the way or not. -/
inductive Nested : List (Event ι) → Prop where
  | nil : Nested []
  | add (a : ι) {rest : List (Event ι)} (hrest : Nested rest) : Nested (.added a :: rest)
  | cancel (a : ι) {rest : List (Event ι)} (hrest : Nested rest) : Nested (.cancelled a :: rest)
  | finish (a : ι) {during rest : List (Event ι)} (hduring : Nested during)
      (hrest : Nested rest) :
      Nested (.finishing a :: during ++ .finished a :: .cancelled a :: rest)

def Finishes (a : ι) (es : List (Event ι)) : Prop :=
  ∃ during, Nested during ∧ es = .finishing a :: during ++ [.finished a]

def Renders (time : Int) (a : ι) (es : List (Event ι)) (action : FrameAction) : Prop :=
  ∃ during, Nested during ∧ es = .began a time :: during ++ [.answered a action]

/-- An animation has its turn: it renders, and is finished right after if that is what it answered.
It stays only if it answered so. -/
inductive Turn (time : Int) (a : ι) : List (Event ι) → (ends : Bool) → Prop where
  | keep {es : List (Event ι)} (h : Renders time a es .keep) : Turn time a es false
  | drop {es : List (Event ι)} (h : Renders time a es .drop) : Turn time a es true
  | finish {es fs : List (Event ι)} (h : Renders time a es .finish) (hfinish : Finishes a fs) :
      Turn time a (es ++ fs) true

/-- Animations have their turns, one after another, and some of them end. -/
inductive Turns (time : Int) : List ι → List (Event ι) → (ended : List ι) → Prop where
  | nil : Turns time [] [] []
  | cons {a : ι} {rest ended : List ι} {es fs : List (Event ι)} {ends : Bool}
      (h : Turn time a es ends) (hrest : Turns time rest fs ended) :
      Turns time (a :: rest) (es ++ fs) (if ends then a :: ended else ended)

def Event.began? : Event ι → Option (ι × Int)
  | began a time => some (a, time)
  | _ => none

/-- The frames that were rendered, each with its time when it began and with none when it was
answered. -/
def Event.turn? : Event ι → Option (ι × Option Int)
  | began a time => some (a, some time)
  | answered a _ => some (a, none)
  | _ => none

theorem filterMap_began (es : List (Event ι)) :
    es.filterMap Event.began? =
      (es.filterMap Event.turn?).filterMap fun p => p.2.map fun time => (p.1, time) := by
  rw [List.filterMap_filterMap]
  exact List.filterMap_congr fun e _ => by cases e <;> rfl

theorem Nested.append (h : Nested es) (h' : Nested fs) : Nested (es ++ fs) := by
  induction h with
  | nil => exact h'
  | add a _ ih => exact .add a ih
  | cancel a _ ih => exact .cancel a ih
  | finish a hduring _ _ ih =>
    rw [List.append_assoc]
    exact .finish a hduring ih

/-- No frame is rendered within a call. -/
theorem Nested.turn (h : Nested es) : es.filterMap Event.turn? = [] := by
  induction h with
  | nil => rfl
  | add a _ ih => exact ih
  | cancel a _ ih => exact ih
  | finish a _ _ ih ih' =>
    rw [List.filterMap_append, List.filterMap_cons_none rfl, ih]
    exact ih'

theorem Finishes.turn (h : Finishes a es) : es.filterMap Event.turn? = [] := by
  obtain ⟨during, hduring, rfl⟩ := h
  rw [List.filterMap_append, List.filterMap_cons_none rfl, hduring.turn]
  rfl

theorem Renders.turn {action : FrameAction} (h : Renders time a es action) :
    es.filterMap Event.turn? = [(a, some time), (a, none)] := by
  obtain ⟨during, hduring, rfl⟩ := h
  have hbegan : (Event.began a time).turn? = some (a, some time) := rfl
  rw [List.filterMap_append, List.filterMap_cons_some hbegan, hduring.turn]
  rfl

theorem Turn.turn {ends : Bool} (h : Turn time a es ends) :
    es.filterMap Event.turn? = [(a, some time), (a, none)] := by
  cases h with
  | keep h => exact h.turn
  | drop h => exact h.turn
  | finish h hfinish => rw [List.filterMap_append, h.turn, hfinish.turn, List.append_nil]

theorem Turn.began {ends : Bool} (h : Turn time a es ends) :
    es.filterMap Event.began? = [(a, time)] := by
  rw [filterMap_began, h.turn]
  rfl

theorem Turns.turn {registry ended : List ι} (h : Turns time registry es ended) :
    es.filterMap Event.turn? = registry.flatMap fun a => [(a, some time), (a, none)] := by
  induction h with
  | nil => rfl
  | cons h _ ih => rw [List.filterMap_append, h.turn, ih, List.flatMap_cons]

theorem Turns.began {registry ended : List ι} (h : Turns time registry es ended) :
    es.filterMap Event.began? = registry.map fun a => (a, time) := by
  induction h with
  | nil => rfl
  | cons h _ ih => rw [List.filterMap_append, h.began, ih, List.map_cons, List.singleton_append]

theorem mem_filterMap_began : (a, time) ∈ es.filterMap Event.began? ↔ .began a time ∈ es := by
  rw [List.mem_filterMap]
  constructor
  · rintro ⟨e, hmem, he⟩
    cases e with
    | began b t =>
      obtain ⟨rfl, rfl⟩ : b = a ∧ t = time := by simpa [Event.began?] using he
      exact hmem
    | _ => cases he
  · exact fun hmem => ⟨_, hmem, rfl⟩

theorem Turns.began_mem_iff {registry ended : List ι} (h : Turns time registry es ended)
    {time' : Int} : .began a time' ∈ es ↔ a ∈ registry ∧ time' = time := by
  rw [← mem_filterMap_began, h.began]
  simp [eq_comm]

variable [DecidableEq ι]

def edited (registry : List ι) : Event ι → List ι
  | .added a => registry ++ [a]
  | .cancelled a => registry.erase a
  | _ => registry

/-- One state follows another, after some events that account for all that changed. -/
structure Follows (s : Chronicle ι) (es : List (Event ι)) (t : Chronicle ι) : Prop where
  events : t.events = es.reverse ++ s.events
  now : t.now = es.foldl edited s.now

theorem Follows.refl (s : Chronicle ι) : Follows s [] s := ⟨rfl, rfl⟩

theorem Follows.trans (h : Follows s es t) (h' : Follows t fs u) : Follows s (es ++ fs) u := by
  refine ⟨?_, ?_⟩
  · rw [h'.events, h.events, List.reverse_append, List.append_assoc]
  · rw [h'.now, h.now, List.foldl_append]

/-- An effect tells of everything that it does to the registry. What happens has one shape if it
succeeds, and another one if it fails. -/
def Tells (shape : List (Event ι) → β → Prop) (broken : List (Event ι) → Fault → Prop)
    (e : Effect (Chronicle ι) β) : Prop :=
  ∀ s, (∃ fault t es, e.outcome s = (.error fault, t) ∧ Follows s es t ∧ broken es fault) ∨
    ∃ b t es, e.outcome s = (.ok b, t) ∧ Follows s es t ∧ shape es b

/-- A failure of which there may be, with no frame rendered before it. -/
def Breaks (fails : Fault → Prop) (es : List (Event ι)) (fault : Fault) : Prop :=
  fails fault ∧ es.filterMap Event.turn? = []

namespace Tells

variable {G H : List (Event ι) → β → Prop} {K : List (Event ι) → γ → Prop}
  {B B' : List (Event ι) → Fault → Prop} {fails : Fault → Prop}
  {e : Effect (Chronicle ι) β} {f : β → Effect (Chronicle ι) γ}

theorem throw {fault : Fault} (h : B [] fault) : Tells G B (throw fault) :=
  fun s => .inl ⟨fault, s, [], rfl, .refl s, h⟩

theorem pure {b : β} (h : G [] b) : Tells G B (pure b) :=
  fun s => .inr ⟨b, s, [], rfl, .refl s, h⟩

theorem happen {G : List (Event ι) → Unit → Prop} {event : Event ι}
    (hedit : ∀ registry, edited registry event = registry) (h : G [event] ()) :
    Tells G B (Traced.happen event) :=
  fun s => .inr ⟨(), s.note event, [event], rfl, ⟨rfl, (hedit s.now).symm⟩, h⟩

theorem mono (he : Tells G B e) (h : ∀ es b, G es b → H es b)
    (hbroken : ∀ es fault, B es fault → B' es fault) : Tells H B' e := by
  intro s
  rcases he s with ⟨fault, t, es, hout, hfollows, hB⟩ | ⟨b, t, es, hout, hfollows, hG⟩
  · exact .inl ⟨fault, t, es, hout, hfollows, hbroken es fault hB⟩
  · exact .inr ⟨b, t, es, hout, hfollows, h es b hG⟩

/-- What happens in two effects, one after the other. -/
theorem bind (he : Tells G B e) (hbroken : ∀ es fault, B es fault → B' es fault)
    (hf : ∀ es b, G es b →
      Tells (fun fs c => K (es ++ fs) c) (fun fs fault => B' (es ++ fs) fault) (f b)) :
    Tells K B' (e >>= f) := by
  intro s
  rcases he s with ⟨fault, t, es, hout, hfollows, hB⟩ | ⟨b, t, es, hout, hfollows, hG⟩
  · exact .inl ⟨fault, t, es, Effect.outcome_bind_error hout f, hfollows, hbroken es fault hB⟩
  · rw [Effect.outcome_bind_ok hout]
    rcases hf es b hG t with ⟨fault, u, fs, hout', hfollows', hB⟩ | ⟨c, u, fs, hout', hfollows', hK⟩
    · exact .inl ⟨fault, u, es ++ fs, hout', hfollows.trans hfollows', hB⟩
    · exact .inr ⟨c, u, es ++ fs, hout', hfollows.trans hfollows', hK⟩

theorem bind_breaks (he : Tells G (Breaks fails) e)
    (hturn : ∀ es b, G es b → es.filterMap Event.turn? = [])
    (hf : ∀ es b, G es b → Tells (fun fs c => K (es ++ fs) c) (Breaks fails) (f b)) :
    Tells K (Breaks fails) (e >>= f) := by
  refine he.bind (fun _ _ => id) fun es b hG => (hf es b hG).mono (fun _ _ => id) ?_
  rintro fs fault ⟨hfault, hfs⟩
  exact ⟨hfault, by rw [List.filterMap_append, hturn es b hG, hfs, List.append_nil]⟩

end Tells

/-- What the animations of a cast may fail with. What is nested too deep fails, and so does an
animator that is answered an action it does not know. -/
structure Cast.MayFail (C : Cast ι) (fails : Fault → Prop) : Prop where
  tooDeep : fails .tooDeep
  render : ∀ a time, (C.render a time).Fares
    (fun action => ∀ word, action = .unknown word → fails (.unknownAction word)) fails
  finish : ∀ a, (C.finish a).Fares (fun _ => True) fails

variable {C : Cast ι} {depth : Nat} {fails : Fault → Prop}

omit [DecidableEq ι] in
theorem Cast.mayFail_any (C : Cast ι) : C.MayFail fun _ => True :=
  ⟨trivial, fun _ _ => Program.fares_any _ fun _ _ _ => trivial,
    fun _ => Program.fares_any _ fun _ => trivial⟩

omit [DecidableEq ι] in
/-- Graceful animations fail only if calls are nested too deep. -/
theorem Cast.Graceful.mayFail (hC : C.Graceful) : C.MayFail (· = .tooDeep) :=
  ⟨rfl, fun a time =>
      (hC.render a time).fares fun _ hknown word hword => absurd hword (hknown word),
    fun a => (hC.finish a).fares fun _ => id⟩

theorem tells_add {B : List (Event ι) → Fault → Prop} (C : Cast ι) (depth : Nat) (a : ι) :
    Tells (fun es _ => es = [.added a]) B
      ((C.animator depth).add a >>= fun _ => Traced.happen (.added a)) := by
  intro s
  refine .inr ⟨(), (s.put (s.now ++ [a])).note (.added a), [.added a], ?_, ⟨rfl, rfl⟩, rfl⟩
  simp only [Animator.add, C.restart_animator, C.registry_animator, pure_bind]
  rfl

theorem tells_erase {B : List (Event ι) → Fault → Prop} (C : Cast ι) (depth : Nat) (a : ι) :
    Tells (fun es _ => es = [.cancelled a]) B
      ((C.animator depth).registry.update (·.erase a) >>= fun _ =>
        Traced.happen (.cancelled a)) := by
  intro s
  refine .inr ⟨(), (s.put (s.now.erase a)).note (.cancelled a), [.cancelled a], ?_, ⟨rfl, rfl⟩, rfl⟩
  rw [C.registry_animator]
  rfl

def FinishesAll (fails : Fault → Prop) (A : Animator (Chronicle ι) ι) : Prop :=
  ∀ a, Tells (fun es _ => Finishes a es) (Breaks fails) (A.finish a)

theorem tells_cancel (h : FinishesAll fails (C.animator depth)) (a : ι) (finalize : Bool) :
    Tells (fun es _ => Nested es) (Breaks fails)
      ((C.animator depth).cancel a finalize >>= fun _ => Traced.happen (.cancelled a)) := by
  cases finalize with
  | false =>
    simp only [Animator.cancel, Bool.false_eq_true, ↓reduceIte]
    refine (tells_erase C depth a).mono ?_ fun _ _ => id
    rintro _ _ rfl
    exact .cancel a .nil
  | true =>
    simp only [Animator.cancel, ↓reduceIte, bind_assoc]
    refine (h a).bind_breaks (fun es _ hes => hes.turn) ?_
    rintro _ - ⟨during, hduring, rfl⟩
    refine (tells_erase C depth a).mono ?_ fun _ _ => id
    rintro _ _ rfl
    rw [List.append_assoc]
    exact .finish a hduring .nil

/-- What a program does is nested in the call that it carries out. -/
theorem tells_carryOut (h : FinishesAll fails (C.animator depth)) {good : β → Prop}
    {p : Program ι β} (hp : p.Fares good fails) :
    Tells (fun es b => Nested es ∧ good b) (Breaks fails) (p.carryOut (C.animator depth)) := by
  induction p with
  | answer b => exact .pure ⟨.nil, hp⟩
  | fail fault => exact .throw ⟨hp, rfl⟩
  | add a next ih =>
    rw [Program.carryOut, ← bind_assoc]
    refine (tells_add C depth a).bind_breaks (fun es _ hes => by rw [hes]; rfl) ?_
    rintro _ - rfl
    exact (ih hp).mono (fun es b hb => ⟨.add a hb.1, hb.2⟩) fun _ _ => id
  | cancel a finalize next ih =>
    rw [Program.carryOut, ← bind_assoc]
    refine (tells_cancel h a finalize).bind_breaks (fun es _ hes => hes.turn) fun es _ hes => ?_
    exact (ih hp).mono (fun fs b hb => ⟨hes.append hb.1, hb.2⟩) fun _ _ => id
  | look next ih =>
    intro s
    exact ih s (hp s) s

theorem finishesAll (hC : C.MayFail fails) (depth : Nat) :
    FinishesAll fails (C.animator depth) := by
  -- What is called in the course of a finish is carried out one level below.
  induction depth with
  | zero => exact fun a => .throw ⟨hC.tooDeep, rfl⟩
  | succ depth ih =>
    intro a
    refine (Tells.happen (G := fun es _ => es = [.finishing a]) (fun _ => rfl) rfl).bind_breaks
      (fun es _ hes => by rw [hes]; rfl) ?_
    rintro _ - rfl
    refine (tells_carryOut ih (hC.finish a)).bind_breaks (fun es _ hes => hes.1.turn)
      fun during _ hduring => ?_
    exact .happen (fun _ => rfl) ⟨during, hduring.1, rfl⟩

/-- An animation has its turn, but does not come to the end of it: no other frame is rendered. -/
def BreaksOff (fails : Fault → Prop) (time : Int) (a : ι) (es : List (Event ι)) (fault : Fault) :
    Prop :=
  fails fault ∧ es.filterMap Event.turn? <+: [(a, some time), (a, none)]

omit [DecidableEq ι] in
theorem Breaks.breaksOff {fault : Fault} (h : Breaks fails fs fault) (es : List (Event ι))
    (hes : es.filterMap Event.turn? <+: [(a, some time), (a, none)]) :
    BreaksOff fails time a (es ++ fs) fault :=
  ⟨h.1, by rw [List.filterMap_append, h.2, List.append_nil]; exact hes⟩

theorem tells_render (hC : C.MayFail fails) (depth : Nat) (time : Int) (a : ι) :
    Tells (fun es action =>
        Renders time a es action ∧ ∀ word, action = .unknown word → fails (.unknownAction word))
      (BreaksOff fails time a) ((C.animator depth).render a time) := by
  cases depth with
  | zero => exact .throw ⟨hC.tooDeep, List.nil_prefix⟩
  | succ depth =>
    refine (Tells.happen (B := Breaks fails) (G := fun es _ => es = [.began a time])
      (fun _ => rfl) rfl).bind (fun es fault h => h.breaksOff [] List.nil_prefix) ?_
    rintro _ - rfl
    refine (tells_carryOut (finishesAll hC depth) (hC.render a time)).bind
      (fun fs fault h => h.breaksOff _ ⟨[(a, none)], rfl⟩) fun during action h => ?_
    refine (Tells.happen (G := fun es _ => es = [.answered a action]) (fun _ => rfl) rfl).bind
      (B := fun _ _ => False) (fun _ _ => False.elim) ?_
    rintro _ - rfl
    exact .pure ⟨⟨during, h.1, rfl⟩, h.2⟩

theorem tells_renderOne (hC : C.MayFail fails) (depth : Nat) (time : Int) (a : ι) :
    Tells (Turn time a) (BreaksOff fails time a) ((C.animator depth).renderOne time a) := by
  refine (tells_render hC depth time a).bind (fun _ _ => id) fun es action h => ?_
  obtain ⟨hes, hunknown⟩ := h
  have hturn : es.filterMap Event.turn? <+: [(a, some time), (a, none)] := by rw [hes.turn]
  cases action with
  | keep => exact .pure (by rw [List.append_nil]; exact .keep hes)
  | finish =>
    refine (finishesAll hC depth a).bind (fun fs fault h => h.breaksOff es hturn) fun fs _ hfs => ?_
    exact .pure (by rw [List.append_nil]; exact .finish hes hfs)
  | drop => exact .pure (by rw [List.append_nil]; exact .drop hes)
  | unknown word =>
    exact .throw ⟨hunknown word rfl, by rw [List.append_nil]; exact hturn⟩

/-- Animations have their turns, and some of them end, until one breaks off. -/
def BreaksDown (fails : Fault → Prop) (time : Int) (registry : List ι) (es : List (Event ι))
    (fault : Fault) : Prop :=
  ∃ done a rest ended fs gs, registry = done ++ a :: rest ∧ Turns time done fs ended ∧
    BreaksOff fails time a gs fault ∧ es = fs ++ gs

omit [DecidableEq ι] in
theorem BreaksDown.cons {registry : List ι} {ends : Bool} {fault : Fault} (h : Turn time a es ends)
    (hrest : BreaksDown fails time registry fs fault) :
    BreaksDown fails time (a :: registry) (es ++ fs) fault := by
  obtain ⟨done, b, rest, ended, gs, hs, rfl, hturns, hbreaks, rfl⟩ := hrest
  exact ⟨a :: done, b, rest, _, es ++ gs, hs, rfl, .cons h hturns, hbreaks,
    (List.append_assoc es gs hs).symm⟩

theorem tells_renderAll (hC : C.MayFail fails) (depth : Nat) (time : Int) (registry : List ι) :
    Tells (Turns time registry) (BreaksDown fails time registry)
      ((C.animator depth).renderAll time registry) := by
  induction registry with
  | nil => exact .pure .nil
  | cons a rest ih =>
    rw [Animator.renderAll]
    refine (tells_renderOne hC depth time a).bind
      (fun es fault h => ⟨[], a, rest, [], [], es, rfl, .nil, h, rfl⟩) fun es ends hes => ?_
    cases ends with
    | false => exact ih.mono (fun fs ended hfs => .cons hes hfs) fun fs fault hfs => hfs.cons hes
    | true =>
      refine ih.bind (fun fs fault hfs => hfs.cons hes) fun fs ended hfs => .pure ?_
      rw [List.append_nil]
      exact .cons hes hfs

/-- A frame has the turns of all animations and then takes out those that ended, or it breaks down,
and then takes out none. -/
theorem outcome_renderFrame (hC : C.MayFail fails) (depth : Nat) (time : Int) (s : Chronicle ι) :
    (∃ fault t es, ((C.animator depth).renderFrame time).outcome s = (.error fault, t) ∧
        Follows s es t ∧ BreaksDown fails time s.now es fault) ∨
      ∃ t es ended, ((C.animator depth).renderFrame time).outcome s = (.ok (), t) ∧
        Turns time s.now es ended ∧ t.events = es.reverse ++ s.events ∧
        t.now = (es.foldl edited s.now).filter (!ended.contains ·) := by
  have hread : (C.animator depth).registry.read.outcome s = (.ok s.now, s) := by
    rw [C.registry_animator]
    rfl
  -- The turns go by the registry as it was read; what is added meanwhile has to wait.
  rw [Animator.renderFrame, Effect.outcome_bind_ok hread]
  rcases tells_renderAll hC depth time s.now s with
    ⟨fault, t, es, hout, hfollows, hbreaks⟩ | ⟨ended, t, es, hout, hfollows, hturns⟩
  · exact .inl ⟨fault, t, es, Effect.outcome_bind_error hout _, hfollows, hbreaks⟩
  · rw [Effect.outcome_bind_ok hout, C.registry_animator]
    refine .inr ⟨_, es, ended, rfl, hturns, hfollows.events, ?_⟩
    rw [← hfollows.now]
    rfl

/-- What is graceful gets through a frame if calls are not nested too deep. -/
theorem outcome_renderFrame_graceful (hC : C.Graceful)
    (hdeep : (((C.animator depth).renderFrame time).outcome s).1 ≠ .error .tooDeep) :
    ∃ t es ended, ((C.animator depth).renderFrame time).outcome s = (.ok (), t) ∧
      Turns time s.now es ended ∧ t.events = es.reverse ++ s.events ∧
      t.now = (es.foldl edited s.now).filter (!ended.contains ·) := by
  rcases outcome_renderFrame hC.mayFail depth time s with
    ⟨fault, t, es, hout, -, done, a, rest, ended, fs, gs, -, -, ⟨rfl, -⟩, -⟩ | hturns
  · rw [hout] at hdeep
    exact absurd rfl hdeep
  · exact hturns

/-- A frame gives every animation that is registered when it begins one turn, in order and at the
same time. It leaves the registry as the changes made meanwhile have it, without the animations
that ended. If calls are not nested too deep, it does so whatever the animations do. -/
theorem renderFrame_turns (hC : C.Graceful) (depth : Nat) (time : Int) (s : Chronicle ι)
    (hdeep : (((C.animator depth).renderFrame time).outcome s).1 ≠ .error .tooDeep) :
    ∃ t es ended, ((C.animator depth).renderFrame time).outcome s = (.ok (), t) ∧
      Turns time s.now es ended ∧ es.filterMap Event.began? = s.now.map (fun a => (a, time)) ∧
      t.events = es.reverse ++ s.events ∧
      t.now = (es.foldl edited s.now).filter (!ended.contains ·) := by
  obtain ⟨t, es, ended, hout, hturns, hevents, hnow⟩ := outcome_renderFrame_graceful hC hdeep
  exact ⟨t, es, ended, hout, hturns, hturns.began, hevents, hnow⟩

/-- The first animation finishes the second one, which adds itself again, then adds a third one and
ends; the second one cancels the first one in its own frame. -/
def troupe : Cast Nat where
  render a _ :=
    if a = 0 then .cancel 1 true (.add 2 (.answer .finish)) else .cancel 0 false (.answer .keep)
  finish a := if a = 1 then .add 1 (.answer ()) else .answer ()

theorem graceful_troupe : troupe.Graceful := by
  refine ⟨fun a time => ?_, fun a => ?_⟩
  · by_cases ha : a = 0
    · simp [troupe, ha, Program.Ends, Known]
    · simp [troupe, ha, Program.Ends, Known]
  · by_cases ha : a = 1
    · simp [troupe, ha, Program.Ends]
    · simp [troupe, ha, Program.Ends]

theorem troupe_turns : ∃ t es ended,
    ((troupe.animator 2).renderFrame 5).outcome (.start [0, 1]) = (.ok (), t) ∧
      Turns 5 [0, 1] es ended ∧ es.filterMap Event.began? = [(0, 5), (1, 5)] ∧
      t.events = es.reverse ++ [] ∧
      t.now = (es.foldl edited [0, 1]).filter (!ended.contains ·) := by
  have hok : (((troupe.animator 2).renderFrame 5).outcome (.start [0, 1])).1 = .ok () := rfl
  exact renderFrame_turns graceful_troupe 2 5 (.start [0, 1]) (by rw [hok]; simp)

example : (((troupe.animator 2).renderFrame 5).outcome (.start [0, 1])).2.now = [1, 2] := rfl

end DebugDesk.AnimationHistory
