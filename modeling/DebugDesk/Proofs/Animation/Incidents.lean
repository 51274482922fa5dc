import DebugDesk.Proofs.Animation.Frames

/-!
# Incidents during a frame

An animation that is added while a frame is rendered has its turn in the next frame, unless it ends
in this one: an animation that ends is taken out of the registry with all its registrations, also
with those that were made after its end.

A frame takes the animations that ended out of the registry when all turns are over. If one of the
turns fails, it takes out none: whoever ended before is still registered, unless it was cancelled as
often as it was registered, and has another turn in the next frame.
-/
namespace DebugDesk.AnimationHistory

section

variable {ι : Type} {a b : ι} {time : Int} {es fs : List (Event ι)}

/-- An animation ends if it answers anything but to be kept. -/
def EndsIn (a : ι) (es : List (Event ι)) : Prop :=
  ∃ action, action ≠ .keep ∧ .answered a action ∈ es

theorem endsIn_append : EndsIn a (es ++ fs) ↔ EndsIn a es ∨ EndsIn a fs := by
  simp only [EndsIn, List.mem_append, and_or_left, exists_or]

/-- Within a call nothing is answered. -/
theorem Nested.not_endsIn (h : Nested es) : ¬EndsIn a es := by
  rintro ⟨action, -, hmem⟩
  induction h with
  | nil => cases hmem
  | add b _ ih => exact ih (by simpa using hmem)
  | cancel b _ ih => exact ih (by simpa using hmem)
  | finish b _ _ ih ih' =>
    rcases List.mem_append.mp hmem with hmem | hmem
    · exact ih (by simpa using hmem)
    · exact ih' (by simpa using hmem)

theorem Finishes.not_endsIn (h : Finishes b es) : ¬EndsIn a es := by
  obtain ⟨during, hduring, rfl⟩ := h
  rintro ⟨action, haction, hmem⟩
  exact hduring.not_endsIn (a := a) ⟨action, haction, by simpa using hmem⟩

theorem Renders.endsIn_iff {action : FrameAction} (h : Renders time b es action) :
    EndsIn a es ↔ a = b ∧ action ≠ .keep := by
  obtain ⟨during, hduring, rfl⟩ := h
  constructor
  · rintro ⟨answer, hanswer, hmem⟩
    have hnot : .answered a answer ∉ during := fun hin =>
      hduring.not_endsIn ⟨answer, hanswer, hin⟩
    obtain ⟨rfl, rfl⟩ : a = b ∧ answer = action := by simpa [hnot] using hmem
    exact ⟨rfl, hanswer⟩
  · rintro ⟨rfl, haction⟩
    exact ⟨action, haction, by simp⟩

theorem Turn.endsIn_iff {ends : Bool} (h : Turn time b es ends) :
    EndsIn a es ↔ a = b ∧ ends = true := by
  cases h with
  | keep h => simp [h.endsIn_iff]
  | drop h => simp [h.endsIn_iff]
  | finish h hfinish => simp [endsIn_append, h.endsIn_iff, hfinish.not_endsIn]

theorem Turns.mem_ended_iff {registry ended : List ι} (h : Turns time registry es ended) :
    a ∈ ended ↔ EndsIn a es := by
  induction h with
  | nil => simp [EndsIn]
  | @cons b rest ended es fs ends h _ ih =>
    rw [endsIn_append, h.endsIn_iff, ← ih]
    cases ends <;> simp

variable [DecidableEq ι]

/-- What is registered stays so until it is cancelled. -/
theorem mem_foldl_edited {registry : List ι} (ha : a ∈ registry) (hes : .cancelled a ∉ es) :
    a ∈ es.foldl edited registry := by
  induction es generalizing registry with
  | nil => exact ha
  | cons e es ih =>
    obtain ⟨he, hes⟩ := not_or.mp (mt List.mem_cons.mpr hes)
    refine ih ?_ hes
    cases e with
    | added b => exact List.mem_append_left _ ha
    | cancelled b =>
      have hne : a ≠ b := by
        rintro rfl
        exact he rfl
      exact (List.mem_erase_of_ne hne).mpr ha
    | _ => exact ha

/-- An animation is added, and not cancelled after that. -/
def AddsFor (a : ι) (es : List (Event ι)) : Prop :=
  ∃ before after, es = before ++ .added a :: after ∧ .cancelled a ∉ after

theorem AddsFor.mem_foldl (h : AddsFor a es) (registry : List ι) :
    a ∈ es.foldl edited registry := by
  obtain ⟨before, after, rfl, hafter⟩ := h
  rw [List.foldl_append, List.foldl_cons]
  exact mem_foldl_edited (List.mem_append_right _ (List.mem_singleton_self a)) hafter

variable {C : Cast ι} {s : Chronicle ι} {depth : Nat}

structure Framed (time : Int) (s : Chronicle ι) (es : List (Event ι)) (t : Chronicle ι) :
    Prop where
  events : t.events = es.reverse ++ s.events
  began : ∀ a, .began a time ∈ es ↔ a ∈ s.now
  registered : ∀ a, a ∈ t.now ↔ a ∈ es.foldl edited s.now ∧ ¬EndsIn a es

theorem framed_renderFrame (hC : C.Graceful)
    (hdeep : (((C.animator depth).renderFrame time).outcome s).1 ≠ .error .tooDeep) :
    ∃ es t, ((C.animator depth).renderFrame time).outcome s = (.ok (), t) ∧
      Framed time s es t := by
  obtain ⟨t, es, ended, hout, hturns, hevents, hnow⟩ := outcome_renderFrame_graceful hC hdeep
  refine ⟨es, t, hout, hevents, fun a => hturns.began_mem_iff.trans (and_iff_left rfl), fun a => ?_⟩
  rw [hnow, List.mem_filter, ← hturns.mem_ended_iff]
  simp

/-- An animation that is added during a frame, and not cancelled after that, is registered when the
frame is over and is rendered in the next one exactly if it did not end in this frame, whether
before it was added or after that. -/
theorem renderFrame_adds (hC : C.Graceful) (depth : Nat) (time : Int) (s : Chronicle ι)
    (hdeep : (((C.animator depth).renderFrame time).outcome s).1 ≠ .error .tooDeep) :
    ∃ (es : List (Event ι)) (t : Chronicle ι),
      ((C.animator depth).renderFrame time).outcome s = (.ok (), t) ∧
      t.events = es.reverse ++ s.events ∧
      ∀ a, AddsFor a es →
        (a ∈ t.now ↔ ¬EndsIn a es) ∧
        ∀ depth' time',
          (((C.animator depth').renderFrame time').outcome t).1 ≠ .error .tooDeep →
          ∃ (fs : List (Event ι)) (u : Chronicle ι),
            ((C.animator depth').renderFrame time').outcome t = (.ok (), u) ∧
            u.events = fs.reverse ++ t.events ∧ (.began a time' ∈ fs ↔ ¬EndsIn a es) := by
  obtain ⟨es, t, hout, hframed⟩ := framed_renderFrame hC hdeep
  refine ⟨es, t, hout, hframed.events, fun a hadds => ?_⟩
  have hregistered : a ∈ t.now ↔ ¬EndsIn a es := by
    rw [hframed.registered]
    exact and_iff_right (hadds.mem_foldl s.now)
  refine ⟨hregistered, fun depth' time' hdeep' => ?_⟩
  obtain ⟨fs, u, hnext, hframed'⟩ := framed_renderFrame hC hdeep'
  exact ⟨fs, u, hnext, hframed'.events, (hframed'.began a).trans hregistered⟩

/-- The animations end at once, and when one is finished it is added again, together with another
one. -/
def relay : Cast Nat where
  render _ _ := .answer .finish
  finish a := .add a (.add (a + 1) (.answer ()))

theorem graceful_relay : relay.Graceful :=
  ⟨fun _ _ => by simp [relay, Program.Ends, Known], fun _ => by simp [relay, Program.Ends]⟩

/-- The other one is rendered next. -/
theorem relay_adds : ∃ (es : List (Event Nat)) (t : Chronicle Nat),
    ((relay.animator 2).renderFrame 5).outcome (.start [0]) = (.ok (), t) ∧
    t.events = es.reverse ++ [] ∧ AddsFor 1 es ∧ ¬EndsIn 1 es ∧ 1 ∈ t.now ∧
    ∃ (fs : List (Event Nat)) (u : Chronicle Nat),
      ((relay.animator 2).renderFrame 6).outcome t = (.ok (), u) ∧
      u.events = fs.reverse ++ t.events ∧ .began 1 6 ∈ fs := by
  have hok : (((relay.animator 2).renderFrame 5).outcome (.start [0])).1 = .ok () := rfl
  obtain ⟨es, t, hout, hevents, hadds⟩ :=
    renderFrame_adds graceful_relay 2 5 (.start [0]) (by rw [hok]; simp)
  have ht : t.events = [.finished 0, .added 1, .added 0, .finishing 0, .answered 0 .finish,
      .began 0 5] := by
    obtain ⟨-, rfl⟩ := Prod.mk.inj hout
    rfl
  have hes : es = [.began 0 5, .answered 0 .finish, .finishing 0, .added 0] ++ .added 1 ::
      [.finished 0] := by
    have hrev : es.reverse = t.events := by rw [hevents, Traced.events_start, List.append_nil]
    rw [← List.reverse_reverse es, hrev, ht]
    rfl
  have hadded : AddsFor 1 es := ⟨_, _, hes, by simp⟩
  have hgoes : ¬EndsIn 1 es := by simp [EndsIn, hes]
  have hok' : (((relay.animator 2).renderFrame 6).outcome t).1 = .ok () := by
    obtain ⟨-, rfl⟩ := Prod.mk.inj hout
    rfl
  obtain ⟨hmem, hnext⟩ := hadds 1 hadded
  obtain ⟨fs, u, hout', hevents', hbegan⟩ := hnext 2 6 (by rw [hok']; simp)
  exact ⟨es, t, hout, hevents, hadded, hgoes, hmem.mpr hgoes, fs, u, hout', hevents',
    hbegan.mpr hgoes⟩

/-- The one that was finished is not registered any more, although it was added again and nobody
cancelled it, and the next frame does not render it. -/
theorem restarted_is_lost : ∃ t u : Chronicle Nat,
    ((relay.animator 2).renderFrame 5).outcome (.start [0]) = (.ok (), t) ∧
    AddsFor 0 t.events.reverse ∧ 0 ∉ t.now ∧
    ((relay.animator 2).renderFrame 6).outcome t = (.ok (), u) ∧ .began 0 6 ∉ u.events := by
  refine ⟨_, _, rfl, ⟨[.began 0 5, .answered 0 .finish, .finishing 0], [.added 1, .finished 0],
    rfl, ?_⟩, ?_, rfl, ?_⟩ <;> decide

end

section

variable {ι : Type} {a b : ι} {time : Int} {es fs : List (Event ι)}

/-- An animation that is registered has a turn of its own. -/
theorem Turns.exists_turn {registry ended : List ι} (h : Turns time registry es ended)
    (ha : a ∈ registry) :
    ∃ before gs after ends, Turn time a gs ends ∧ es = before ++ gs ++ after := by
  induction h with
  | nil => cases ha
  | @cons b rest ended es fs ends h _ ih =>
    rcases List.mem_cons.mp ha with rfl | ha
    · exact ⟨[], es, fs, ends, h, rfl⟩
    · obtain ⟨before, gs, after, ends, hturn, rfl⟩ := ih ha
      exact ⟨es ++ before, gs, after, ends, hturn, by simp only [List.append_assoc]⟩

/-- An animation has no turn in what happens: it neither renders a frame nor answers one, and only
its answer is what a frame would finish it for. -/
def LeftOut (a : ι) (es : List (Event ι)) : Prop :=
  (∀ time, .began a time ∉ es) ∧ ∀ action, .answered a action ∉ es

theorem leftOut_iff : LeftOut a es ↔ ∀ time, (a, time) ∉ es.filterMap Event.turn? := by
  constructor
  · rintro ⟨hbegan, hanswered⟩ time hmem
    obtain ⟨e, he, hturn⟩ := List.mem_filterMap.mp hmem
    cases e with
    | began b t =>
      obtain ⟨rfl, -⟩ : b = a ∧ some t = time := by simpa [Event.turn?] using hturn
      exact hbegan t he
    | answered b action =>
      obtain ⟨rfl, -⟩ : b = a ∧ none = time := by simpa [Event.turn?] using hturn
      exact hanswered action he
    | _ => cases hturn
  · intro h
    exact ⟨fun time hmem => h (some time) (List.mem_filterMap.mpr ⟨_, hmem, rfl⟩),
      fun action hmem => h none (List.mem_filterMap.mpr ⟨_, hmem, rfl⟩)⟩

theorem leftOut_append : LeftOut a (es ++ fs) ↔ LeftOut a es ∧ LeftOut a fs := by
  simp only [leftOut_iff, List.filterMap_append, List.mem_append, not_or, forall_and]

theorem eq_of_mem_turn {time' : Option Int} (h : (a, time') ∈ [(b, some time), (b, none)]) :
    a = b := by
  rcases List.mem_pair.mp h with h | h
  · exact congrArg Prod.fst h
  · exact congrArg Prod.fst h

theorem Turns.leftOut {registry ended : List ι} (h : Turns time registry es ended)
    (ha : a ∉ registry) : LeftOut a es := by
  rw [leftOut_iff, h.turn]
  intro time' hmem
  obtain ⟨b, hb, hmem⟩ := List.mem_flatMap.mp hmem
  obtain rfl := eq_of_mem_turn hmem
  exact ha hb

theorem BreaksDown.leftOut {fails : Fault → Prop} {registry : List ι} {fault : Fault}
    (h : BreaksDown fails time registry es fault) (ha : a ∉ registry) : LeftOut a es := by
  obtain ⟨done, b, rest, ended, fs, gs, rfl, hturns, ⟨-, hturn⟩, rfl⟩ := h
  obtain ⟨hdone, hrest⟩ := not_or.mp (mt List.mem_append.mpr ha)
  refine leftOut_append.mpr ⟨hturns.leftOut hdone, leftOut_iff.mpr fun time' hmem => ?_⟩
  obtain rfl := eq_of_mem_turn (hturn.subset hmem)
  exact hrest List.mem_cons_self

variable [DecidableEq ι]

/-- How often an animation that is not added stays registered: each time it is cancelled takes one
registration away, as long as there is one. -/
theorem count_foldl_edited {registry : List ι} (h : .added a ∉ es) :
    (es.foldl edited registry).count a = registry.count a - es.count (.cancelled a) := by
  induction es generalizing registry with
  | nil => rfl
  | cons e es ih =>
    obtain ⟨he, hes⟩ := not_or.mp (mt List.mem_cons.mpr h)
    rw [List.foldl_cons, ih hes, List.count_cons]
    cases e with
    | added b =>
      have hne : b ≠ a := fun hb => he (hb ▸ rfl)
      simp [edited, hne]
    | cancelled b =>
      rw [edited, List.count_erase]
      by_cases hb : b = a
      · subst hb
        simp only [beq_self_eq_true, ↓reduceIte]
        omega
      · simp [hb]
    | _ => simp [edited]

theorem mem_foldl_edited_iff {registry : List ι} (h : .added a ∉ es) :
    a ∉ es.foldl edited registry ↔ registry.count a ≤ es.count (.cancelled a) := by
  rw [← List.count_eq_zero, count_foldl_edited h, Nat.sub_eq_zero_iff_le]

variable {C : Cast ι} {s : Chronicle ι} {depth : Nat}

def Cast.frames (C : Cast ι) (depth : Nat) (s : Chronicle ι) (times : List Int) : Chronicle ι :=
  times.foldl (fun s time => (((C.animator depth).renderFrame time).outcome s).2) s

/-- No later frame renders or finishes an animation, unless it is added again. -/
def Cast.Forgets (C : Cast ι) (s : Chronicle ι) (a : ι) : Prop :=
  ∀ (depth : Nat) (times : List Int), ∃ es : List (Event ι),
    (C.frames depth s times).events = es.reverse ++ s.events ∧
      (.added a ∉ es → LeftOut a es)

/-- The next frame that gets through gives an animation a turn. -/
def Cast.Repeats (C : Cast ι) (s : Chronicle ι) (a : ι) : Prop :=
  ∀ (depth : Nat) (time : Int) (t : Chronicle ι),
    ((C.animator depth).renderFrame time).outcome s = (.ok (), t) →
      ∃ (before es after : List (Event ι)) (ends : Bool), Turn time a es ends ∧
        t.events = (before ++ es ++ after).reverse ++ s.events

/-- A frame gives turns only to what is registered, and only additions make registered what was not,
whether the frame gets through or not. -/
theorem renderFrame_keeps_out (C : Cast ι) (depth : Nat) (time : Int) (s : Chronicle ι) (a : ι) :
    ∃ es : List (Event ι),
      (((C.animator depth).renderFrame time).outcome s).2.events = es.reverse ++ s.events ∧
      (a ∉ s.now → .added a ∉ es → LeftOut a es ∧
        a ∉ (((C.animator depth).renderFrame time).outcome s).2.now) := by
  have hout : ∀ es : List (Event ι), a ∉ s.now → .added a ∉ es → a ∉ es.foldl edited s.now := by
    intro es ha hadded
    rw [mem_foldl_edited_iff hadded, List.count_eq_zero.mpr ha]
    exact Nat.zero_le _
  rcases outcome_renderFrame C.mayFail_any depth time s with
    ⟨fault, t, es, h, hfollows, hbreaks⟩ | ⟨t, es, ended, h, hturns, hevents, hnow⟩
  · rw [h]
    refine ⟨es, hfollows.events, fun ha hadded => ⟨hbreaks.leftOut ha, ?_⟩⟩
    rw [hfollows.now]
    exact hout es ha hadded
  · rw [h]
    refine ⟨es, hevents, fun ha hadded => ⟨hturns.leftOut ha, ?_⟩⟩
    rw [hnow]
    exact fun hmem => hout es ha hadded (List.mem_filter.mp hmem).1

/-- What is not registered stays out of all later frames. -/
theorem forgets_of_not_mem (C : Cast ι) (ha : a ∉ s.now) : C.Forgets s a := by
  have hframes : ∀ (depth : Nat) (times : List Int) (s : Chronicle ι), ∃ es : List (Event ι),
      (C.frames depth s times).events = es.reverse ++ s.events ∧
        (a ∉ s.now → .added a ∉ es → LeftOut a es) := by
    intro depth times
    induction times with
    | nil =>
      exact fun s => ⟨[], rfl, fun _ _ => ⟨fun _ => List.not_mem_nil, fun _ => List.not_mem_nil⟩⟩
    | cons time times ih =>
      intro s
      obtain ⟨es, hevents, hkeeps⟩ := renderFrame_keeps_out C depth time s a
      obtain ⟨fs, hevents', hframes⟩ := ih (((C.animator depth).renderFrame time).outcome s).2
      refine ⟨es ++ fs, ?_, fun ha hadded => leftOut_append.mpr ?_⟩
      · rw [List.reverse_append, List.append_assoc, ← hevents]
        exact hevents'
      · obtain ⟨hes, hfs⟩ := not_or.mp (mt List.mem_append.mpr hadded)
        obtain ⟨hleft, hnow⟩ := hkeeps ha hes
        exact ⟨hleft, hframes hnow hfs⟩
  intro depth times
  obtain ⟨es, hevents, hleft⟩ := hframes depth times s
  exact ⟨es, hevents, hleft ha⟩

theorem repeats_of_mem (C : Cast ι) (ha : a ∈ s.now) : C.Repeats s a := by
  intro depth time t hout
  rcases outcome_renderFrame C.mayFail_any depth time s with
    ⟨fault, u, es, h, -, -⟩ | ⟨u, es, ended, h, hturns, hevents, -⟩
  · rw [h] at hout
    cases hout
  · rw [h] at hout
    cases hout
    obtain ⟨before, gs, after, ends, hturn, rfl⟩ := hturns.exists_turn ha
    exact ⟨before, gs, after, ends, hturn, hevents⟩

/-- A frame that fails has the turns of some animations, and breaks off in the turn of the next one.
It leaves the registry as the changes made meanwhile have it, with those that ended: whoever was not
added meanwhile is not registered any more exactly if it was cancelled as often as it was
registered. In that case no later frame renders or finishes it, otherwise the next one gives it
another turn. -/
theorem renderFrame_fails (C : Cast ι) (depth : Nat) (time : Int) (s t : Chronicle ι)
    (fault : Fault)
    (hfails : ((C.animator depth).renderFrame time).outcome s = (.error fault, t)) :
    ∃ (done : List ι) (a : ι) (rest ended : List ι) (es fs : List (Event ι)),
      s.now = done ++ a :: rest ∧ Turns time done es ended ∧
      fs.filterMap Event.turn? <+: [(a, some time), (a, none)] ∧
      t.events = (es ++ fs).reverse ++ s.events ∧ t.now = (es ++ fs).foldl edited s.now ∧
      ∀ b, .added b ∉ es ++ fs →
        (b ∉ t.now ↔ s.now.count b ≤ (es ++ fs).count (.cancelled b)) ∧
        (b ∉ t.now → C.Forgets t b) ∧ (b ∈ t.now → C.Repeats t b) := by
  rcases outcome_renderFrame C.mayFail_any depth time s with
    ⟨fault', u, es, h, hfollows, hbreaks⟩ | ⟨u, es, ended, h, -, -, -⟩
  · rw [h] at hfails
    cases hfails
    obtain ⟨done, a, rest, ended, fs, gs, hregistry, hturns, ⟨-, hturn⟩, rfl⟩ := hbreaks
    refine ⟨done, a, rest, ended, fs, gs, hregistry, hturns, hturn, hfollows.events, hfollows.now,
      fun b hadded => ⟨?_, forgets_of_not_mem C, repeats_of_mem C⟩⟩
    rw [hfollows.now]
    exact mem_foldl_edited_iff hadded
  · rw [h] at hfails
    cases hfails

/-- The first animation ends and is finished, the second one ends, and the third one cancels the
first one, and answers with no action at all. -/
def stumbling : Cast Nat where
  render a _ :=
    if a = 0 then .answer .finish
    else if a = 1 then .answer .drop
    else .cancel 0 false (.answer (.unknown "halt"))
  finish _ := .answer ()

/-- The first animation is gone, the second one has another turn. -/
theorem stumbling_fails : ∃ t : Chronicle Nat,
    ((stumbling.animator 2).renderFrame 5).outcome (.start [0, 1, 2]) =
        (.error (.unknownAction "halt"), t) ∧
      .finished 0 ∈ t.events ∧ .answered 1 .drop ∈ t.events ∧
      0 ∉ t.now ∧ stumbling.Forgets t 0 ∧ 1 ∈ t.now ∧ stumbling.Repeats t 1 := by
  have hout : ((stumbling.animator 2).renderFrame 5).outcome (.start [0, 1, 2]) =
      (.error (.unknownAction "halt"), _) := rfl
  obtain ⟨done, a, rest, ended, es, fs, -, -, -, hevents, -, hregistered⟩ :=
    renderFrame_fails stumbling 2 5 _ _ _ hout
  have hall : es ++ fs = [.began 0 5, .answered 0 .finish, .finishing 0, .finished 0, .began 1 5,
      .answered 1 .drop, .began 2 5, .cancelled 0, .answered 2 (.unknown "halt")] := by
    rw [← List.reverse_reverse (es ++ fs), ← List.append_nil (es ++ fs).reverse]
    exact congrArg List.reverse hevents.symm
  rw [hall] at hregistered
  obtain ⟨hgone, hforgets, -⟩ := hregistered 0 (by decide)
  obtain ⟨hstays, -, hrepeats⟩ := hregistered 1 (by decide)
  have hnot := hgone.mpr (by decide)
  have hmem := not_not.mp (mt hstays.mp (by decide))
  exact ⟨_, hout, by decide, by decide, hnot, hforgets hnot, hmem, hrepeats hmem⟩

/-- The first animation ends and is finished before the second one fails, and yet it is still
registered, and the next frame finishes it once more. -/
theorem finished_twice :
    let halting : Cast Nat :=
      ⟨fun a _ => if a = 0 then .answer .finish else .answer (.unknown "halt"),
        fun _ => .answer ()⟩
    ∃ t u : Chronicle Nat,
      ((halting.animator 2).renderFrame 5).outcome (.start [0, 1]) =
          (.error (.unknownAction "halt"), t) ∧
        .finished 0 ∈ t.events ∧ 0 ∈ t.now ∧
        ((halting.animator 2).renderFrame 6).outcome t = (.error (.unknownAction "halt"), u) ∧
        .began 0 6 ∈ u.events ∧ u.events.count (.finished 0) = 2 := by
  refine ⟨_, _, rfl, ?_, ?_, rfl, ?_, ?_⟩ <;> decide

end

end DebugDesk.AnimationHistory
