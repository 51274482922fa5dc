import DebugDesk.Proofs.Camera.Pinching
import DebugDesk.Proofs.Camera.Moving

/-!
# The mark of a camera

Where equal coordinates are the same, as exact ones are, a camera is marked by exactly those calls
that change what is visible: its position, its zoom, or the size of the viewport. So the mark tells,
when it is consumed, whether there was such a call since it was consumed before.
-/
namespace DebugDesk

/-- A call of a camera, or its mark is consumed. -/
inductive CameraUse (α : Type) where
  | called (call : CameraCall α)
  | consumed

def CameraUse.apply {α : Type} [RootScalar α] (c : Camera α) :
    CameraUse α → Except Fault (Camera α)
  | called call => call.apply c
  | consumed => .ok c.consumeDirty.2

namespace Camera

section

variable {α : Type} {c d e : Camera α}

def visible (c : Camera α) : α × α × α × α × α := (c.x, c.y, c.zoom, c.width, c.height)

/-- A call marks a camera if it changes what is visible, and else leaves the mark as it is. -/
structure Marks (c d : Camera α) : Prop where
  changed : d.visible ≠ c.visible → d.dirty = true
  same : d.visible = c.visible → d.dirty = c.dirty

theorem Marks.refl (c : Camera α) : c.Marks c := ⟨fun h => absurd rfl h, fun _ => rfl⟩

theorem Marks.after (h : d.Marks e) (hsame : d.visible = c.visible) (hmark : d.dirty = c.dirty) :
    c.Marks e :=
  ⟨fun hne => h.changed (hsame ▸ hne), fun heq => (h.same (hsame ▸ heq)).trans hmark⟩

theorem Marks.before (h : c.Marks d) (hsame : e.visible = d.visible) (hmark : e.dirty = d.dirty) :
    c.Marks e :=
  ⟨fun hne => hmark.trans (h.changed (hsame ▸ hne)),
    fun heq => hmark.trans (h.same (hsame ▸ heq))⟩

theorem Marks.of_ne (hne : d.visible ≠ c.visible) (hmark : d.dirty = true) : c.Marks d :=
  ⟨fun _ => hmark, fun heq => absurd heq hne⟩

/-- Whether a camera is marked after a call depends on the mark before and on what it changes. -/
theorem Marks.dirty_iff (h : c.Marks d) :
    d.dirty = true ↔ c.dirty = true ∨ d.visible ≠ c.visible := by
  by_cases hsame : d.visible = c.visible
  · simp [hsame, h.same hsame]
  · simp [hsame, h.changed hsame]

end

section

variable {α : Type} [Scalar α] [LawfulBEq α] {c d : Camera α}

theorem marks_setSize (c : Camera α) (width height : α) : c.Marks (c.setSize width height) := by
  unfold setSize
  split
  · exact .refl c
  next hne =>
    refine .of_ne (fun h => hne ?_) rfl
    simp only [visible, Prod.mk.injEq] at h
    simp [h.2.2.2.1, h.2.2.2.2]

theorem marks_setPosition (c : Camera α) (x y : α) : c.Marks (c.setPosition x y) := by
  unfold setPosition
  split
  · exact .refl c
  next hne =>
    refine .of_ne (fun h => hne ?_) rfl
    simp only [visible, Prod.mk.injEq] at h
    simp [h.1, h.2.1]

theorem marks_zoomTo (c : Camera α) (zoom : α) : c.Marks (c.zoomTo zoom) := by
  unfold zoomTo
  dsimp only
  split
  · exact .refl c
  next hne =>
    refine .of_ne (fun h => hne ?_) rfl
    simp only [visible, Prod.mk.injEq] at h
    exact beq_iff_eq.mpr h.2.2.1

theorem marks_setZoom (c : Camera α) (zoom : α) : c.Marks (c.setZoom zoom) :=
  (c.marks_zoomTo zoom).before rfl rfl

theorem marks_zoomToFit {width height margin : α} (h : c.zoomToFit width height margin = .ok d) :
    c.Marks d := by
  unfold zoomToFit at h
  split at h
  · cases h
    exact .refl c
  · obtain ⟨across, -, h⟩ := Effect.bind_eq_ok h
    obtain ⟨down, -, h⟩ := Effect.bind_eq_ok h
    cases h
    exact c.marks_setZoom _

theorem marks_wheel (c : Camera α) (delta : α) : c.Marks (c.wheel delta) := by
  unfold wheel
  split
  · exact .refl c
  · exact (marks_zoomTo { c with trackpad := !isWhole delta } _).after rfl rfl

omit [LawfulBEq α] in
/-- A press changes where the camera is dragged from, which is not visible. -/
theorem marks_pointerDown {p : Point α} (h : c.pointerDown p = .ok d) : c.Marks d := by
  unfold pointerDown at h
  split at h
  · cases h
    exact .refl c
  · obtain ⟨x, -, h⟩ := Effect.bind_eq_ok h
    obtain ⟨y, -, h⟩ := Effect.bind_eq_ok h
    cases h
    exact (Marks.refl c).before rfl rfl

/-- A move of the pointer tells whether the camera moves. -/
theorem marks_pointerMove {p : Point α} {moved : Bool} (h : c.pointerMove p = .ok (moved, d)) :
    c.Marks d ∧ (moved = true ↔ (d.x, d.y) ≠ (c.x, c.y)) := by
  unfold pointerMove at h
  split at h
  · cases h
    exact ⟨.refl c, by simp⟩
  · obtain ⟨x, -, h⟩ := Effect.bind_eq_ok h
    obtain ⟨y, -, h⟩ := Effect.bind_eq_ok h
    dsimp only at h
    split at h
    · cases h
      exact ⟨.refl c, by simp⟩
    next hne =>
      cases h
      have hmoved : (x - c.origin.x, y - c.origin.y) ≠ (c.x, c.y) := by
        simpa [Prod.mk.injEq] using hne
      refine ⟨.of_ne (fun h => hmoved ?_) rfl, by simpa using hmoved⟩
      simp only [visible, Prod.mk.injEq] at h
      simp [h.1, h.2.1]

omit [Scalar α] [LawfulBEq α] in
theorem marks_touchEnd (c : Camera α) : c.Marks c.touchEnd := by
  unfold touchEnd
  split <;> exact (Marks.refl c).before rfl rfl

end

section

variable {α : Type} [RootScalar α] [LawfulBEq α] {c d : Camera α}

theorem marks_touchMove {touches : List (Point α)} (h : c.touchMove touches = .ok d) :
    c.Marks d := by
  unfold touchMove at h
  split at h
  · dsimp only at h
    split at h
    · cases h
      exact (Marks.refl c).before rfl rfl
    · obtain ⟨ratio, -, h⟩ := Effect.bind_eq_ok h
      obtain ⟨root, -, h⟩ := Effect.bind_eq_ok h
      cases h
      exact c.marks_zoomTo _
  · cases h
    exact .refl c

theorem marks_call {call : CameraCall α} (h : call.apply c = .ok d) : c.Marks d := by
  cases call with
  | setSize width height => exact Except.ok.inj h ▸ c.marks_setSize width height
  | setPosition x y => exact Except.ok.inj h ▸ c.marks_setPosition x y
  | recenter p => exact Except.ok.inj h ▸ c.marks_setPosition _ _
  | setZoom zoom => exact Except.ok.inj h ▸ c.marks_setZoom zoom
  | zoomToFit width height margin => exact marks_zoomToFit h
  | pointerDown p => exact marks_pointerDown h
  | pointerMove p =>
    rcases hmove : c.pointerMove p with fault | ⟨moved, e⟩
    · simp [CameraCall.apply, hmove] at h
    · obtain rfl : e = d := by simpa [CameraCall.apply, hmove] using h
      exact (marks_pointerMove hmove).1
  | pointerUp => exact Except.ok.inj h ▸ (Marks.refl c).before rfl rfl
  | wheel delta => exact Except.ok.inj h ▸ c.marks_wheel delta
  | touchMove touches => exact marks_touchMove h
  | touchEnd => exact Except.ok.inj h ▸ c.marks_touchEnd

def useAll {α : Type} [RootScalar α] : Camera α → List (CameraUse α) → Except Fault (Camera α)
  | c, [] => .ok c
  | c, use :: uses => use.apply c >>= fun d => d.useAll uses

def Changes (c : Camera α) (calls : List (CameraCall α)) : Prop :=
  ∃ before call after d e, calls = before ++ call :: after ∧ c.callAll before = .ok d ∧
    call.apply d = .ok e ∧ e.visible ≠ d.visible

omit [LawfulBEq α] in
theorem not_changes_nil (c : Camera α) : ¬c.Changes [] := by
  rintro ⟨before, call, after, d, e, hsplit, -⟩
  simp at hsplit

omit [LawfulBEq α] in
theorem changes_cons {call : CameraCall α} {calls : List (CameraCall α)}
    (h : call.apply c = .ok d) :
    c.Changes (call :: calls) ↔ d.visible ≠ c.visible ∨ d.Changes calls := by
  constructor
  · rintro ⟨before, other, after, e, f, hsplit, hbefore, hother, hne⟩
    rcases before with _ | ⟨first, before⟩
    · obtain ⟨rfl, rfl⟩ := List.cons.inj hsplit
      cases hbefore
      cases h.symm.trans hother
      exact .inl hne
    · obtain ⟨rfl, rfl⟩ := List.cons.inj hsplit
      rw [callAll, h, Effect.ok_bind] at hbefore
      exact .inr ⟨before, other, after, e, f, rfl, hbefore, hother, hne⟩
  · rintro (hne | ⟨before, other, after, e, f, rfl, hbefore, hother, hne⟩)
    · exact ⟨[], call, calls, c, d, rfl, rfl, h, hne⟩
    · refine ⟨call :: before, other, after, e, f, rfl, ?_, hother, hne⟩
      rw [callAll, h, Effect.ok_bind, hbefore]

/-- After some calls a camera is marked if it was before, or if one of them changed what is
visible. -/
theorem dirty_callAll {calls : List (CameraCall α)} (h : c.callAll calls = .ok d) :
    d.dirty = true ↔ c.dirty = true ∨ c.Changes calls := by
  induction calls generalizing c with
  | nil =>
    cases h
    simp [not_changes_nil]
  | cons call calls ih =>
    obtain ⟨e, he, hrest⟩ := Effect.bind_eq_ok h
    rw [ih hrest, (marks_call he).dirty_iff, changes_cons he, or_assoc]

theorem le_refl_of_lawful (a : α) : a ≤ a := ((Scalar.beq_iff a a).mp (beq_self_eq_true a)).1

/-- A camera that could be made has limits in order, above zero. -/
theorem bounded_of_make {width height : α} {settings : CameraSettings α}
    (made : make width height settings = .ok c) :
    0.0 < settings.minZoom ∧ settings.minZoom ≤ settings.maxZoom ∧
      c.Bounded settings.minZoom settings.maxZoom := by
  have hlimits : ¬settings.minZoom ≤ 0.0 ∧ ¬settings.maxZoom < settings.minZoom := by
    unfold make at made
    split at made
    · cases made
    next hlimits => simpa using hlimits
  have hmin : 0.0 < settings.minZoom :=
    Scalar.lt_of_not_le (le_refl_of_lawful _) (le_refl_of_lawful _) hlimits.1
  have hmax : settings.minZoom ≤ settings.maxZoom :=
    Scalar.le_of_not_lt (le_refl_of_lawful _) (le_refl_of_lawful _) hlimits.2
  obtain ⟨d, hd, hbounded⟩ := bounded_make width height hmin hmax
  cases made.symm.trans hd
  exact ⟨hmin, hmax, hbounded⟩

omit [LawfulBEq α] in
theorem Bounded.useAll [SignedScalar α] {lo hi : α} (h : c.Bounded lo hi) (hlo : 0.0 < lo)
    (hle : lo ≤ hi) (uses : List (CameraUse α)) :
    ∃ d, c.useAll uses = .ok d ∧ d.Bounded lo hi := by
  induction uses generalizing c with
  | nil => exact ⟨c, rfl, h⟩
  | cons use uses ih =>
    obtain ⟨d, hd, hbounded⟩ : ∃ d, use.apply c = .ok d ∧ d.Bounded lo hi := by
      cases use with
      | called call => exact h.call hlo hle call
      | consumed => exact ⟨_, rfl, h.minZoom, h.maxZoom, h.zoom, h.lastZoom, h.baseline⟩
    rw [Camera.useAll, hd, Effect.ok_bind]
    exact ih hbounded

/-- However a camera was used, no call fails, and a call marks it exactly if it changes what is
visible, and else leaves the mark as it is; a move of the pointer tells whether the camera moved.
When the mark is consumed it tells whether some call since it was consumed before, whenever that
was, changed what is visible; and the first time, that the camera is new. -/
theorem marked_by_changes [SignedScalar α] {width height : α} {settings : CameraSettings α}
    (made : make width height settings = .ok c) (uses : List (CameraUse α)) :
    (∀ calls, ∃ d, c.callAll calls = .ok d ∧ d.consumeDirty.1 = true) ∧
    ∃ d, c.useAll uses = .ok d ∧
      (∀ call : CameraCall α, ∃ e, call.apply d = .ok e ∧
        (e.visible ≠ d.visible → e.dirty = true) ∧ (e.visible = d.visible → e.dirty = d.dirty)) ∧
      (∀ p, ∃ moved e, d.pointerMove p = .ok (moved, e) ∧
        (moved = true ↔ (e.x, e.y) ≠ (d.x, d.y))) ∧
      ∀ calls, ∃ e, d.consumeDirty.2.callAll calls = .ok e ∧
        (e.consumeDirty.1 = true ↔ d.consumeDirty.2.Changes calls) := by
  obtain ⟨hlo, hle, hbounded⟩ := bounded_of_make made
  have hnew : c.dirty = true := by
    unfold make at made
    split at made
    · cases made
    · cases made
      rfl
  obtain ⟨d, hd, hused⟩ := hbounded.useAll hlo hle uses
  have hconsumed : d.consumeDirty.2.Bounded settings.minZoom settings.maxZoom :=
    ⟨hused.minZoom, hused.maxZoom, hused.zoom, hused.lastZoom, hused.baseline⟩
  refine ⟨fun calls => ?_, d, hd, fun call => ?_, fun p => ?_, fun calls => ?_⟩
  · obtain ⟨e, he, -⟩ := hbounded.callAll hlo hle calls
    exact ⟨e, he, (dirty_callAll he).mpr (.inl hnew)⟩
  · obtain ⟨e, he, -⟩ := hused.call hlo hle call
    exact ⟨e, he, (marks_call he).changed, (marks_call he).same⟩
  · obtain ⟨moved, e, he, -⟩ := hused.pointerMove hlo p
    exact ⟨moved, e, he, (marks_pointerMove he).2⟩
  · obtain ⟨e, he, -⟩ := hconsumed.callAll hlo hle calls
    refine ⟨e, he, ?_⟩
    change e.dirty = true ↔ _
    simp [dirty_callAll he, consumeDirty]

end

/-- Two fingers move apart until the zoom is at its limit. -/
def widened : List (CameraUse ℚ) :=
  [.called (.touchMove [⟨0, 0⟩, ⟨10, 0⟩]), .called (.touchMove [⟨0, 0⟩, ⟨100, 0⟩])]

/-- Fingers that come a little closer leave the zoom at its limit, and no mark. -/
def closer : List (CameraCall ℚ) := [.touchMove [⟨0, 0⟩, ⟨90, 0⟩], .pointerUp]

def together : List (CameraCall ℚ) := [.touchMove [⟨0, 0⟩, ⟨20, 0⟩]]

theorem widened_marked_by_changes :
    let _ := ExactRoots.ofSquares
    ∃ c d e f : Camera ℚ, make 100 100 .standard = .ok c ∧ c.useAll widened = .ok d ∧
      d.consumeDirty.2.callAll closer = .ok e ∧
      (e.consumeDirty.1 = true ↔ d.consumeDirty.2.Changes closer) ∧ e.consumeDirty.1 = false ∧
      d.consumeDirty.2.callAll together = .ok f ∧
      (f.consumeDirty.1 = true ↔ d.consumeDirty.2.Changes together) ∧ f.consumeDirty.1 = true := by
  intro _
  have hmake : Camera.make (α := ℚ) 100 100 .standard = .ok _ := if_neg (by decide +kernel)
  obtain ⟨-, d, hd, -, -, hconsume⟩ := marked_by_changes hmake widened
  obtain ⟨e, he, hcloser⟩ := hconsume closer
  obtain ⟨f, hf, htogether⟩ := hconsume together
  generalize hc : Camera.mk (α := ℚ) .. = c at hmake hd
  have hmark (calls : List (CameraCall ℚ)) (mark : Bool) (g : Camera ℚ)
      (hg : d.consumeDirty.2.callAll calls = .ok g)
      (h : (c.useAll widened >>= fun d => d.consumeDirty.2.callAll calls).toOption.map dirty =
        some mark) : g.consumeDirty.1 = mark := by
    rw [hd, Effect.ok_bind, hg] at h
    exact Option.some.inj h
  subst hc
  exact ⟨_, d, e, f, hmake, hd, he, hcloser, hmark _ _ _ he (by decide +kernel), hf, htogether,
    hmark _ _ _ hf (by decide +kernel)⟩

end Camera

end DebugDesk
