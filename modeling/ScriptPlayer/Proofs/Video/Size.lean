import ScriptPlayer.Proofs.Player.Definitions
import ScriptPlayer.Proofs.Video.Handoff

/-! The size of the frames. A render takes over whatever size its source reports as long as a side
of the one that the video has is zero, so a video tells the size that was seen last, and a size that
is locked is kept. What a render answers depends on that size, and an unknown one is a size like any
other there. -/
namespace ScriptPlayer

open World VideoEvent

def FrameSource.dimensions (f : FrameSource) : UInt32 × UInt32 := (f.width, f.height)

def VideoState.dimensions (v : VideoState) : UInt32 × UInt32 := (v.width, v.height)

namespace VideoEvent

def see (size : UInt32 × UInt32) : VideoEvent → UInt32 × UInt32
  | rendered (some shot) _ => shot.frame.dimensions
  | _ => size

/-- The size that was seen last, zero by zero if there was none. -/
def sizeSeen (l : List VideoEvent) : UInt32 × UInt32 := l.foldl see (0, 0)

theorem sizeSeen_snoc (l : List VideoEvent) (e : VideoEvent) :
    sizeSeen (l ++ [e]) = e.see (sizeSeen l) :=
  List.foldl_append

end VideoEvent

namespace Rendered

variable {r : Option Reel} {v v' : VideoState} {screen screen' : Screen} {seen : Option Shot}
  {outcome : RenderOutcome} {result : EStateM.Result Fatal (VideoState × Screen) RenderOutcome}

theorem dimensions_eq (h : Rendered r v screen seen (.ok outcome (v', screen')))
    (hv : v.Holds screen.pixels r) : v'.dimensions = (rendered seen outcome).see v.dimensions := by
  cases h with
  | unattached | unsized | opened => rfl
  | presented hr hf =>
    subst hr
    exact Prod.ext (hv.width.trans hf.1) (hv.height.trans hf.2)

theorem notReady_iff (h : Rendered r v screen seen result) :
    (∃ left, result = .ok .notReady left) ↔
      ∀ shot, seen = some shot → ¬shot.frame.HasSize ∧ r = none := by
  cases h with
  | unattached => simp
  | unsized hr hf => simp [hr, hf]
  | oversized hr hf | overlong hr hf | opened hr hf => simp [hf]
  | resized hr | presented hr => simp [hr]

end Rendered

/-! What renders answer -/

/-- What a render answers after some events. -/
structure RenderAnswers (o : ObjectId) (l : List VideoEvent) (w : World) (v : VideoState) :
    Prop where
  video : w.video? o = some v
  locked : ∀ seen interval, rendered seen (.started interval) ∈ l →
    ∃ shot, seen = some shot ∧ shot.frame.HasSize ∧ v.dimensions = shot.frame.dimensions
  /-- it is not ready when nothing is attached, and for an unknown size as long as none is locked -/
  notReady_iff : ∀ s, s.world = w → ((∃ s', Run.render o s = .ok .notReady s') ↔
    ∀ shot, w.shot? o = some shot → ¬shot.frame.HasSize ∧ ∀ e ∈ l, ¬e.hasStarted)
  /-- it fails for a first frame that is too large or too long, and for any size that is not the
  locked one -/
  fails_iff : ∀ s halt s', s.world = w → (Run.render o s = .error halt s' ↔ ∃ shot w',
    w.shot? o = some shot ∧ RenderFailure o l w v shot.frame halt w' ∧ s' = { s with world := w' })

namespace VideoHistory

variable {o : ObjectId} {l : List VideoEvent} {w : World} {v : VideoState}

theorem locked (h : VideoHistory o l w) (hv : w.video? o = some v) {seen : Option Shot}
    {interval : Nanos} (hl : rendered seen (.started interval) ∈ l) :
    ∃ shot, seen = some shot ∧ shot.frame.HasSize ∧ v.dimensions = shot.frame.dimensions := by
  have hp := h.plays_of_video hv
  obtain ⟨shot, r, hseen, hr, rfl⟩ := h.exists_reel hl
  rw [hr] at hp
  exact ⟨_, hseen, hp.holds.hasSize, Prod.ext hp.holds.width hp.holds.height⟩

theorem notReady_iff (h : VideoHistory o l w) (hv : w.video? o = some v) {s : State}
    (hs : s.world = w) : (∃ s', Run.render o s = .ok .notReady s') ↔
      ∀ shot, w.shot? o = some shot → ¬shot.frame.HasSize ∧ ∀ e ∈ l, ¬e.hasStarted := by
  obtain ⟨result, hrendered, hrun⟩ := h.exists_rendered hv hs
  rw [h.not_hasStarted_iff, ← hrendered.notReady_iff, hrun]
  cases result <;> simp [Run.rendering]

theorem fails_iff (h : VideoHistory o l w) (hv : w.video? o = some v) {s s' : State} {halt : Halt}
    (hs : s.world = w) : Run.render o s = .error halt s' ↔ ∃ shot w',
      w.shot? o = some shot ∧ RenderFailure o l w v shot.frame halt w' ∧
        s' = { s with world := w' } := by
  constructor
  · exact h.failure_of_render hv hs
  · rintro ⟨shot, w', hshot, hfailure, rfl⟩
    exact h.render_of_failure hv hs hshot hfailure

theorem renderAnswers (h : VideoHistory o l w) : ∃ v, RenderAnswers o l w v := by
  obtain ⟨v, hp⟩ := h.plays
  exact ⟨v, hp.video, fun _ _ hl => h.locked hp.video hl,
    fun _ hs => h.notReady_iff hp.video hs, fun _ _ _ hs => h.fails_iff hp.video hs⟩

end VideoHistory

def unknownStream : List VideoCue :=
  [.render, .attach (studio.place 0), .render,
    .change 1 { FrameSource.filled 2 with width := 0, height := 0 }, .attach (studio.place 1)]

theorem renderAnswers_unknownStream : ∃ l w, VideoHistory 23 l w ∧
    l.filterMap outcome? = [.notReady, .started 41666667] ∧ ∃ v, RenderAnswers 23 l w v := by
  obtain ⟨l, w, h, houtcomes⟩ := exists_of_playVideo unknownStream
    (fun l _ => l.filterMap outcome? == [.notReady, .started 41666667]) (by decide +kernel)
  exact ⟨l, w, h.history, eq_of_beq houtcomes, VideoHistory.renderAnswers h.history⟩

/-- The stream that is attached reports no size, but the render does not answer that it is not
ready. -/
theorem aborts_unknownStream : ∃ l w shot s, VideoHistory 23 l w ∧ w.shot? 23 = some shot ∧
    shot.source = 1 ∧ shot.frame.dimensions = (0, 0) ∧
    Run.render 23 ⟨w, [], 0, []⟩ = .error (.abort (.frameSizeChanged 2 1 0 0)) s := by
  obtain ⟨l, w, h, hseen⟩ := exists_of_playVideo unknownStream
    (fun _ w => (w.shot? 23).map (fun shot => (shot.source, shot.frame.dimensions)) ==
        some (1, 0, 0) &&
      Run.aborts (Run.render 23) ⟨w, [], 0, []⟩ (.frameSizeChanged 2 1 0 0))
    (by decide +kernel)
  simp only [Bool.and_eq_true, beq_iff_eq] at hseen
  obtain ⟨hshot, haborts⟩ := hseen
  obtain ⟨shot, hshot, hsize⟩ := Option.map_eq_some_iff.1 hshot
  obtain ⟨s, hrun⟩ := Run.exists_of_aborts haborts
  exact ⟨l, w, shot, s, h.history, hshot, congrArg Prod.fst hsize, congrArg Prod.snd hsize, hrun⟩

/-! What the video tells -/

namespace Run

variable {s : State} {o : ObjectId} {v : VideoState}

theorem videoWidth_run (hv : s.world.video? o = some v) (call : Caller) (args : List Value) :
    builtin call .videoWidth o args s = .ok (.int v.width.toInt32) s :=
  bind_of_ok (videoOf_run hv) fun v => pure (Value.int v.width.toInt32)

theorem videoHeight_run (hv : s.world.video? o = some v) (call : Caller) (args : List Value) :
    builtin call .videoHeight o args s = .ok (.int v.height.toInt32) s :=
  bind_of_ok (videoOf_run hv) fun v => pure (Value.int v.height.toInt32)

end Run

/-- The size that a video and its getters tell after some events. -/
structure TellsSize (o : ObjectId) (l : List VideoEvent) (w : World) (v : VideoState) : Prop where
  video : w.video? o = some v
  seen : v.dimensions = sizeSeen l
  /-- before a render has started, a side of it is zero -/
  unknown : (∀ e ∈ l, ¬e.hasStarted) → v.width = 0 ∨ v.height = 0
  /-- and since then it is the locked one -/
  locked : ∀ seen interval, rendered seen (.started interval) ∈ l →
    ∃ shot, seen = some shot ∧ shot.frame.HasSize ∧ v.dimensions = shot.frame.dimensions
  width : ∀ s call args, s.world = w →
    Run.builtin call .videoWidth o args s = .ok (.int v.width.toInt32) s
  height : ∀ s call args, s.world = w →
    Run.builtin call .videoHeight o args s = .ok (.int v.height.toInt32) s

theorem VideoStep.dimensions_eq {o : ObjectId} {w w' : World} {v : VideoState} {r : Option Reel}
    {e : VideoEvent} (h : VideoStep o w e w') (hp : w.Plays o v r) :
    ∃ v', w'.video? o = some v' ∧ v'.dimensions = e.see v.dimensions := by
  cases e with
  | elsewhere =>
    cases h with
    | elsewhere hk => exact ⟨v, (hk.plays hp).video, rfl⟩
  | attached source => exact ⟨_, (h.attach_plays hp).1.video, rfl⟩
  | changed source =>
    cases h with
    | change => exact ⟨v, hp.video, rfl⟩
  | ticked shot copied => exact ⟨v, (h.tick_plays hp).2.1.video, rfl⟩
  | rendered seen outcome =>
    obtain ⟨v', hrendered, -, hp', -⟩ := h.render_plays hp
    exact ⟨v', hp'.video, hrendered.dimensions_eq hp.holds⟩

namespace VideoSteps

variable {o : ObjectId} {l : List VideoEvent} {w₀ w : World} {v₀ : VideoState}

theorem history (h : VideoSteps o w₀ l w) (h₀ : w₀.Unopened o v₀) : VideoHistory o l w :=
  (VideoHistory.fresh h₀).append h

theorem exists_of_step {P : List VideoEvent → VideoState → Prop} (h : VideoSteps o w₀ l w)
    (h₀ : w₀.Unopened o v₀) (hnew : P [] v₀)
    (hstep : ∀ {k e w₁ w₂ v r}, VideoStep o w₁ e w₂ → w₁.Plays o v r → P k v →
      ∃ v', w₂.video? o = some v' ∧ P (k ++ [e]) v') : ∃ v, w.video? o = some v ∧ P l v := by
  induction h with
  | refl => exact ⟨v₀, h₀.video, hnew⟩
  | snoc h hs ih =>
    obtain ⟨v, hv, hP⟩ := ih
    have hp := (h.history h₀).plays_of_video hv
    exact hstep hs hp hP

theorem exists_dimensions_eq (h : VideoSteps o w₀ l w) (h₀ : w₀.Unopened o v₀)
    (hblank : v₀.dimensions = (0, 0)) :
    ∃ v, w.video? o = some v ∧ v.dimensions = sizeSeen l := by
  refine h.exists_of_step (P := fun k v => v.dimensions = sizeSeen k) h₀ hblank ?_
  intro k e w₁ w₂ v r hs hp hsize
  obtain ⟨v', hv', hsize'⟩ := hs.dimensions_eq hp
  exact ⟨v', hv', by rw [hsize', hsize, sizeSeen_snoc]⟩

theorem tellsSize (h₀ : w₀.Unopened o v₀) (hblank : v₀.dimensions = (0, 0))
    (h : VideoSteps o w₀ l w) : ∃ v, TellsSize o l w v := by
  have hhistory := h.history h₀
  obtain ⟨v, hv, hsize⟩ := h.exists_dimensions_eq h₀ hblank
  refine ⟨v, hv, hsize, fun hl => ?_, fun _ _ hl => hhistory.locked hv hl,
    fun s call args hs => ?_, fun s call args hs => ?_⟩
  · have hp := hhistory.plays_of_video hv
    rw [hhistory.not_hasStarted_iff.1 hl] at hp
    exact hp.holds.unknown
  · subst hs
    exact Run.videoWidth_run hv call args
  · subst hs
    exact Run.videoHeight_run hv call args

end VideoSteps

theorem exists_blank_studio : ∃ v, studio.Unopened 23 v ∧ v.dimensions = (0, 0) := by
  obtain ⟨v, hv, -⟩ := exists_unopened_studio
  have hblank : (studio.video? 23).map VideoState.dimensions = some (0, 0) := by decide +kernel
  rw [hv.video] at hblank
  exact ⟨v, hv, Option.some.inj hblank⟩

theorem tellsSize_halves : ∃ v₀ l w, studio.Unopened 23 v₀ ∧ v₀.dimensions = (0, 0) ∧
    VideoSteps 23 studio l w ∧
    l.filterMap outcome? = [.notReady, .notReady, .started 41666667] ∧ ∃ v, TellsSize 23 l w v := by
  obtain ⟨v₀, h₀, hblank⟩ := exists_blank_studio
  obtain ⟨l, w, h, houtcomes⟩ := exists_steps_of_playVideo
    [.attach (studio.place 0), .change 0 { FrameSource.filled 1 with height := 0 }, .render,
      .change 0 { FrameSource.filled 1 with width := 0 }, .render, .change 0 (.filled 1), .render]
    (fun l _ => l.filterMap outcome? == [.notReady, .notReady, .started 41666667])
    (by decide +kernel)
  exact ⟨v₀, l, w, h₀, hblank, h, eq_of_beq houtcomes, VideoSteps.tellsSize h₀ hblank h⟩

/-- No render has started, but the video tells the width of a stream whose height is unknown. -/
theorem tells_half : ∃ v₀ l w v, studio.Unopened 23 v₀ ∧ v₀.dimensions = (0, 0) ∧
    VideoSteps 23 studio l w ∧ (∀ e ∈ l, ¬e.hasStarted) ∧ w.video? 23 = some v ∧ v.width = 2 ∧
    ∀ call args, Run.builtin call .videoWidth 23 args ⟨w, [], 0, []⟩ =
      .ok (.int 2) ⟨w, [], 0, []⟩ := by
  obtain ⟨v₀, h₀, hblank⟩ := exists_blank_studio
  obtain ⟨l, w, h, hseen⟩ := exists_steps_of_playVideo
    [.attach (studio.place 0), .change 0 { FrameSource.filled 1 with height := 0 }, .render]
    (fun l w => l.all (!·.hasStarted) && (w.video? 23).map VideoState.width == some 2)
    (by decide +kernel)
  simp only [Bool.and_eq_true, beq_iff_eq, List.all_eq_true, Bool.not_eq_true'] at hseen
  obtain ⟨hstarted, hwidth⟩ := hseen
  obtain ⟨v, hv, hwidth⟩ := Option.map_eq_some_iff.1 hwidth
  refine ⟨v₀, l, w, v, h₀, hblank, h, fun e he => ?_, hv, hwidth, fun call args => ?_⟩
  · rw [hstarted e he]
    exact Bool.false_ne_true
  · rw [Run.videoWidth_run hv, hwidth]
    rfl

end ScriptPlayer
