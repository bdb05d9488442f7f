import ScriptPlayer.Options.Basic
import ScriptPlayer.Proofs.Number.Reciprocal
import ScriptPlayer.Proofs.Player.EventClass
import ScriptPlayer.Proofs.Video.Size

/-! The period of the frames. The render that locks a size answers with the period of the rate that
the stream reports, or of the configured one if it reports none. A player takes any finite positive
rate, but the period of a very low one is too long for a span. -/
namespace ScriptPlayer

open World VideoEvent

namespace Options

variable {options : Options}

theorem validate_eq_ok_iff : options.validate = .ok () ↔ options.fallbackRate.IsRate := by
  rw [← Binary64.isRate_iff]
  unfold validate
  split
  · rename_i hrate
    simp [hrate]
  · rename_i hrate
    simp [hrate]

def rateOf (options : Options) (f : FrameSource) : Binary64 :=
  if f.rate.isFinite && (Binary64.zero false).lt f.rate then f.rate else options.fallbackRate

theorem isRate_rateOf (h : options.validate = .ok ()) (f : FrameSource) :
    (options.rateOf f).IsRate := by
  unfold rateOf
  split
  · rename_i hrate
    exact Binary64.isRate_iff.1 hrate
  · exact validate_eq_ok_iff.1 h

end Options

theorem VideoState.frameRate_eq {options : Options} {v : VideoState}
    (h : v.fallbackRate = options.fallbackRate) (f : FrameSource) :
    v.frameRate f = options.rateOf f := by
  unfold frameRate Options.rateOf
  rw [h]

/-! The configured rate reaches the videos -/

namespace World

variable {w : World} {options : Options}

/-- A world that a player with some options can be in: it has kept what the set-up has settled. -/
def IsOf (w : World) (options : Options) : Prop :=
  ∃ threads, (World.ofOptions options threads).SameStaff w

theorem sameStaff_withPlaces (w : World) (places : Nat) : w.SameStaff (w.withPlaces places) :=
  ⟨rfl, rfl, rfl⟩

theorem isOf_withPlaces (options : Options) (threads places : Nat) :
    ((World.ofOptions options threads).withPlaces places).IsOf options :=
  ⟨threads, sameStaff_withPlaces _ places⟩

theorem IsOf.fallbackRate (h : w.IsOf options) : w.fallbackRate = options.fallbackRate := by
  obtain ⟨threads, hsame⟩ := h
  rw [hsame.fallbackRate, fallbackRate_ofOptions]

theorem IsOf.validate (h : w.IsOf options) (hrate : w.fallbackRate.IsRate) :
    options.validate = .ok () :=
  Options.validate_eq_ok_iff.2 (h.fallbackRate ▸ hrate)

theorem IsOf.sameStaff {w' : World} (h : w.IsOf options) (hsame : w.SameStaff w') :
    w'.IsOf options := by
  obtain ⟨threads, hsetup⟩ := h
  exact ⟨threads, hsetup.trans hsame⟩

theorem IsOf.afterRun_embed {s : State} (h : s.world.IsOf options) (depth : Nat) (p : Session) :
    (s.afterRun (Run.embed depth p)).world.IsOf options :=
  h.sameStaff (Run.keepsStaff_embed depth p s)

end World

/-- Whatever an embedder does, a player stays one with its options. -/
theorem State.Reachable.isOf {s : State} (h : s.Reachable) :
    s.world.runtime = none ∨ ∃ options, s.world.IsOf options := by
  induction h with
  | core places budget moves =>
    have hnone : World.initial.runtime = none := by decide +kernel
    exact .inl hnone
  | player options threads places budget moves =>
    exact .inr ⟨options, isOf_withPlaces options threads places⟩
  | @embed s h depth p budget moves ih =>
    rcases ih with hnone | ⟨options, hw⟩
    · exact .inl ((Run.keepsStaff_embed depth p s).runtime.trans hnone)
    · exact .inr ⟨options, hw.afterRun_embed depth p⟩

theorem World.Unopened.initVideo_eq {o : ObjectId} {v : VideoState} {s : State}
    (h : s.world.Unopened o v) (args : List Value) :
    Run.initVideo o args s = .ok () (s.afterRun (Run.initVideo o args)) := by
  obtain ⟨f, -, hrun⟩ := Run.initVideo_run h.sound h.video args
  unfold State.afterRun
  rw [hrun]

theorem World.Unopened.initVideo_rate {o : ObjectId} {v : VideoState} {s s' : State}
    {args : List Value} (h : s.world.Unopened o v) (hrun : Run.initVideo o args s = .ok () s') :
    ∃ v', s'.world.Unopened o v' ∧ v'.fallbackRate = s.world.fallbackRate := by
  obtain ⟨v', hv', -⟩ := h.initVideo hrun
  obtain ⟨f, -, heq⟩ := Run.initVideo_run h.sound h.video args
  have hvideo := h.sound.video?_putVideo h.video { v with fallbackRate := s.world.fallbackRate }
  rw [hrun] at heq
  obtain rfl := (EStateM.Result.ok.inj heq).2
  obtain rfl := Option.some.inj (hvideo.symm.trans hv'.video)
  exact ⟨_, hv', rfl⟩

theorem Rendered.fallbackRate_eq {r : Option Reel} {v v' : VideoState} {screen screen' : Screen}
    {seen : Option Shot} {outcome : RenderOutcome}
    (h : Rendered r v screen seen (.ok outcome (v', screen'))) :
    v'.fallbackRate = v.fallbackRate := by
  cases h <;> rfl

theorem VideoStep.fallbackRate_eq {o : ObjectId} {w w' : World} {v : VideoState} {r : Option Reel}
    {e : VideoEvent} (h : VideoStep o w e w') (hp : w.Plays o v r) :
    ∃ v', w'.video? o = some v' ∧ v'.fallbackRate = v.fallbackRate := by
  cases e with
  | elsewhere =>
    cases h with
    | elsewhere hk => exact ⟨v, (hk.plays hp).video, rfl⟩
  | attached source => exact ⟨_, (h.attach_plays hp).1.video, rfl⟩
  | changed source =>
    cases h with
    | change => exact ⟨v, hp.video, rfl⟩
  | ticked shot copied => exact ⟨v, (h.tick_plays hp).2.1.video, rfl⟩
  | rendered seen outcome =>
    obtain ⟨v', hrendered, -, hp', -⟩ := h.render_plays hp
    exact ⟨v', hp'.video, hrendered.fallbackRate_eq⟩

theorem VideoSteps.exists_fallbackRate_eq {o : ObjectId} {l : List VideoEvent} {w₀ w : World}
    {v₀ : VideoState} (h : VideoSteps o w₀ l w) (h₀ : w₀.Unopened o v₀) :
    ∃ v, w.video? o = some v ∧ v.fallbackRate = v₀.fallbackRate := by
  refine h.exists_of_step (P := fun _ v => v.fallbackRate = v₀.fallbackRate) h₀ rfl ?_
  intro k e w₁ w₂ v r hs hp hrate
  obtain ⟨v', hv', hrate'⟩ := hs.fallbackRate_eq hp
  exact ⟨v', hv', hrate'.trans hrate⟩

/-! The first frame -/

/-- What the first render of a sized stream with a rate answers. -/
structure FirstPeriod (o : ObjectId) (w : World) (f : FrameSource) (rate : Binary64) : Prop where
  isRate : rate.IsRate
  starts : f.Fits → 1 / 2 ^ 64 < rate.value → ∀ s, s.world = w →
    ∃ n s', Run.render o s = .ok (.started n) s' ∧ rate.IsPeriod n
  /-- the period is 2^64 seconds or more -/
  aborts : f.Fits → rate.value ≤ 1 / 2 ^ 64 → ∀ s, s.world = w →
    ∃ s', Run.render o s = .error (.abort .durationRange) s'
  /-- no buffer can hold the frame, whatever the rate -/
  oversized : ¬f.Fits → ∀ s, s.world = w → ∃ s', Run.render o s = .error (.abort f.misfit) s'

theorem VideoHistory.firstPeriod_of_isRate {o : ObjectId} {l : List VideoEvent} {w : World}
    {v : VideoState} {shot : Shot} (h : VideoHistory o l w) (hv : w.video? o = some v)
    (hl : ∀ e ∈ l, ¬e.hasStarted) (hshot : w.shot? o = some shot) (hf : shot.frame.HasSize)
    (hrate : (v.frameRate shot.frame).IsRate) :
    FirstPeriod o w shot.frame (v.frameRate shot.frame) := by
  have hreel := h.not_hasStarted_iff.1 hl
  have hnone := Binary64.ofSeconds?_one_div hrate
  refine ⟨hrate, fun hfits habove s hs => ?_, fun hfits hbelow s hs => ?_, fun hfits s hs => ?_⟩
  · cases hi : v.interval? shot.frame with
    | none => exact absurd (hnone.1 hi) (not_le.2 habove)
    | some n =>
      exact ⟨n, _, h.render_eq hv hs hshot (.opened hreel hf hfits hi),
        Binary64.isPeriod_of_ofSeconds? hrate hi⟩
  · exact ⟨_, h.render_eq hv hs hshot (.overlong hreel hf hfits (hnone.2 hbelow))⟩
  · exact ⟨_, h.render_eq hv hs hshot (.oversized hreel hf hfits)⟩

/-- The first render of a video that sees a size answers with the period of the stream's rate, or of
the configured one if the stream reports none, unless the frame is too large or the period too
long. -/
theorem VideoSteps.firstPeriod {options : Options} {o : ObjectId} {l : List VideoEvent}
    {s s₀ : State} {args : List Value} {w : World} {v : VideoState} {shot : Shot}
    (hvalid : options.validate = .ok ()) (hplayer : s.world.IsOf options)
    (hv : s.world.Unopened o v) (hinit : Run.initVideo o args s = .ok () s₀)
    (h : VideoSteps o s₀.world l w) (hfirst : ∀ e ∈ l, ¬e.hasStarted)
    (hshot : w.shot? o = some shot) (hsize : shot.frame.HasSize) :
    FirstPeriod o w shot.frame (options.rateOf shot.frame) := by
  obtain ⟨v₀, hv₀, hset⟩ := hv.initVideo_rate hinit
  obtain ⟨v', hv', hkept⟩ := h.exists_fallbackRate_eq hv₀
  have hrate := VideoState.frameRate_eq ((hkept.trans hset).trans hplayer.fallbackRate) shot.frame
  have hisRate := Options.isRate_rateOf hvalid shot.frame
  rw [← hrate] at hisRate ⊢
  exact (h.history hv₀).firstPeriod_of_isRate hv' hfirst hshot hsize hisRate

namespace World

theorem exists_isOf_studio :
    ∃ options : Options, options.validate = .ok () ∧ studio.IsOf options := by
  obtain ⟨s, hs, heq⟩ := exists_reachable_studio
  have hruntime : studio.runtime.isSome := by decide +kernel
  have hrate : studio.fallbackRate.IsRate := by
    rw [← Binary64.isRate_iff]
    decide +kernel
  rw [← heq] at hruntime hrate ⊢
  rcases hs.isOf with hnone | ⟨options, hw⟩
  · rw [hnone] at hruntime
    cases hruntime
  · exact ⟨options, hw.validate hrate, hw⟩

def constructed (w : World) (o : ObjectId) : State :=
  (⟨w, [], 0, []⟩ : State).afterRun (Run.initVideo o [])

theorem exists_of_constructed (cs : List VideoCue) (p : Shot → World → Bool)
    (h : ((studio.constructed 23).world.playVideo 23 cs).any fun x =>
      x.1.all (!·.hasStarted) && (x.2.shot? 23).any fun shot =>
        shot.frame.width != 0 && shot.frame.height != 0 && p shot x.2) :
    ∃ options s v s₀ l w shot, options.validate = .ok () ∧ s.world.IsOf options ∧
      s.world.Unopened 23 v ∧ Run.initVideo 23 [] s = .ok () s₀ ∧ VideoSteps 23 s₀.world l w ∧
      (∀ e ∈ l, ¬e.hasStarted) ∧ w.shot? 23 = some shot ∧ shot.frame.HasSize ∧ p shot w := by
  obtain ⟨options, hvalid, hplayer⟩ := exists_isOf_studio
  obtain ⟨v, hv, -⟩ := exists_unopened_studio
  generalize studio = w₀ at h hplayer hv
  obtain ⟨⟨l, w⟩, hplay, h⟩ := (Option.any_eq_true _ _).1 h
  obtain ⟨hl, h⟩ := Bool.and_eq_true_iff.1 h
  obtain ⟨shot, hshot, h⟩ := (Option.any_eq_true _ _).1 h
  simp only [Bool.and_eq_true, bne_iff_ne] at h
  refine ⟨options, ⟨w₀, [], 0, []⟩, v, w₀.constructed 23, l, w, shot, hvalid, hplayer, hv,
    hv.initVideo_eq [], steps_of_playVideo hplay, fun e he hstarted => ?_, hshot, h.1, h.2⟩
  have hnot := List.all_eq_true.1 hl e he
  rw [hstarted] at hnot
  cases hnot

end World

theorem firstPeriod_studio : ∃ options s v s₀ l w shot, options.validate = .ok () ∧
    s.world.IsOf options ∧ s.world.Unopened 23 v ∧ Run.initVideo 23 [] s = .ok () s₀ ∧
    VideoSteps 23 s₀.world l w ∧ (∀ e ∈ l, ¬e.hasStarted) ∧ w.shot? 23 = some shot ∧
    shot.frame.HasSize ∧ shot.frame.rate = .zero false ∧
    FirstPeriod 23 w shot.frame (options.rateOf shot.frame) := by
  obtain ⟨options, s, v, s₀, l, w, shot, hvalid, hplayer, hv, hinit, h, hfirst, hshot, hsize,
      hrate⟩ :=
    exists_of_constructed [.render, .change 0 { FrameSource.filled 1 with rate := .zero false },
      .attach (studio.place 0)] (fun shot _ => shot.frame.rate == .zero false) (by decide +kernel)
  exact ⟨options, s, v, s₀, l, w, shot, hvalid, hplayer, hv, hinit, h, hfirst, hshot, hsize,
    eq_of_beq hrate, VideoSteps.firstPeriod hvalid hplayer hv hinit h hfirst hshot hsize⟩

/-- The period of 2^-64 frames in a second is no span. -/
theorem aborts_lowRate : ∃ options s v s₀ l w shot s₁, options.validate = .ok () ∧
    s.world.IsOf options ∧ s.world.Unopened 23 v ∧ Run.initVideo 23 [] s = .ok () s₀ ∧
    VideoSteps 23 s₀.world l w ∧ (∀ e ∈ l, ¬e.hasStarted) ∧ w.shot? 23 = some shot ∧
    shot.frame.HasSize ∧ shot.frame.rate.IsRate ∧ shot.frame.rate.value = 1 / 2 ^ 64 ∧
    Run.render 23 ⟨w, [], 0, []⟩ = .error (.abort .durationRange) s₁ := by
  obtain ⟨options, s, v, s₀, l, w, shot, hvalid, hplayer, hv, hinit, h, hfirst, hshot, hsize,
      hseen⟩ :=
    exists_of_constructed
      [.change 0 { FrameSource.filled 1 with rate := .ofBits 0x3bf0_0000_0000_0000 },
        .attach (studio.place 0)]
      (fun shot w => shot.frame.rate == .ofBits 0x3bf0_0000_0000_0000 &&
        Run.aborts (Run.render 23) ⟨w, [], 0, []⟩ .durationRange) (by decide +kernel)
  obtain ⟨hrate, haborts⟩ := Bool.and_eq_true_iff.1 hseen
  obtain ⟨s₁, hrun⟩ := Run.exists_of_aborts haborts
  have hisRate : shot.frame.rate.IsRate := by
    rw [eq_of_beq hrate, ← Binary64.isRate_iff]
    decide +kernel
  have hvalue : shot.frame.rate.value = 1 / 2 ^ 64 := by
    have hquanta : UInt64.size * shot.frame.rate.quanta = Binary64.one := by
      rw [eq_of_beq hrate]
      decide +kernel
    exact hisRate.value_eq_of_quanta hquanta
  exact ⟨options, s, v, s₀, l, w, shot, s₁, hvalid, hplayer, hv, hinit, h, hfirst, hshot, hsize,
    hisRate, hvalue, hrun⟩

end ScriptPlayer
