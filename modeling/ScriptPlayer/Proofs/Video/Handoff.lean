import ScriptPlayer.Proofs.Player.Definitions
import ScriptPlayer.Proofs.Video.Cues

/-! The handoff of frames between the decode side and the render side, in every order of attaching,
changing, ticking and rendering: one render locks the size, and from then on the three buffers hold
whole pictures of that size. -/
namespace ScriptPlayer

namespace VideoEvent

def hasStarted : VideoEvent → Bool
  | rendered _ (.started _) => true
  | _ => false

/-- The picture that is put into the intermediate buffer. -/
def taken? : VideoEvent → Option Shot
  | ticked shot true => some shot
  | rendered seen (.started _) => seen
  | _ => none

def lastTaken? (l : List VideoEvent) : Option Shot := l.reverse.findSome? taken?

theorem lastTaken?_snoc (l : List VideoEvent) (e : VideoEvent) :
    lastTaken? (l ++ [e]) = e.taken?.or (lastTaken? l) := by
  rw [lastTaken?, List.reverse_append, List.reverse_singleton, List.singleton_append,
    List.findSome?_cons]
  cases e.taken? <;> rfl

end VideoEvent

open VideoEvent World

namespace Rendered

variable {r : Option Reel} {v v' : VideoState} {screen screen' : Screen} {seen : Option Shot}
  {outcome : RenderOutcome}

theorem isSome_edit (h : Rendered r v screen seen (.ok outcome (v', screen'))) :
    ((rendered seen outcome).edit r).isSome.toNat =
      r.isSome.toNat + (rendered seen outcome).hasStarted.toNat := by
  cases h with
  | unattached => simp [edit, hasStarted]
  | unsized hr => simp [edit, hasStarted, hr]
  | opened hr => simp [edit, hasStarted, hr]
  | presented hr => simp [edit, hasStarted, hr]

theorem latest_edit (h : Rendered r v screen seen (.ok outcome (v', screen'))) :
    ((rendered seen outcome).edit r).map Reel.latest =
      (rendered seen outcome).taken?.or (r.map Reel.latest) := by
  cases h with
  | unattached => simp [edit, taken?]
  | unsized hr => simp [edit, taken?, hr]
  | opened hr => simp [edit, taken?, Reel.opened]
  | presented hr => simp [edit, taken?, hr, Reel.presented]

end Rendered

namespace VideoStep

variable {o : ObjectId} {w w' : World} {v : VideoState} {r : Option Reel} {e : VideoEvent}

theorem isSome_edit (h : VideoStep o w e w') (hp : w.Plays o v r) :
    (e.edit r).isSome.toNat = r.isSome.toNat + e.hasStarted.toNat := by
  cases e with
  | rendered seen outcome =>
    obtain ⟨v', hrendered, -⟩ := h.render_plays hp
    exact hrendered.isSome_edit
  | ticked shot copied => simp [edit, hasStarted]
  | _ => rfl

theorem latest_edit (h : VideoStep o w e w') (hp : w.Plays o v r) :
    (e.edit r).map Reel.latest = e.taken?.or (r.map Reel.latest) := by
  cases e with
  | rendered seen outcome =>
    obtain ⟨v', hrendered, -⟩ := h.render_plays hp
    exact hrendered.latest_edit
  | ticked shot copied =>
    obtain ⟨hcopied, -⟩ := h.tick_plays hp
    cases r <;> simp [edit, taken?, hcopied, Reel.taken]
  | _ => cases r <;> rfl

end VideoStep

namespace VideoHistory

variable {o : ObjectId} {l k : List VideoEvent} {w : World}

theorem countP_hasStarted (h : VideoHistory o l w) :
    l.countP hasStarted = (reel l).isSome.toNat := by
  induction h with
  | fresh => rfl
  | @snoc l e w w' h hs ih =>
    obtain ⟨v, hp⟩ := h.plays
    rw [reel_snoc, hs.isSome_edit hp, List.countP_append, ih, List.countP_singleton]
    cases e.hasStarted <;> rfl

theorem lastTaken?_eq (h : VideoHistory o l w) : lastTaken? l = (reel l).map Reel.latest := by
  induction h with
  | fresh => rfl
  | @snoc l e w w' h hs ih =>
    obtain ⟨v, hp⟩ := h.plays
    rw [reel_snoc, hs.latest_edit hp, lastTaken?_snoc, ih]

theorem not_hasStarted_iff (h : VideoHistory o l w) :
    (∀ e ∈ l, ¬e.hasStarted) ↔ reel l = none := by
  rw [← List.countP_eq_zero, h.countP_hasStarted]
  cases reel l <;> simp

theorem exists_hasStarted_iff (h : VideoHistory o l w) :
    (∃ e ∈ l, e.hasStarted) ↔ ∃ r, reel l = some r := by
  rw [← List.countP_pos_iff, h.countP_hasStarted]
  cases reel l <;> simp

/-- The picture that a render started with locks the size for good. -/
theorem exists_reel {seen : Option Shot} {interval : Nanos} (h : VideoHistory o l w)
    (hl : rendered seen (.started interval) ∈ l) :
    ∃ shot r, seen = some shot ∧ reel l = some r ∧ r.opening = shot := by
  obtain ⟨l₁, l₂, rfl⟩ := List.append_of_mem hl
  obtain ⟨w₁, w₂, h₁, hs⟩ := h.split_at
  obtain ⟨v, hp⟩ := h₁.plays
  obtain ⟨-, hsees⟩ := (hs.started_iff hp).1 ⟨interval, rfl⟩
  cases seen with
  | none => exact hsees.elim
  | some shot =>
    have hr : reel (l₁ ++ [rendered (some shot) (.started interval)]) = some (.opened shot) := by
      rw [reel_snoc]
      rfl
    rw [List.append_cons] at h ⊢
    obtain ⟨r, hreel, hopening⟩ := h.opening_eq hr
    exact ⟨shot, r, rfl, hreel, hopening⟩

end VideoHistory

/-- All buffers have room for a picture of a certain size, and that size is kept. -/
structure VideoState.Locked (v : VideoState) (pixels : List UInt8) (f : FrameSource) : Prop where
  fits : f.Fits
  width : v.width = f.width
  height : v.height = f.height
  pixels : pixels.length = f.size
  first : v.buffers.1.length = f.size
  second : v.buffers.2.length = f.size

theorem Reel.Fills.locked {r : Reel} {v : VideoState} {pixels : List UInt8}
    (h : r.Fills v pixels) : v.Locked pixels r.opening.frame := by
  have hfront := h.length_front
  have hback := h.length_back
  unfold VideoState.front at hfront
  unfold VideoState.back at hback
  refine ⟨h.fits, h.width, h.height, h.length_pixels, ?_, ?_⟩
  · cases hc : v.current
    · simpa [hc] using hfront
    · simpa [hc] using hback
  · cases hc : v.current
    · simpa [hc] using hback
    · simpa [hc] using hfront

/-- A render has brought the other buffer to the front, with what is in the intermediate buffer, and
that is one whole picture. -/
structure Turn (outcome : RenderOutcome) (v : VideoState) (pixels : List UInt8) (v' : VideoState)
    (pixels' : List UInt8) (shot : Shot) : Prop where
  current : v'.current = !v.current
  front : v'.front = pixels'
  whole : v'.front = shot.frame.picture (v'.width.toNat * v'.height.toNat * 4)
  /-- the buffer that was in front before keeps what it has -/
  back : outcome = .presented → v'.back = v.front ∧ pixels' = pixels

/-- A render fails for a first frame that no buffer can hold, for the period of the first frame or
for a new size, and for nothing else. What it has stored until then stays. -/
inductive RenderFailure (o : ObjectId) (l : List VideoEvent) (w : World) (v : VideoState)
    (f : FrameSource) : Halt → World → Prop
  | oversized (hl : ∀ e ∈ l, ¬e.hasStarted) (hf : f.HasSize) (hs : ¬f.Fits) :
      RenderFailure o l w v f (.abort f.misfit) (w.putFrame o (v.withSize f) (w.screen v.screen))
  | overlong (hl : ∀ e ∈ l, ¬e.hasStarted) (hf : f.HasSize) (hs : f.Fits)
      (hi : v.interval? f = none) :
      RenderFailure o l w v f (.abort .durationRange) (w.putFrame o (v.cleared f)
        { w.screen v.screen with pixels := f.picture f.size })
  | resized (hl : ∃ e ∈ l, e.hasStarted) (hf : ¬(v.width = f.width ∧ v.height = f.height)) :
      RenderFailure o l w v f (.abort (.frameSizeChanged v.width.toNat v.height.toNat
        f.width.toNat f.height.toNat)) w

/-- What the handoff guarantees after some events. -/
structure Handoff (o : ObjectId) (l : List VideoEvent) (w : World) (v : VideoState) : Prop where
  video : w.video? o = some v
  once : l.countP hasStarted ≤ 1
  /-- a render started just if it was the first that saw a size -/
  first : ∀ l₁ seen outcome l₂, l = l₁ ++ rendered seen outcome :: l₂ →
    ((rendered seen outcome).hasStarted ↔
      (rendered seen outcome).seesSize ∧ ∀ e ∈ l₁, ¬e.seesSize)
  /-- before that, ticks copy nothing and leave everything as it is -/
  idle : (∀ e ∈ l, ¬e.hasStarted) → ∀ t : Ticker, t.screen = v.screen → w.tick t = (false, w)
  /-- since then the size that it saw is kept, and the intermediate buffer holds the whole picture
  that was taken last -/
  locked : ∀ seen interval, rendered seen (.started interval) ∈ l → ∃ shot last,
    seen = some shot ∧ v.Locked (w.screen v.screen).pixels shot.frame ∧
      lastTaken? l = some last ∧ (w.screen v.screen).pixels = last.frame.picture shot.frame.size
  /-- and ticks copy the whole picture of their source -/
  copies : (∃ e ∈ l, e.hasStarted) → ∀ t frame, t.screen = v.screen →
    w.source? t.source = some frame → (w.tick t).1 ∧ ((w.tick t).2.screen v.screen).pixels =
      frame.picture (v.width.toNat * v.height.toNat * 4)
  /-- the next render, if it has something to present, presents the picture that was taken last -/
  turns : ∀ s outcome s', s.world = w → Run.render o s = .ok outcome s' → outcome ≠ .notReady →
    ∃ v' shot, s'.world.video? o = some v' ∧
      lastTaken? (l ++ [rendered (w.shot? o) outcome]) = some shot ∧
      Turn outcome v (w.screen v.screen).pixels v' (s'.world.screen v'.screen).pixels shot
  fails : ∀ s halt s', s.world = w → Run.render o s = .error halt s' → ∃ shot w',
    w.shot? o = some shot ∧ RenderFailure o l w v shot.frame halt w' ∧ s' = { s with world := w' }

namespace VideoHistory

variable {o : ObjectId} {l : List VideoEvent} {w : World} {v : VideoState}

theorem hasStarted_iff (h : VideoHistory o l w) {l₁ l₂ : List VideoEvent} {seen : Option Shot}
    {outcome : RenderOutcome} (hl : l = l₁ ++ rendered seen outcome :: l₂) :
    (rendered seen outcome).hasStarted ↔
      (rendered seen outcome).seesSize ∧ ∀ e ∈ l₁, ¬e.seesSize := by
  subst hl
  obtain ⟨w₁, w₂, h₁, hs⟩ := h.split_at
  obtain ⟨v, hp⟩ := h₁.plays
  rw [← h₁.reel_eq_none_iff, and_comm, ← hs.started_iff hp]
  cases outcome <;> simp [hasStarted]

theorem tick_idle (h : VideoHistory o l w) (hv : w.video? o = some v)
    (hl : ∀ e ∈ l, ¬e.hasStarted) {t : Ticker} (ht : t.screen = v.screen) :
    w.tick t = (false, w) := by
  have hp := h.plays_of_video hv
  cases hframe : w.source? t.source with
  | none =>
    unfold World.tick
    rw [hframe]
  | some frame =>
    obtain ⟨hcopied, -, hsame⟩ := VideoStep.tick_plays (.tick hv ht hframe) hp
    rw [h.not_hasStarted_iff.1 hl] at hcopied
    exact Prod.ext hcopied (hsame hcopied)

theorem tick_copies (h : VideoHistory o l w) (hv : w.video? o = some v)
    (hl : ∃ e ∈ l, e.hasStarted) {t : Ticker} {frame : FrameSource} (ht : t.screen = v.screen)
    (hframe : w.source? t.source = some frame) :
    (w.tick t).1 ∧ ((w.tick t).2.screen v.screen).pixels =
      frame.picture (v.width.toNat * v.height.toNat * 4) := by
  have hp := h.plays_of_video hv
  obtain ⟨r, hr⟩ := h.exists_hasStarted_iff.1 hl
  obtain ⟨hcopied, hp', -⟩ := VideoStep.tick_plays (.tick hv ht hframe) hp
  rw [hr] at hcopied hp'
  refine ⟨hcopied, ?_⟩
  rw [hp'.holds.width, hp'.holds.height, hp'.holds.pixels]
  rfl

theorem exists_rendered (h : VideoHistory o l w) (hv : w.video? o = some v) {s : State}
    (hs : s.world = w) : ∃ result, Rendered (reel l) v (w.screen v.screen) (w.shot? o) result ∧
      Run.render o s = Run.rendering o s result := by
  subst hs
  have hp := h.plays_of_video hv
  exact ⟨_, VideoState.rendered hp.holds _, Run.render_run hv⟩

theorem render_eq (h : VideoHistory o l w) (hv : w.video? o = some v) {s : State}
    (hs : s.world = w) {seen : Option Shot} (hseen : w.shot? o = seen)
    {result : EStateM.Result Fatal (VideoState × Screen) RenderOutcome}
    (hr : Rendered (reel l) v (w.screen v.screen) seen result) :
    Run.render o s = Run.rendering o s result := by
  obtain ⟨result', hrendered, hrun⟩ := h.exists_rendered hv hs
  rw [hseen] at hrendered
  rw [hrun, hrendered.unique hr]

theorem render_turns (h : VideoHistory o l w) (hv : w.video? o = some v) {s s' : State}
    {outcome : RenderOutcome} (hs : s.world = w) (hrun : Run.render o s = .ok outcome s')
    (ho : outcome ≠ .notReady) :
    ∃ v' shot, s'.world.video? o = some v' ∧
      lastTaken? (l ++ [rendered (w.shot? o) outcome]) = some shot ∧
      Turn outcome v (w.screen v.screen).pixels v' (s'.world.screen v'.screen).pixels shot := by
  have hp := h.plays_of_video hv
  have hstep : VideoStep o w (rendered (w.shot? o) outcome) s'.world := .render hs hrun
  obtain ⟨v', hrendered, -, hp', -⟩ := hstep.render_plays hp
  obtain ⟨hcurrent, hfront, hback⟩ := hrendered.turns ho
  obtain ⟨r', hr'⟩ := hrendered.exists_edit ho
  have hlast := (h.snoc hstep).lastTaken?_eq
  rw [reel_snoc, hr'] at hlast
  rw [hr'] at hp'
  refine ⟨v', r'.latest, hp'.video, hlast, hcurrent, hfront, ?_, fun hpresented => ?_⟩
  · rw [hp'.holds.width, hp'.holds.height, hfront, hp'.holds.pixels]
    rfl
  · obtain ⟨hv', hscreen⟩ := hback hpresented
    exact ⟨hv', congrArg Screen.pixels hscreen⟩

theorem failure_of_render (h : VideoHistory o l w) (hv : w.video? o = some v) {s s' : State}
    {halt : Halt} (hs : s.world = w) (hrun : Run.render o s = .error halt s') : ∃ shot w',
      w.shot? o = some shot ∧ RenderFailure o l w v shot.frame halt w' ∧
        s' = { s with world := w' } := by
  have hp := h.plays_of_video hv
  obtain ⟨result, hrendered, heq⟩ := h.exists_rendered hv hs
  rw [heq] at hrun
  subst hs
  generalize hseen : s.world.shot? o = seen at hrendered
  cases hrendered with
  | unattached | unsized | opened | presented => cases hrun
  | @oversized shot hr hf hfits =>
    obtain ⟨rfl, rfl⟩ := EStateM.Result.error.inj hrun
    exact ⟨shot, _, rfl, .oversized (h.not_hasStarted_iff.2 hr) hf hfits, rfl⟩
  | @overlong shot hr hf hfits hi =>
    obtain ⟨rfl, rfl⟩ := EStateM.Result.error.inj hrun
    exact ⟨shot, _, rfl, .overlong (h.not_hasStarted_iff.2 hr) hf hfits hi, rfl⟩
  | @resized r shot hr hf =>
    obtain ⟨rfl, rfl⟩ := EStateM.Result.error.inj hrun
    rw [hr] at hp
    unfold FrameSource.SameSize at hf
    rw [← hp.holds.width, ← hp.holds.height] at hf ⊢
    rw [hp.sound.putFrame_self hv hp.screen]
    exact ⟨shot, _, rfl, .resized (h.exists_hasStarted_iff.2 ⟨r, hr⟩) hf, rfl⟩

theorem render_of_failure (h : VideoHistory o l w) (hv : w.video? o = some v) {s : State}
    {w' : World} {halt : Halt} {shot : Shot} (hs : s.world = w) (hshot : w.shot? o = some shot)
    (hfailure : RenderFailure o l w v shot.frame halt w') :
    Run.render o s = .error halt { s with world := w' } := by
  have hp := h.plays_of_video hv
  subst hs
  cases hfailure with
  | oversized hl hf hfits =>
    exact h.render_eq hv rfl hshot (.oversized (h.not_hasStarted_iff.1 hl) hf hfits)
  | overlong hl hf hfits hi =>
    exact h.render_eq hv rfl hshot (.overlong (h.not_hasStarted_iff.1 hl) hf hfits hi)
  | resized hl hf =>
    obtain ⟨r, hr⟩ := h.exists_hasStarted_iff.1 hl
    rw [hr] at hp
    rw [hp.holds.width, hp.holds.height] at hf ⊢
    rw [h.render_eq hv rfl hshot (.resized hr hf), Run.rendering,
      hp.sound.putFrame_self hv hp.screen]

theorem handoff (h : VideoHistory o l w) : ∃ v, Handoff o l w v := by
  obtain ⟨v, hp⟩ := h.plays
  refine ⟨v, {
    video := hp.video
    once := ?_
    first := fun _ _ _ _ hl => h.hasStarted_iff hl
    idle := fun hl _ ht => h.tick_idle hp.video hl ht
    locked := fun seen interval hl => ?_
    copies := fun hl _ _ ht hframe => h.tick_copies hp.video hl ht hframe
    turns := fun _ _ _ hs hrun ho => h.render_turns hp.video hs hrun ho
    fails := fun _ _ _ hs hrun => h.failure_of_render hp.video hs hrun }⟩
  · rw [h.countP_hasStarted]
    exact Bool.toNat_le _
  · obtain ⟨shot, r, hseen, hr, rfl⟩ := h.exists_reel hl
    rw [hr] at hp
    have hlast := h.lastTaken?_eq
    rw [hr] at hlast
    exact ⟨_, r.latest, hseen, hp.holds.locked, hlast, hp.holds.pixels⟩

end VideoHistory

theorem handoff_studio : ∃ l w, VideoHistory 23 l w ∧
    l.filterMap outcome? = [.notReady, .notReady, .started 41666667, .presented] ∧
    ∃ v, Handoff 23 l w v := by
  obtain ⟨l, w, h, houtcomes⟩ := exists_of_playVideo
    [.change 0 { FrameSource.filled 1 with width := 0 }, .render, .attach (studio.place 0), .render,
      .change 0 (.filled 1), .render, .move (.start 0), .move (.step 0), .move (.step 0),
      .move (.step 0), .attach (studio.place 1), .render]
    (fun l _ => l.filterMap outcome? == [.notReady, .notReady, .started 41666667, .presented])
    (by decide +kernel)
  exact ⟨l, w, h.history, eq_of_beq houtcomes, VideoHistory.handoff h.history⟩

/-- The first render that sees a size, with a period, fails: no buffer holds 2^63 bytes. -/
theorem aborts_hugeFrame : ∃ o l w v shot n s, VideoHistory o l w ∧ (∀ e ∈ l, ¬e.seesSize) ∧
    w.video? o = some v ∧ w.shot? o = some shot ∧ shot.frame.HasSize ∧
    shot.frame.size < UInt64.size ∧ v.interval? shot.frame = some n ∧
    Run.render o ⟨w, [], 0, []⟩ = .error (.abort .capacityOverflow) s := by
  obtain ⟨o, l, w, h, hseen⟩ := exists_of_spawn
    [.change 0 { FrameSource.filled 1 with width := 2147483648, height := 1073741824 },
      .attach (studio.place 0)]
    (fun o l w => l.all (outcome? · == none) &&
      (w.video? o).any fun v => (w.shot? o).any fun shot =>
        shot.frame.width != 0 && shot.frame.height != 0 && shot.frame.size < UInt64.size &&
          v.interval? shot.frame == some 41666667 &&
          Run.aborts (Run.render o) ⟨w, [], 0, []⟩ .capacityOverflow) (by decide +kernel)
  obtain ⟨houtcomes, hseen⟩ := Bool.and_eq_true_iff.1 hseen
  obtain ⟨v, hv, hseen⟩ := (Option.any_eq_true _ _).1 hseen
  obtain ⟨shot, hshot, hseen⟩ := (Option.any_eq_true _ _).1 hseen
  simp only [Bool.and_eq_true, bne_iff_ne, decide_eq_true_eq, beq_iff_eq] at hseen
  obtain ⟨⟨⟨hsize, hbytes⟩, hinterval⟩, haborts⟩ := hseen
  obtain ⟨s, hrun⟩ := Run.exists_of_aborts haborts
  refine ⟨o, l, w, v, shot, 41666667, s, h, fun e he => ?_, hv, hshot, hsize, hbytes, hinterval,
    hrun⟩
  exact not_seesSize_of_outcome? (eq_of_beq (List.all_eq_true.1 houtcomes e he))

end ScriptPlayer
