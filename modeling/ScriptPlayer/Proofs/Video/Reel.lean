import Mathlib.Logic.Basic
import ScriptPlayer.Media.Video
import ScriptPlayer.Proofs.Run.Ends

/-! The buffers of a video against the pictures that were taken for it. As long as no size is locked
nothing has been taken; afterwards each of the three buffers holds one whole picture of that
size. -/
namespace ScriptPlayer

namespace FrameSource

variable {f : FrameSource}

def HasSize (f : FrameSource) : Prop := f.width ≠ 0 ∧ f.height ≠ 0

def SameSize (f g : FrameSource) : Prop := f.width = g.width ∧ f.height = g.height

def size (f : FrameSource) : Nat := f.width.toNat * f.height.toNat * 4

def Fits (f : FrameSource) : Prop := f.size ≤ maxBufferLength

/-- What is raised for a picture that no buffer can hold. -/
def misfit (f : FrameSource) : Fatal :=
  if f.size < UInt64.size then .capacityOverflow else .multiplyOverflow

@[simp] theorem length_picture (f : FrameSource) (n : Nat) : (f.picture n).length = n := by
  simp [picture]

theorem size_pos (h : f.HasSize) : 0 < f.size := by
  have hwidth : 0 < f.width.toNat := Nat.pos_of_ne_zero fun h₀ => h.1 (UInt32.toNat_inj.1 h₀)
  have hheight : 0 < f.height.toNat := Nat.pos_of_ne_zero fun h₀ => h.2 (UInt32.toNat_inj.1 h₀)
  exact Nat.mul_pos (Nat.mul_pos hwidth hheight) (by decide)

theorem Fits.lt_size (h : f.Fits) : f.size < UInt64.size :=
  Nat.lt_of_le_of_lt h (by decide)

theorem zeroed_of_fits (h : f.Fits) : zeroed f.size = .ok (List.replicate f.size 0) :=
  if_pos h

theorem zeroed_of_not_fits (h : ¬f.Fits) : zeroed f.size = .error .capacityOverflow :=
  if_neg h

end FrameSource

structure Shot where
  source : SourceId
  frame : FrameSource

structure Reel where
  /-- taken by the render that locked the size -/
  opening : Shot
  /-- taken last -/
  latest : Shot
  /-- presented last -/
  front : Shot
  /-- presented before that -/
  back : Option Shot

namespace Reel

def opened (shot : Shot) : Reel := ⟨shot, shot, shot, none⟩

def taken (r : Reel) (shot : Shot) : Reel := { r with latest := shot }

def presented (r : Reel) : Reel := { r with front := r.latest, back := some r.front }

def print (r : Reel) (shot : Shot) : List UInt8 := shot.frame.picture r.opening.frame.size

end Reel

/-- What happens to a video or to the sources, as far as it matters to the video. -/
inductive VideoEvent
  | elsewhere
  | attached (source : SourceId)
  | changed (source : SourceId)
  | ticked (shot : Shot) (copied : Bool)
  /-- what the render saw, and what it answered -/
  | rendered (seen : Option Shot) (outcome : RenderOutcome)

namespace VideoEvent

def seesSize : VideoEvent → Prop
  | rendered (some shot) _ => shot.frame.HasSize
  | _ => False

/-- What becomes of the reel. -/
def edit (r : Option Reel) : VideoEvent → Option Reel
  | rendered (some shot) (.started _) => some (.opened shot)
  | rendered _ .presented => r.map Reel.presented
  | ticked shot _ => r.map (·.taken shot)
  | _ => r

def reel (l : List VideoEvent) : Option Reel := l.foldl edit none

theorem reel_append (l k : List VideoEvent) : reel (l ++ k) = k.foldl edit (reel l) :=
  List.foldl_append

theorem reel_snoc (l : List VideoEvent) (e : VideoEvent) : reel (l ++ [e]) = e.edit (reel l) :=
  reel_append l [e]

end VideoEvent

namespace VideoState

def back (v : VideoState) : List UInt8 := if v.current then v.buffers.1 else v.buffers.2

def withSize (v : VideoState) (f : FrameSource) : VideoState :=
  { v with width := f.width, height := f.height }

def turned (v : VideoState) (pixels : List UInt8) : VideoState :=
  { v with
    buffers := if v.current then (pixels, v.buffers.2) else (v.buffers.1, pixels)
    current := !v.current
    frameReady := true }

def cleared (v : VideoState) (f : FrameSource) : VideoState :=
  { v.withSize f with buffers := (List.replicate f.size 0, List.replicate f.size 0) }

def opened (v : VideoState) (f : FrameSource) : VideoState :=
  (v.cleared f).turned (f.picture f.size)

variable {v : VideoState} {f : FrameSource}

theorem front_turned (v : VideoState) (pixels : List UInt8) : (v.turned pixels).front = pixels := by
  cases hv : v.current <;> simp [front, turned, hv]

theorem back_turned (v : VideoState) (pixels : List UInt8) : (v.turned pixels).back = v.front := by
  cases hv : v.current <;> simp [front, back, turned, hv]

theorem back_opened (v : VideoState) (f : FrameSource) :
    (v.opened f).back = List.replicate f.size 0 := by
  rw [opened, back_turned]
  exact ite_self _

theorem present_eq {screen : Screen} (h : v.back.length = screen.pixels.length) :
    v.present screen = .ok (v.turned screen.pixels) :=
  if_pos h

theorem interval?_congr {v' : VideoState} (h : v'.fallbackRate = v.fallbackRate)
    (f : FrameSource) : v'.interval? f = v.interval? f := by
  unfold interval? frameRate
  rw [h]

theorem lockSize_of_unknown (h : v.width = 0 ∨ v.height = 0) (f : FrameSource) :
    v.lockSize f = .ok (v.withSize f) :=
  if_pos h

/-- No size is locked yet. -/
structure Dark (v : VideoState) (pixels : List UInt8) : Prop where
  unready : v.frameReady = false
  unknown : v.width = 0 ∨ v.height = 0
  empty : pixels = []

end VideoState

/-- The buffers hold the pictures of the reel. -/
structure Reel.Fills (r : Reel) (v : VideoState) (pixels : List UInt8) : Prop where
  hasSize : r.opening.frame.HasSize
  fits : r.opening.frame.Fits
  width : v.width = r.opening.frame.width
  height : v.height = r.opening.frame.height
  ready : v.frameReady = true
  pixels : pixels = r.print r.latest
  front : v.front = r.print r.front
  back : v.back = (r.back.map r.print).getD (List.replicate r.opening.frame.size 0)

def VideoState.Holds (v : VideoState) (pixels : List UInt8) : Option Reel → Prop
  | none => v.Dark pixels
  | some r => r.Fills v pixels

/-- What a render can do. -/
inductive Rendered (r : Option Reel) (v : VideoState) (screen : Screen) :
    Option Shot → EStateM.Result Fatal (VideoState × Screen) RenderOutcome → Prop
  | unattached : Rendered r v screen none (.ok .notReady (v, screen))
  | unsized {shot : Shot} (hr : r = none) (hf : ¬shot.frame.HasSize) :
      Rendered r v screen (some shot) (.ok .notReady (v.withSize shot.frame, screen))
  | oversized {shot : Shot} (hr : r = none) (hf : shot.frame.HasSize) (hs : ¬shot.frame.Fits) :
      Rendered r v screen (some shot) (.error shot.frame.misfit (v.withSize shot.frame, screen))
  | overlong {shot : Shot} (hr : r = none) (hf : shot.frame.HasSize) (hs : shot.frame.Fits)
      (hi : v.interval? shot.frame = none) :
      Rendered r v screen (some shot) (.error .durationRange (v.cleared shot.frame,
        { screen with pixels := shot.frame.picture shot.frame.size }))
  | opened {shot : Shot} {interval : Nanos} (hr : r = none) (hf : shot.frame.HasSize)
      (hs : shot.frame.Fits) (hi : v.interval? shot.frame = some interval) :
      Rendered r v screen (some shot) (.ok (.started interval) (v.opened shot.frame,
        { screen with pixels := shot.frame.picture shot.frame.size }))
  | resized {reel : Reel} {shot : Shot} (hr : r = some reel)
      (hf : ¬reel.opening.frame.SameSize shot.frame) :
      Rendered r v screen (some shot) (.error (.frameSizeChanged reel.opening.frame.width.toNat
        reel.opening.frame.height.toNat shot.frame.width.toNat shot.frame.height.toNat) (v, screen))
  | presented {reel : Reel} {shot : Shot} (hr : r = some reel)
      (hf : reel.opening.frame.SameSize shot.frame) :
      Rendered r v screen (some shot) (.ok .presented (v.turned screen.pixels, screen))

namespace Reel.Fills

variable {r : Reel} {v : VideoState} {pixels : List UInt8}

theorem length_pixels (h : r.Fills v pixels) : pixels.length = r.opening.frame.size := by
  rw [h.pixels, print, FrameSource.length_picture]

theorem length_front (h : r.Fills v pixels) : v.front.length = r.opening.frame.size := by
  rw [h.front, print, FrameSource.length_picture]

theorem length_back (h : r.Fills v pixels) : v.back.length = r.opening.frame.size := by
  rw [h.back]
  cases r.back <;> simp [print]

theorem pixels_ne_nil (h : r.Fills v pixels) : pixels ≠ [] := by
  rw [← List.length_pos_iff, h.length_pixels]
  exact FrameSource.size_pos h.hasSize

end Reel.Fills

namespace RenderPass

variable {v v' : VideoState} {screen : Screen}

theorem finish_of_ok (h : v.present screen = .ok v') (outcome : RenderOutcome) :
    finish outcome (v, screen) = .ok outcome (v', screen) := by
  have hchange : changeVideo VideoState.present (v, screen) = .ok () (v', screen) := by
    unfold changeVideo
    dsimp only
    rw [h]
  exact Run.bind_of_ok hchange _

theorem start_of_fits {f : FrameSource} (h : f.Fits) (v : VideoState) (screen : Screen) :
    start f f.size (v.withSize f, screen) =
      let left := (v.cleared f, { screen with pixels := f.picture f.size })
      match v.interval? f with
      | some interval => .ok interval left
      | none => .error .durationRange left := by
  have hcleared : (v.cleared f).interval? f = v.interval? f := VideoState.interval?_congr rfl f
  unfold start
  rw [FrameSource.zeroed_of_fits h, Run.bind_of_ok (m := ofExcept _) rfl, Run.bind_of_ok (m := modify _) rfl,
    Run.bind_of_ok (m := get) rfl]
  unfold VideoState.cleared at hcleared ⊢
  dsimp only
  rw [hcleared]
  cases v.interval? f <;> rfl

theorem start_of_not_fits {f : FrameSource} (h : ¬f.Fits) (v : VideoState) (screen : Screen) :
    start f f.size (v, screen) = .error .capacityOverflow (v, screen) := by
  unfold start
  rw [FrameSource.zeroed_of_not_fits h]
  exact Run.bind_of_error rfl _

theorem frame_eq (f : FrameSource) (v : VideoState) (screen : Screen) :
    frame (some f) (v, screen) =
      match v.lockSize f with
      | .error e => .error e (v, screen)
      | .ok v =>
        if v.width = 0 ∨ v.height = 0 then .ok .notReady (v, screen) else
        match v.frameLength with
        | .error e => .error e (v, screen)
        | .ok n =>
          if v.frameReady then finish .presented (v, screen) else
          match start f n (v, screen) with
          | .ok interval left => finish (.started interval) left
          | .error e left => .error e left := by
  unfold frame
  dsimp only
  rw [Run.bind_run]
  unfold changeVideo
  dsimp only
  cases v.lockSize f with
  | error e => rfl
  | ok v =>
    dsimp only
    rw [Run.bind_of_ok (m := get) rfl]
    dsimp only
    split
    · rfl
    · cases v.frameLength with
      | error e => rfl
      | ok n =>
        rw [Run.bind_of_ok (m := ofExcept _) rfl]
        dsimp only
        split
        · rfl
        · rw [Run.bind_run]
          cases start f n (v, screen) <;> rfl

end RenderPass

namespace VideoState

variable {r : Option Reel} {v : VideoState} {screen : Screen}

theorem frameLength_eq {f : FrameSource} (hw : v.width = f.width) (hh : v.height = f.height) :
    v.frameLength =
      if f.size < UInt64.size then .ok f.size else .error .multiplyOverflow := by
  unfold frameLength
  rw [hw, hh]
  rfl

theorem present_cleared (v : VideoState) (screen : Screen) (f : FrameSource) :
    (v.cleared f).present { screen with pixels := f.picture f.size } = .ok (v.opened f) := by
  refine present_eq ?_
  rw [FrameSource.length_picture, back]
  split <;> simp [cleared]

theorem render_of_hasSize (h : v.Dark screen.pixels) {f : FrameSource} (hf : f.HasSize) :
    v.render screen (some f) =
      if f.size < UInt64.size then
        match RenderPass.start f f.size (v.withSize f, screen) with
        | .ok interval left => RenderPass.finish (.started interval) left
        | .error e left => .error e left
      else .error .multiplyOverflow (v.withSize f, screen) := by
  have hknown : ¬((v.withSize f).width = 0 ∨ (v.withSize f).height = 0) := not_or.2 hf
  have hready : ¬(v.withSize f).frameReady = true := by simp [withSize, h.unready]
  unfold render
  rw [RenderPass.frame_eq, lockSize_of_unknown h.unknown]
  dsimp only
  rw [if_neg hknown, frameLength_eq rfl rfl]
  by_cases hword : f.size < UInt64.size
  · rw [if_pos hword, if_pos hword]
    dsimp only
    rw [if_neg hready]
  · rw [if_neg hword, if_neg hword]

theorem render_oversized (h : v.Dark screen.pixels) {f : FrameSource} (hf : f.HasSize)
    (hs : ¬f.Fits) : v.render screen (some f) = .error f.misfit (v.withSize f, screen) := by
  rw [render_of_hasSize h hf, RenderPass.start_of_not_fits hs, FrameSource.misfit]
  split <;> rfl

theorem render_opening (h : v.Dark screen.pixels) {f : FrameSource} (hf : f.HasSize)
    (hs : f.Fits) :
    v.render screen (some f) =
      match v.interval? f with
      | some interval => .ok (.started interval) (v.opened f,
          { screen with pixels := f.picture f.size })
      | none => .error .durationRange (v.cleared f,
          { screen with pixels := f.picture f.size }) := by
  rw [render_of_hasSize h hf, if_pos hs.lt_size, RenderPass.start_of_fits hs]
  cases v.interval? f with
  | none => rfl
  | some interval => exact RenderPass.finish_of_ok (present_cleared v screen f) _

theorem render_of_dark (h : v.Dark screen.pixels) (shot : Shot) :
    Rendered none v screen (some shot) (v.render screen (some shot.frame)) := by
  by_cases hf : shot.frame.HasSize
  · by_cases hs : shot.frame.Fits
    · rw [render_opening h hf hs]
      cases hi : v.interval? shot.frame with
      | none => exact .overlong rfl hf hs hi
      | some interval => exact .opened rfl hf hs hi
    · rw [render_oversized h hf hs]
      exact .oversized rfl hf hs
  · have hunknown : (v.withSize shot.frame).width = 0 ∨ (v.withSize shot.frame).height = 0 :=
      (not_and_or.1 hf).imp not_not.1 not_not.1
    unfold render
    rw [RenderPass.frame_eq, lockSize_of_unknown h.unknown]
    dsimp only
    rw [if_pos hunknown]
    exact .unsized rfl hf

theorem render_of_fills {reel : Reel} (h : reel.Fills v screen.pixels) (shot : Shot) :
    Rendered (some reel) v screen (some shot) (v.render screen (some shot.frame)) := by
  have hknown : ¬(v.width = 0 ∨ v.height = 0) := by
    rw [h.width, h.height]
    exact not_or.2 h.hasSize
  unfold render
  rw [RenderPass.frame_eq, lockSize, if_neg hknown]
  by_cases hf : reel.opening.frame.SameSize shot.frame
  · have hsame : ¬(v.width ≠ shot.frame.width ∨ v.height ≠ shot.frame.height) := by
      rw [h.width, h.height, not_or, not_not, not_not]
      exact hf
    have hpresent := present_eq (h.length_back.trans h.length_pixels.symm)
    rw [if_neg hsame]
    dsimp only
    rw [if_neg hknown, frameLength_eq h.width h.height, if_pos h.fits.lt_size]
    dsimp only
    rw [if_pos h.ready, RenderPass.finish_of_ok hpresent]
    exact .presented rfl hf
  · have hresized : v.width ≠ shot.frame.width ∨ v.height ≠ shot.frame.height := by
      rw [h.width, h.height]
      exact not_and_or.1 hf
    rw [if_pos hresized, h.width, h.height]
    exact .resized rfl hf

theorem rendered (h : v.Holds screen.pixels r) (seen : Option Shot) :
    Rendered r v screen seen (v.render screen (seen.map Shot.frame)) := by
  cases seen with
  | none => exact .unattached
  | some shot =>
    cases r with
    | none => exact render_of_dark h shot
    | some reel => exact render_of_fills h shot

theorem Holds.attach {pixels : List UInt8} (h : v.Holds pixels r) (source : Option SourceId) :
    { v with stream := source }.Holds pixels r := by
  cases r with
  | none => exact ⟨h.unready, h.unknown, h.empty⟩
  | some reel =>
    exact ⟨h.hasSize, h.fits, h.width, h.height, h.ready, h.pixels, h.front, h.back⟩

theorem tick_of_not_copied {f : FrameSource} (h : (screen.tick f).1 = false) :
    (screen.tick f).2 = screen := by
  unfold Screen.tick at h ⊢
  split at h
  · rename_i hempty
    rw [if_pos hempty]
  · cases h

/-- A tick copies just if a size is locked, and then a whole picture. -/
theorem Holds.tick (h : v.Holds screen.pixels r) (shot : Shot) :
    (screen.tick shot.frame).1 = r.isSome ∧
      v.Holds (screen.tick shot.frame).2.pixels (r.map (·.taken shot)) := by
  unfold Screen.tick
  cases r with
  | none =>
    have hempty : screen.pixels.isEmpty = true := by simp [h.empty]
    rw [if_pos hempty]
    exact ⟨rfl, h⟩
  | some reel =>
    have hfull : ¬screen.pixels.isEmpty = true := by simpa using h.pixels_ne_nil
    rw [if_neg hfull, h.length_pixels]
    exact ⟨rfl, h.hasSize, h.fits, h.width, h.height, h.ready, rfl, h.front, h.back⟩

theorem Dark.withSize {pixels : List UInt8} (h : v.Dark pixels) {f : FrameSource}
    (hf : ¬f.HasSize) : (v.withSize f).Dark pixels :=
  ⟨h.unready, (not_and_or.1 hf).imp not_not.1 not_not.1, h.empty⟩

end VideoState

namespace Rendered

variable {r : Option Reel} {v v' : VideoState} {screen screen' : Screen} {seen : Option Shot}
  {outcome : RenderOutcome}

/-- The conditions under which a render does one thing and another exclude each other. -/
theorem unique {a b : EStateM.Result Fatal (VideoState × Screen) RenderOutcome}
    (h : Rendered r v screen seen a) (h' : Rendered r v screen seen b) : a = b := by
  cases h <;> cases h' <;> simp_all

theorem holds (h : Rendered r v screen seen (.ok outcome (v', screen')))
    (hv : v.Holds screen.pixels r) :
    v'.Holds screen'.pixels ((VideoEvent.rendered seen outcome).edit r) := by
  cases h with
  | unattached => exact hv
  | unsized hr hf =>
    subst hr
    exact VideoState.Dark.withSize hv hf
  | opened hr hf hs hi =>
    exact ⟨hf, hs, rfl, rfl, rfl, rfl, VideoState.front_turned _ _, VideoState.back_opened _ _⟩
  | presented hr hf =>
    subst hr
    refine ⟨hv.hasSize, hv.fits, hv.width, hv.height, rfl, hv.pixels, ?_, ?_⟩
    · rw [VideoState.front_turned]
      exact hv.pixels
    · rw [VideoState.back_turned]
      exact hv.front

theorem screen_eq (h : Rendered r v screen seen (.ok outcome (v', screen'))) :
    v'.screen = v.screen := by
  cases h <;> rfl

theorem stream_eq (h : Rendered r v screen seen (.ok outcome (v', screen'))) :
    v'.stream = v.stream := by
  cases h <;> rfl

theorem started_iff (h : Rendered r v screen seen (.ok outcome (v', screen'))) :
    (∃ interval, outcome = .started interval) ↔
      r = none ∧ (VideoEvent.rendered seen outcome).seesSize := by
  cases h with
  | unattached => simp [VideoEvent.seesSize]
  | unsized hr hf => simp [VideoEvent.seesSize, hf]
  | opened hr hf hi => simp [VideoEvent.seesSize, hr, hf]
  | presented hr hf => simp [hr]

theorem opening_eq {reel : Reel}
    (h : Rendered (some reel) v screen seen (.ok outcome (v', screen'))) :
    ∃ reel', (VideoEvent.rendered seen outcome).edit (some reel) = some reel' ∧
      reel'.opening = reel.opening := by
  cases h with
  | unattached | unsized => exact ⟨reel, rfl, rfl⟩
  | opened hr => cases hr
  | presented => exact ⟨_, rfl, rfl⟩

theorem edit_none_iff (h : Rendered none v screen seen (.ok outcome (v', screen'))) :
    (VideoEvent.rendered seen outcome).edit none = none ↔
      ¬(VideoEvent.rendered seen outcome).seesSize := by
  cases h with
  | unattached => simp [VideoEvent.edit, VideoEvent.seesSize]
  | unsized hr hf => simp [VideoEvent.edit, VideoEvent.seesSize, hf]
  | opened hr hf => simp [VideoEvent.edit, VideoEvent.seesSize, hf]
  | presented hr => cases hr

theorem exists_edit (h : Rendered r v screen seen (.ok outcome (v', screen')))
    (ho : outcome ≠ .notReady) : ∃ r', (VideoEvent.rendered seen outcome).edit r = some r' := by
  cases h with
  | unattached | unsized => exact absurd rfl ho
  | opened => exact ⟨_, rfl⟩
  | presented hr => exact ⟨_, by rw [hr]; rfl⟩

theorem turns (h : Rendered r v screen seen (.ok outcome (v', screen')))
    (ho : outcome ≠ .notReady) : v'.current = !v.current ∧ v'.front = screen'.pixels ∧
      (outcome = .presented → v'.back = v.front ∧ screen' = screen) := by
  cases h with
  | unattached | unsized => exact absurd rfl ho
  | opened => exact ⟨rfl, VideoState.front_turned _ _, nofun⟩
  | presented =>
    exact ⟨rfl, VideoState.front_turned _ _, fun _ => ⟨VideoState.back_turned _ _, rfl⟩⟩

end Rendered

end ScriptPlayer
