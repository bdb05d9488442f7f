import ScriptPlayer.Proofs.Player.Session
import ScriptPlayer.Proofs.Video.Player

/-! Histories of a video that are carried out. A cue asks for one thing at a moment; what comes of
it are the next events. -/
namespace ScriptPlayer

inductive VideoCue
  | attach (stream : Value)
  | change (source : SourceId) (frame : FrameSource)
  | move (m : World.Move)
  | render

def VideoEvent.outcome? : VideoEvent → Option RenderOutcome
  | rendered _ outcome => some outcome
  | _ => none

theorem VideoEvent.outcome?_eq_some {e : VideoEvent} {outcome : RenderOutcome} :
    e.outcome? = some outcome ↔ ∃ seen, e = rendered seen outcome := by
  cases e <;> simp [outcome?]

theorem VideoEvent.not_seesSize_of_outcome? {e : VideoEvent} (h : e.outcome? = none) :
    ¬e.seesSize := by
  cases e with
  | rendered => cases h
  | _ => exact id

namespace World

variable {w w' : World} {o : ObjectId} {l : List VideoEvent}

def videoCue (w : World) (o : ObjectId) : VideoCue → Option (List VideoEvent × World)
  | .attach stream =>
    match Run.attachNetStream o [stream] ⟨w, [], 0, []⟩ with
    | .ok _ s =>
      ((s.world.video? o).bind VideoState.stream).map fun source => ([.attached source], s.world)
    | .error .. => none
  | .change source frame => some ([.changed source], w.setSource source frame)
  | .move m => (w.move m).map fun w' => (w.moveEvents o m, w')
  | .render =>
    match Run.renderVideo o ⟨w, [], 0, []⟩ with
    | .ok outcome s => some ([.rendered (w.shot? o) outcome, .elsewhere], s.world)
    | .error .. => none

theorem playerStep_of_videoCue {c : VideoCue} (h : w.videoCue o c = some (l, w')) :
    PlayerStep o w l w' := by
  cases c with
  | attach stream =>
    simp only [videoCue] at h
    split at h
    · rename_i s hrun
      obtain ⟨source, hsource, heq⟩ := Option.map_eq_some_iff.1 h
      obtain ⟨rfl, rfl⟩ := Prod.mk.inj heq
      obtain ⟨v, hv, hstream⟩ := Option.bind_eq_some_iff.1 hsource
      exact .attach (.attach rfl hrun hv hstream)
    · cases h
  | change source frame =>
    obtain ⟨rfl, rfl⟩ := Prod.mk.inj (Option.some.inj h)
    exact .change source frame
  | move m =>
    obtain ⟨w₁, hmove, heq⟩ := Option.map_eq_some_iff.1 h
    obtain ⟨rfl, rfl⟩ := Prod.mk.inj heq
    exact .of_move hmove
  | render =>
    simp only [videoCue] at h
    split at h
    · rename_i outcome s hrun
      obtain ⟨rfl, rfl⟩ := Prod.mk.inj (Option.some.inj h)
      exact .render rfl hrun
    · cases h

def playVideo (w : World) (o : ObjectId) : List VideoCue → Option (List VideoEvent × World)
  | [] => some ([], w)
  | c :: cs => do
    let (k, w₁) ← w.videoCue o c
    let (l, w₂) ← w₁.playVideo o cs
    return (k ++ l, w₂)

theorem playerHistory_of_playVideo {cs : List VideoCue} {k : List VideoEvent}
    (hw : PlayerHistory o l w) (h : w.playVideo o cs = some (k, w')) :
    PlayerHistory o (l ++ k) w' := by
  induction cs generalizing w l k with
  | nil =>
    obtain ⟨rfl, rfl⟩ := Prod.mk.inj (Option.some.inj h)
    rwa [List.append_nil]
  | cons c cs ih =>
    obtain ⟨⟨k₁, w₁⟩, hcue, h⟩ := Option.bind_eq_some_iff.1 h
    obtain ⟨⟨k₂, w₂⟩, hplay, h⟩ := Option.bind_eq_some_iff.1 h
    obtain ⟨rfl, rfl⟩ := Prod.mk.inj (Option.some.inj h)
    rw [← List.append_assoc]
    exact ih (hw.snoc (playerStep_of_videoCue hcue)) hplay

theorem steps_of_playVideo {cs : List VideoCue} (h : w.playVideo o cs = some (l, w')) :
    VideoSteps o w l w' := by
  induction cs generalizing w l with
  | nil =>
    obtain ⟨rfl, rfl⟩ := Prod.mk.inj (Option.some.inj h)
    exact .refl
  | cons c cs ih =>
    obtain ⟨⟨k₁, w₁⟩, hcue, h⟩ := Option.bind_eq_some_iff.1 h
    obtain ⟨⟨k₂, w₂⟩, hplay, h⟩ := Option.bind_eq_some_iff.1 h
    obtain ⟨rfl, rfl⟩ := Prod.mk.inj (Option.some.inj h)
    exact (playerStep_of_videoCue hcue).steps.trans (ih hplay)

def isNewVideo (w : World) (o : ObjectId) : Bool :=
  (w.video? o).any fun v => v.screen < w.screens.length && !v.frameReady &&
    (v.width == 0 || v.height == 0) && (w.screen v.screen).pixels.isEmpty &&
    (w.tickers v.screen).isEmpty

theorem exists_unopened_of_isNewVideo (hs : w.Sound) (h : w.isNewVideo o) :
    ∃ v, w.Unopened o v ∧ w.tickers v.screen = [] := by
  obtain ⟨v, hv, h⟩ := (Option.any_eq_true _ _).1 h
  simp only [Bool.and_eq_true, decide_eq_true_eq, Bool.not_eq_true', Bool.or_eq_true, beq_iff_eq,
    List.isEmpty_iff] at h
  obtain ⟨⟨⟨⟨hscreen, hready⟩, hsize⟩, hpixels⟩, htickers⟩ := h
  exact ⟨v, ⟨hs, hv, hscreen, hready, hsize, hpixels⟩, htickers⟩

end World

/-! A player with two streams and a video -/

def studioSession (a b : FrameSource) : Session :=
  .ask (.newSource a) fun first =>
  .ask (.newSource b) fun second =>
  .ask (.perform .look) fun w =>
  match w.runtime with
  | none => .done
  | some classes =>
    .ask (.perform (.instantiate classes.netStream (some (.stream first)))) fun stream =>
    .ask (.assign 0 (.object stream)) fun _ =>
    .ask (.perform (.instantiate classes.netStream (some (.stream second)))) fun stream =>
    .ask (.assign 1 (.object stream)) fun _ =>
    .ask (.perform (.construct classes.video none [])) fun
      | .ok video => .ask (.assign 2 (.object video)) fun _ => .done
      | .error _ => .done

def FrameSource.filled (byte : UInt8) : FrameSource := ⟨2, 1, .ofNat 24, fun _ => byte⟩

namespace World

theorem exists_reachable_afterRun {s : State} (h : s.Reachable) (depth : Nat) (p : Session) :
    ∃ s' : State, s'.Reachable ∧ s'.world = (s.afterRun (Run.embed depth p)).world :=
  ⟨_, h.embed depth p 0 [], rfl⟩

def studio : World :=
  ((⟨(World.ofOptions .defaults 1).withPlaces 3, [], 99, []⟩ : State).afterRun
    (Run.embed 2 (studioSession (.filled 1) (.filled 2)))).world

theorem exists_reachable_studio : ∃ s : State, s.Reachable ∧ s.world = studio := by
  unfold studio
  exact exists_reachable_afterRun (.player .defaults 1 3 99 []) 2 _

theorem sound_studio : studio.Sound := by
  obtain ⟨s, hs, heq⟩ := exists_reachable_studio
  exact heq ▸ hs.sound.1

theorem exists_unopened_studio : ∃ v, studio.Unopened 23 v ∧ studio.tickers v.screen = [] :=
  exists_unopened_of_isNewVideo sound_studio (by decide +kernel)

theorem playerHistory_studio : PlayerHistory 23 [] studio := by
  obtain ⟨v, hv, ht⟩ := exists_unopened_studio
  exact .fresh hv ht

theorem exists_of_playVideo (cs : List VideoCue) (p : List VideoEvent → World → Bool)
    (h : (studio.playVideo 23 cs).any fun x => p x.1 x.2) :
    ∃ l w, PlayerHistory 23 l w ∧ p l w := by
  obtain ⟨⟨l, w⟩, hplay, hp⟩ := (Option.any_eq_true _ _).1 h
  exact ⟨l, w, playerHistory_of_playVideo playerHistory_studio hplay, hp⟩

/-- A history of a video that the studio has just made, before its constructor has run. -/
theorem exists_of_spawn (cs : List VideoCue) (p : ObjectId → List VideoEvent → World → Bool)
    (h : studio.runtime.any fun classes =>
      classes.video < studio.classes.size &&
        let (o, w) := studio.spawn classes.video .video
        (w.playVideo o cs).any fun x => p o x.1 x.2) :
    ∃ o l w, VideoHistory o l w ∧ p o l w := by
  have hsound := sound_studio
  generalize studio = w₀ at h hsound
  obtain ⟨classes, -, h⟩ := (Option.any_eq_true _ _).1 h
  obtain ⟨hclass, h⟩ := Bool.and_eq_true_iff.1 h
  obtain ⟨⟨l, w⟩, hplay, hp⟩ := (Option.any_eq_true _ _).1 h
  have hnew := unopened_spawn hsound (of_decide_eq_true hclass)
  exact ⟨_, l, w, (VideoHistory.fresh hnew).append (steps_of_playVideo hplay), hp⟩

theorem exists_steps_of_playVideo (cs : List VideoCue) (p : List VideoEvent → World → Bool)
    (h : (studio.playVideo 23 cs).any fun x => p x.1 x.2) :
    ∃ l w, VideoSteps 23 studio l w ∧ p l w := by
  obtain ⟨⟨l, w⟩, hplay, hp⟩ := (Option.any_eq_true _ _).1 h
  exact ⟨l, w, steps_of_playVideo hplay, hp⟩

end World

end ScriptPlayer
