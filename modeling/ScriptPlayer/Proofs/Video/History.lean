import Mathlib.Data.List.Induction
import ScriptPlayer.Proofs.Run.Install
import ScriptPlayer.Proofs.Video.Actions

/-! What happens to a video over time: streams are attached, sources change, tickers copy pictures
and renders present them, in any order, until a render aborts. The reel that the events leave tells
at any moment what is in the buffers. -/
namespace ScriptPlayer

namespace World

variable {w w' : World} {o : ObjectId} {v v' : VideoState} {r : Option Reel}

/-- Steps that leave a video, its pixels and the sources as they are. -/
structure KeepsVideo (w : World) (o : ObjectId) (w' : World) : Prop where
  steps : Steps w w'
  video : w'.video? o = w.video? o
  screens : w.screens.length ≤ w'.screens.length
  pixels : ∀ v, w.video? o = some v → (w'.screen v.screen).pixels = (w.screen v.screen).pixels
  sources : w.sources <+: w'.sources

/-- A new video: nothing is attached, and nothing has been taken. -/
structure Unopened (w : World) (o : ObjectId) (v : VideoState) : Prop where
  sound : w.Sound
  video : w.video? o = some v
  screen : v.screen < w.screens.length
  dark : v.Dark (w.screen v.screen).pixels

end World

open World

/-- One thing that happens to a video or to the sources. -/
inductive VideoStep (o : ObjectId) (w : World) : VideoEvent → World → Prop
  | elsewhere {w' : World} (h : w.KeepsVideo o w') : VideoStep o w .elsewhere w'
  | attach {args : List Value} {s s' : State} {v : VideoState} {source : SourceId}
      (hs : s.world = w) (h : Run.attachNetStream o args s = .ok () s')
      (hv : s'.world.video? o = some v) (hsource : v.stream = some source) :
      VideoStep o w (.attached source) s'.world
  | change (source : SourceId) (frame : FrameSource) :
      VideoStep o w (.changed source) (w.setSource source frame)
  | tick {t : Ticker} {v : VideoState} {frame : FrameSource} (hv : w.video? o = some v)
      (ht : t.screen = v.screen) (hframe : w.source? t.source = some frame) :
      VideoStep o w (.ticked ⟨t.source, frame⟩ (w.tick t).1) (w.tick t).2
  | render {s s' : State} {outcome : RenderOutcome} (hs : s.world = w)
      (h : Run.render o s = .ok outcome s') :
      VideoStep o w (.rendered (w.shot? o) outcome) s'.world

/-- What has happened so far to a video that was new at first, oldest first, and the world that it
has led to. -/
inductive VideoHistory (o : ObjectId) : List VideoEvent → World → Prop
  | fresh {w : World} {v : VideoState} (h : w.Unopened o v) : VideoHistory o [] w
  | snoc {l : List VideoEvent} {e : VideoEvent} {w w' : World} (h : VideoHistory o l w)
      (hs : VideoStep o w e w') : VideoHistory o (l ++ [e]) w'

inductive VideoSteps (o : ObjectId) (w : World) : List VideoEvent → World → Prop
  | refl : VideoSteps o w [] w
  | snoc {l : List VideoEvent} {e : VideoEvent} {w₁ w₂ : World} (h : VideoSteps o w l w₁)
      (hs : VideoStep o w₁ e w₂) : VideoSteps o w (l ++ [e]) w₂

namespace World

structure Plays (w : World) (o : ObjectId) (v : VideoState) (r : Option Reel) : Prop where
  sound : w.Sound
  video : w.video? o = some v
  screen : v.screen < w.screens.length
  holds : v.Holds (w.screen v.screen).pixels r

variable {w w' : World} {o : ObjectId} {v v' : VideoState} {r : Option Reel}

/-- A video is new when it has just been made. -/
theorem unopened_spawn (hs : w.Sound) {cls : ClassId} (hc : cls < w.classes.size) :
    (w.spawn cls .video).2.Unopened (w.spawn cls .video).1 (.initial w.screens.length) := by
  have hscreens : (w.spawn cls .video).2.screens = w.screens ++ [.initial] := by
    obtain ⟨f, rest, hf⟩ := hs.exists_frame
    unfold spawn newInstance
    dsimp only [newBacking]
    rw [hf]
  have hdark : ((w.spawn cls .video).2.screen w.screens.length).pixels = [] := by
    rw [World.screen, hscreens, List.getElem?_concat_length]
    rfl
  refine ⟨(Step.newInstance .video hc).steps.sound hs, ?_, ?_, rfl, .inl rfl, hdark⟩
  · rw [video?, (instance?_spawn_self hs cls .video).2]
    rfl
  · rw [hscreens, List.length_append]
    exact Nat.lt_succ_self _

theorem Unopened.initVideo {s s' : State} {args : List Value} (h : s.world.Unopened o v)
    (hrun : Run.initVideo o args s = .ok () s') :
    ∃ v', s'.world.Unopened o v' ∧ v'.width = v.width ∧ v'.height = v.height := by
  have hsound := ((Run.ends_initVideo h.sound o args).of_ok hrun).1.sound h.sound
  obtain ⟨f, hf, heq⟩ := Run.initVideo_run h.sound h.video args
  rw [hrun] at heq
  obtain rfl := (EStateM.Result.ok.inj heq).2
  have hscreens := h.sound.screens_putVideo h.video { v with fallbackRate := s.world.fallbackRate }
  have hlt := hscreens ▸ h.screen
  have hvideo := h.sound.video?_putVideo h.video { v with fallbackRate := s.world.fallbackRate }
  refine ⟨_, ⟨hsound, hvideo, ?_, h.dark.unready, h.dark.unknown, ?_⟩, rfl, rfl⟩
  · rw [length_setScreen]
    exact hlt
  · rw [screen_setScreen hlt, hf, screen_congr hscreens]
    exact h.dark.empty

theorem Unopened.plays (h : w.Unopened o v) : w.Plays o v none :=
  ⟨h.sound, h.video, h.screen, h.dark⟩

theorem Plays.unique (h : w.Plays o v r) (hv : w.video? o = some v') : v' = v :=
  Option.some.inj (hv.symm.trans h.video)

theorem KeepsVideo.plays (hk : w.KeepsVideo o w') (h : w.Plays o v r) : w'.Plays o v r where
  sound := hk.steps.sound h.sound
  video := hk.video.trans h.video
  screen := Nat.lt_of_lt_of_le h.screen hk.screens
  holds := by
    rw [hk.pixels v h.video]
    exact h.holds

end World

namespace VideoStep

variable {o : ObjectId} {w w' : World} {v : VideoState} {r : Option Reel} {e : VideoEvent}

theorem attach_plays {source : SourceId} (h : VideoStep o w (.attached source) w')
    (hp : w.Plays o v r) :
    w'.Plays o { v with stream := some source } r ∧ w'.decoders = w.decoders := by
  cases h with
  | @attach args s s' v' source hs hrun hv hsource =>
    subst hs
    have hsteps := ((Run.ends_attachNetStream o args).of_ok hrun).1
    obtain ⟨v₀, source', hv₀, rfl⟩ := Run.attachNetStream_ok hrun
    obtain rfl := hp.unique hv₀
    have hvideo := hp.sound.video?_putVideo hv₀ { v₀ with stream := some source' }
    obtain rfl := Option.some.inj (hvideo.symm.trans hv)
    obtain rfl := Option.some.inj hsource
    have hscreens := hp.sound.screens_putVideo hv₀ { v₀ with stream := some source' }
    refine ⟨⟨hsteps.sound hp.sound, hvideo, ?_, ?_⟩, hp.sound.decoders_putVideo hv₀ _⟩
    · rw [hscreens]
      exact hp.screen
    · rw [screen_congr hscreens]
      exact VideoState.Holds.attach hp.holds _

theorem tick_plays {shot : Shot} {copied : Bool} (h : VideoStep o w (.ticked shot copied) w')
    (hp : w.Plays o v r) :
    copied = r.isSome ∧ w'.Plays o v (r.map (·.taken shot)) ∧ (copied = false → w' = w) := by
  cases h with
  | @tick t v' frame hv ht hframe =>
    obtain rfl := hp.unique hv
    rw [tick_eq hframe, ht]
    have hown : w.SameOwners (w.setScreen v'.screen ((w.screen v'.screen).tick frame).2) :=
      ⟨rfl, rfl, rfl, rfl, rfl, rfl, rfl⟩
    obtain ⟨hcopied, hholds⟩ := hp.holds.tick ⟨t.source, frame⟩
    refine ⟨hcopied, ⟨(Step.background hown).sound hp.sound, hv, ?_, ?_⟩, fun hfalse => ?_⟩
    · rw [length_setScreen]
      exact hp.screen
    · rw [screen_setScreen hp.screen]
      exact hholds
    · rw [VideoState.tick_of_not_copied hfalse, setScreen_self hp.screen]

theorem render_plays {seen : Option Shot} {outcome : RenderOutcome}
    (h : VideoStep o w (.rendered seen outcome) w') (hp : w.Plays o v r) :
    ∃ v', Rendered r v (w.screen v.screen) seen (.ok outcome (v', w'.screen v'.screen)) ∧
      v'.screen = v.screen ∧ w'.Plays o v' ((VideoEvent.rendered seen outcome).edit r) ∧
      w'.decoders = w.decoders := by
  cases h with
  | @render s s' outcome hs hrun =>
    subst hs
    have hsteps := ((Run.ends_render hp.sound o).of_ok hrun).1
    have hrendered := VideoState.rendered hp.holds (s.world.shot? o)
    rw [Run.render_run hp.video] at hrun
    cases hr : v.render (s.world.screen v.screen) ((s.world.shot? o).map Shot.frame) with
    | error f left => rw [hr] at hrun; cases hrun
    | ok outcome' left =>
      obtain ⟨v', screen'⟩ := left
      rw [hr] at hrun hrendered
      obtain ⟨rfl, rfl⟩ := EStateM.Result.ok.inj hrun
      have hscreens := hp.sound.screens_putVideo hp.video v'
      have hscreen := hrendered.screen_eq
      have hlt : v'.screen < (s.world.putVideo o v').screens.length := by
        rw [hscreens, hscreen]
        exact hp.screen
      have hafter : (s.world.putFrame o v' screen').screen v'.screen = screen' :=
        screen_setScreen hlt screen'
      refine ⟨v', ?_, hscreen,
        ⟨hsteps.sound hp.sound, hp.sound.video?_putVideo hp.video v', ?_, ?_⟩,
        hp.sound.decoders_putVideo hp.video v'⟩
      · rw [hafter]
        exact hrendered
      · exact (length_setScreen _ _ _).symm ▸ hlt
      · rw [hafter]
        exact hrendered.holds hp.holds

theorem plays (h : VideoStep o w e w') (hp : w.Plays o v r) : ∃ v', w'.Plays o v' (e.edit r) := by
  cases e with
  | elsewhere =>
    cases h with
    | elsewhere hk => exact ⟨v, hk.plays hp⟩
  | attached source => exact ⟨_, (h.attach_plays hp).1⟩
  | changed source =>
    cases h with
    | change source frame =>
      have hown : w.SameOwners (w.setSource source frame) := ⟨rfl, rfl, rfl, rfl, rfl, rfl, rfl⟩
      exact ⟨v, (Step.background hown).sound hp.sound, hp.video, hp.screen, hp.holds⟩
  | ticked shot copied => exact ⟨v, (h.tick_plays hp).2.1⟩
  | rendered seen outcome =>
    obtain ⟨v', -, -, hp', -⟩ := h.render_plays hp
    exact ⟨v', hp'⟩

/-- The reel of a locked size goes on with the picture that locked it. -/
theorem opening_eq {reel : Reel} (h : VideoStep o w e w') (hp : w.Plays o v (some reel)) :
    ∃ reel', e.edit (some reel) = some reel' ∧ reel'.opening = reel.opening := by
  cases e with
  | rendered seen outcome =>
    obtain ⟨v', hrendered, -⟩ := h.render_plays hp
    exact hrendered.opening_eq
  | ticked shot copied => exact ⟨_, rfl, rfl⟩
  | _ => exact ⟨reel, rfl, rfl⟩

theorem started_iff {seen : Option Shot} {outcome : RenderOutcome}
    (h : VideoStep o w (.rendered seen outcome) w') (hp : w.Plays o v r) :
    (∃ interval, outcome = .started interval) ↔
      r = none ∧ (VideoEvent.rendered seen outcome).seesSize := by
  obtain ⟨v', hrendered, -⟩ := h.render_plays hp
  exact hrendered.started_iff

theorem edit_none_iff (h : VideoStep o w e w') (hp : w.Plays o v none) :
    e.edit none = none ↔ ¬e.seesSize := by
  cases e with
  | rendered seen outcome =>
    obtain ⟨v', hrendered, -⟩ := h.render_plays hp
    exact hrendered.edit_none_iff
  | _ => simp [VideoEvent.edit, VideoEvent.seesSize]

end VideoStep

theorem VideoSteps.single {o : ObjectId} {w w' : World} {e : VideoEvent}
    (h : VideoStep o w e w') : VideoSteps o w [e] w' :=
  .snoc .refl h

theorem VideoSteps.trans {o : ObjectId} {w w₁ w₂ : World} {l k : List VideoEvent}
    (h : VideoSteps o w l w₁) (h' : VideoSteps o w₁ k w₂) : VideoSteps o w (l ++ k) w₂ := by
  induction h' with
  | refl => rwa [List.append_nil]
  | snoc _ hs ih =>
    rw [← List.append_assoc]
    exact ih.snoc hs

namespace VideoHistory

open VideoEvent

variable {o : ObjectId} {l k : List VideoEvent} {w : World}

theorem append {w' : World} (h : VideoHistory o l w) (hs : VideoSteps o w k w') :
    VideoHistory o (l ++ k) w' := by
  induction hs with
  | refl => rwa [List.append_nil]
  | snoc _ hs ih =>
    rw [← List.append_assoc]
    exact ih.snoc hs

theorem plays (h : VideoHistory o l w) : ∃ v, w.Plays o v (reel l) := by
  induction h with
  | fresh h => exact ⟨_, h.plays⟩
  | snoc h hs ih =>
    obtain ⟨v, hp⟩ := ih
    rw [reel_snoc]
    exact hs.plays hp

theorem plays_of_video {v : VideoState} (h : VideoHistory o l w) (hv : w.video? o = some v) :
    w.Plays o v (reel l) := by
  obtain ⟨v', hp⟩ := h.plays
  obtain rfl := hp.unique hv
  exact hp

theorem exists_of_snoc {e : VideoEvent} (h : VideoHistory o (l ++ [e]) w) :
    ∃ w₁, VideoHistory o l w₁ ∧ VideoStep o w₁ e w := by
  generalize hl : l ++ [e] = l' at h
  cases h with
  | fresh => simp at hl
  | snoc h hs =>
    obtain ⟨rfl, hlast⟩ := List.append_inj' hl rfl
    obtain rfl := List.singleton_inj.1 hlast
    exact ⟨_, h, hs⟩

theorem exists_of_append (h : VideoHistory o (l ++ k) w) : ∃ w₁, VideoHistory o l w₁ := by
  induction k using List.reverseRecOn generalizing w with
  | nil => exact ⟨w, List.append_nil l ▸ h⟩
  | append_singleton k e ih =>
    rw [← List.append_assoc] at h
    obtain ⟨w₁, h₁, -⟩ := h.exists_of_snoc
    exact ih h₁

theorem split_at {e : VideoEvent} (h : VideoHistory o (l ++ e :: k) w) :
    ∃ w₁ w₂, VideoHistory o l w₁ ∧ VideoStep o w₁ e w₂ := by
  rw [List.append_cons] at h
  obtain ⟨w₂, h₂⟩ := h.exists_of_append
  obtain ⟨w₁, h₁, hs⟩ := h₂.exists_of_snoc
  exact ⟨w₁, w₂, h₁, hs⟩

theorem reel_eq_none_iff (h : VideoHistory o l w) : reel l = none ↔ ∀ e ∈ l, ¬e.seesSize := by
  induction h with
  | fresh => simp [reel]
  | @snoc l e w w' h hs ih =>
    obtain ⟨v, hp⟩ := h.plays
    rw [List.forall_mem_append, List.forall_mem_singleton, ← ih, reel_snoc]
    cases hr : reel l with
    | none =>
      rw [hr] at hp
      rw [hs.edit_none_iff hp]
      exact (and_iff_right rfl).symm
    | some r =>
      rw [hr] at hp
      obtain ⟨r', hedit, -⟩ := hs.opening_eq hp
      simp [hedit]

/-- A size that is locked stays locked. -/
theorem opening_eq {r : Reel} (h : VideoHistory o (l ++ k) w) (hr : reel l = some r) :
    ∃ r', reel (l ++ k) = some r' ∧ r'.opening = r.opening := by
  induction k using List.reverseRecOn generalizing w with
  | nil => exact ⟨r, by rw [List.append_nil, hr], rfl⟩
  | append_singleton k e ih =>
    rw [← List.append_assoc] at h ⊢
    obtain ⟨w₁, h₁, hs⟩ := h.exists_of_snoc
    obtain ⟨r₁, hr₁, heq₁⟩ := ih h₁
    obtain ⟨v, hp⟩ := h₁.plays
    rw [hr₁] at hp
    obtain ⟨r₂, hr₂, heq₂⟩ := hs.opening_eq hp
    exact ⟨r₂, by rw [reel_snoc, hr₁, hr₂], heq₂.trans heq₁⟩

end VideoHistory

end ScriptPlayer
