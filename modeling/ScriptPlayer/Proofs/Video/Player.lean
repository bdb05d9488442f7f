import ScriptPlayer.Proofs.Run.Interpreter
import ScriptPlayer.Proofs.Video.History

/-! A video that only the player renders. Then nothing ticks its screen but the decoders that the
player has started, and each of them goes on with the source that was attached when it started. -/
namespace ScriptPlayer

namespace World

variable {w w' : World} {o : ObjectId} {v : VideoState} {d : DecoderId}

def tickers (w : World) (screen : ScreenId) : List Ticker :=
  (w.decoders.map Decoder.ticker).filter (·.screen = screen)

theorem tickers_congr (h : w'.decoders.map Decoder.ticker = w.decoders.map Decoder.ticker)
    (screen : ScreenId) : w'.tickers screen = w.tickers screen := by
  rw [tickers, h, tickers]

theorem tickers_submitDecoder (w : World) (t : Ticker) (interval : Nanos) :
    (w.submitDecoder t interval).tickers t.screen = w.tickers t.screen ++ [t] := by
  simp [tickers, submitDecoder]

theorem mem_tickers {decoder : Decoder} (hd : w.decoders[d]? = some decoder) :
    decoder.ticker ∈ w.tickers decoder.ticker.screen :=
  List.mem_filter.2 ⟨List.mem_map_of_mem (List.mem_of_getElem? hd), decide_eq_true rfl⟩

theorem KeepsVideo.background (h : w.SameOwners w') (hscreens : w'.screens = w.screens)
    (hsources : w'.sources = w.sources) : w.KeepsVideo o w' where
  steps := (Step.background h).steps
  video := by rw [video?, instance?, h.heap, video?, instance?]
  screens := Nat.le_of_eq (congrArg List.length hscreens.symm)
  pixels v _ := by rw [screen_congr hscreens]
  sources := hsources ▸ List.prefix_rfl

theorem KeepsVideo.trans {w₁ w₂ w₃ : World} (h : w₁.KeepsVideo o w₂) (h' : w₂.KeepsVideo o w₃) :
    w₁.KeepsVideo o w₃ where
  steps := h.steps.trans h'.steps
  video := h'.video.trans h.video
  screens := Nat.le_trans h.screens h'.screens
  pixels v hv := (h'.pixels v (h.video.trans hv)).trans (h.pixels v hv)
  sources := h.sources.trans h'.sources

theorem keepsVideo_decoders (w : World) (o : ObjectId) (decoders : List Decoder) :
    w.KeepsVideo o { w with decoders := decoders } :=
  .background ⟨rfl, rfl, rfl, rfl, rfl, rfl, rfl⟩ rfl rfl

def serve (w : World) : RenderOutcome → Option Ticker → World
  | .started interval, some t => w.submitDecoder t interval
  | _, _ => w

@[simp] theorem serve_notReady (w : World) (t : Option Ticker) : w.serve .notReady t = w := rfl

@[simp] theorem serve_presented (w : World) (t : Option Ticker) : w.serve .presented t = w := rfl

theorem keepsVideo_serve (w : World) (o : ObjectId) (outcome : RenderOutcome)
    (t : Option Ticker) : w.KeepsVideo o (w.serve outcome t) := by
  unfold serve
  split
  · exact .background ⟨rfl, rfl, rfl, rfl, rfl, rfl, rfl⟩ rfl rfl
  · exact keepsVideo_decoders w o w.decoders

theorem keepsVideo_tick {t : Ticker} (ht : ∀ v, w.video? o = some v → t.screen ≠ v.screen) :
    w.KeepsVideo o (w.tick t).2 where
  steps := (Step.background (sameOwners_tick w t)).steps
  video := by rw [video?, instance?, (sameOwners_tick w t).heap, video?, instance?]
  screens := by
    unfold tick
    split
    · exact Nat.le_refl _
    · exact Nat.le_of_eq (length_setScreen w _ _).symm
  pixels v hv := by
    unfold tick
    split
    · rfl
    · simp only [screen, setScreen]
      rw [List.getElem?_set_ne (ht v hv)]
  sources := by
    unfold tick
    split <;> exact List.prefix_rfl

theorem tickers_enter (w : World) (d : DecoderId) (phase : DecoderPhase) (screen : ScreenId) :
    (w.enter d phase).tickers screen = w.tickers screen := by
  refine tickers_congr ?_ screen
  apply List.ext_getElem?
  intro i
  rw [enter, modifyDecoder, List.getElem?_map, List.getElem?_map, List.getElem?_modify]
  cases w.decoders[i]? with
  | none => rfl
  | some decoder => by_cases hi : d = i <;> simp [hi]

theorem tickers_tick (w : World) (t : Ticker) (screen : ScreenId) :
    (w.tick t).2.tickers screen = w.tickers screen := by
  refine tickers_congr ?_ screen
  unfold tick
  split <;> rfl

/-- What a step of a decoder is to a video: a tick, if it is about to tick the video's screen. -/
def decodeEvents (w : World) (o : ObjectId) (d : DecoderId) : List VideoEvent :=
  match w.decoders[d]?, w.video? o with
  | some decoder, some v =>
    if decoder.phase = .ticking ∧ decoder.ticker.screen = v.screen then
      match w.source? decoder.ticker.source with
      | some frame =>
        [.ticked ⟨decoder.ticker.source, frame⟩ (w.tick decoder.ticker).1, .elsewhere]
      | none => [.elsewhere]
    else [.elsewhere]
  | _, _ => [.elsewhere]

def moveEvents (w : World) (o : ObjectId) : Move → List VideoEvent
  | .start _ => [.elsewhere]
  | .step k =>
    match w.pool.jobOf? k with
    | some (.decode d) => if w.isJobDone (.decode d) then [.elsewhere] else w.decodeEvents o d
    | _ => [.elsewhere]

end World

open World

/-- What the player, scripts and decoders can do as long as a video is ticked by nothing but the
decoders that the player has started for it. -/
inductive PlayerStep (o : ObjectId) (w : World) : List VideoEvent → World → Prop
  | elsewhere {w' : World} (h : w.KeepsVideo o w')
      (ht : ∀ v, w.video? o = some v → w'.tickers v.screen = w.tickers v.screen) :
      PlayerStep o w [.elsewhere] w'
  | attach {source : SourceId} {w' : World} (h : VideoStep o w (.attached source) w') :
      PlayerStep o w [.attached source] w'
  | change (source : SourceId) (frame : FrameSource) :
      PlayerStep o w [.changed source] (w.setSource source frame)
  | decode {d : DecoderId} {decoder : Decoder} {v : VideoState} {frame : FrameSource}
      (hd : w.decoders[d]? = some decoder) (hphase : decoder.phase = .ticking)
      (hv : w.video? o = some v) (hscreen : decoder.ticker.screen = v.screen)
      (hframe : w.source? decoder.ticker.source = some frame) :
      PlayerStep o w [.ticked ⟨decoder.ticker.source, frame⟩ (w.tick decoder.ticker).1, .elsewhere]
        ((w.tick decoder.ticker).2.enter d .testing)
  | render {s s' : State} {outcome : RenderOutcome} (hs : s.world = w)
      (h : Run.renderVideo o s = .ok outcome s') :
      PlayerStep o w [.rendered (w.shot? o) outcome, .elsewhere] s'.world

/-- What has happened so far to a new video that only the player renders. -/
inductive PlayerHistory (o : ObjectId) : List VideoEvent → World → Prop
  | fresh {w : World} {v : VideoState} (h : w.Unopened o v) (ht : w.tickers v.screen = []) :
      PlayerHistory o [] w
  | snoc {l k : List VideoEvent} {w w' : World} (h : PlayerHistory o l w)
      (hs : PlayerStep o w k w') : PlayerHistory o (l ++ k) w'

namespace PlayerStep

variable {o : ObjectId} {w w' : World} {k : List VideoEvent}

theorem keeps_enter (w : World) (o : ObjectId) (d : DecoderId) (phase : DecoderPhase) :
    PlayerStep o w [.elsewhere] (w.enter d phase) :=
  .elsewhere (keepsVideo_decoders w o _) fun v _ => tickers_enter w d phase v.screen

theorem of_stepDecoder {d : DecoderId} (h : w.stepDecoder d = some w') :
    PlayerStep o w (w.decodeEvents o d) w' := by
  obtain ⟨decoder, hd, ⟨hphase, phase, rfl⟩ | ⟨hphase, rfl⟩⟩ := stepDecoder_cases h
  · have hevents : w.decodeEvents o d = [.elsewhere] := by
      rw [decodeEvents, hd]
      cases w.video? o <;> simp [hphase]
    rw [hevents]
    exact keeps_enter w o d phase
  -- a tick that the video does not see: it is gone, or the screen is that of another
  have hother : (∀ v, w.video? o = some v → decoder.ticker.screen ≠ v.screen) →
      PlayerStep o w [.elsewhere] ((w.tick decoder.ticker).2.enter d .testing) := fun hne =>
    .elsewhere ((keepsVideo_tick hne).trans (keepsVideo_decoders _ o _)) fun v _ =>
      (tickers_enter _ d .testing v.screen).trans (tickers_tick w decoder.ticker v.screen)
  unfold decodeEvents
  rw [hd]
  cases hv : w.video? o with
  | none => exact hother fun v hv' => by simp [hv] at hv'
  | some v =>
    dsimp only
    by_cases hscreen : decoder.ticker.screen = v.screen
    · rw [if_pos ⟨hphase, hscreen⟩]
      cases hframe : w.source? decoder.ticker.source with
      | none =>
        have htick : w.tick decoder.ticker = (false, w) := by
          unfold tick
          rw [hframe]
        rw [htick]
        exact keeps_enter w o d .testing
      | some frame => exact .decode hd hphase hv hscreen hframe
    · rw [if_neg fun h => hscreen h.2]
      refine hother fun v' hv' => ?_
      obtain rfl := Option.some.inj (hv.symm.trans hv')
      exact hscreen

/-- Whatever a worker does is a step of the player. -/
theorem of_move {move : Move} (h : w.move move = some w') :
    PlayerStep o w (w.moveEvents o move) w' := by
  have hquiet : ∀ {w₁ : World}, w.SameOwners w₁ → w₁.screens = w.screens →
      w₁.sources = w.sources → w₁.decoders = w.decoders → PlayerStep o w [.elsewhere] w₁ :=
    fun hown hscreens hsources hdecoders => .elsewhere (.background hown hscreens hsources)
      fun v _ => tickers_congr (congrArg _ hdecoders) v.screen
  have hown := sameOwners_move h
  cases move with
  | start k =>
    obtain ⟨r, -, rfl⟩ := Option.map_eq_some_iff.1 h
    exact hquiet hown rfl rfl rfl
  | step k =>
    obtain ⟨job, hjob, h⟩ := Option.bind_eq_some_iff.1 h
    rw [moveEvents, hjob]
    split at h
    · rename_i hdone
      obtain ⟨pool, -, rfl⟩ := Option.map_eq_some_iff.1 h
      cases job with
      | timer r => exact hquiet hown rfl rfl rfl
      | decode d =>
        dsimp only
        rw [if_pos hdone]
        exact hquiet hown rfl rfl rfl
    · rename_i hdone
      cases job with
      | timer r =>
        obtain ⟨c, -, rfl⟩ := Option.map_eq_some_iff.1 h
        exact hquiet hown rfl rfl rfl
      | decode d =>
        dsimp only
        rw [if_neg hdone]
        exact .of_stepDecoder h

end PlayerStep

namespace Run

variable {s s' : State} {o : ObjectId} {outcome : RenderOutcome}

theorem renderVideo_ok (h : renderVideo o s = .ok outcome s') :
    ∃ s₁ v, render o s = .ok outcome s₁ ∧ s₁.world.video? o = some v ∧
      s'.world = s₁.world.serve outcome (v.ticker? o) := by
  obtain ⟨outcome', s₁, hrender, h⟩ := exists_of_bind_ok h
  obtain ⟨ticker, s₂, hticker, h⟩ := exists_of_bind_ok h
  obtain ⟨v, s₃, hvideo, hpure⟩ := exists_of_bind_ok hticker
  obtain ⟨rfl, hv⟩ := videoOf_ok hvideo
  obtain ⟨rfl, rfl⟩ := EStateM.Result.ok.inj hpure
  have hserved : outcome' = outcome ∧ s'.world = s₃.world.serve outcome' (v.ticker? o) := by
    generalize v.ticker? o = t at h
    cases outcome' <;> cases t <;> obtain ⟨rfl, rfl⟩ := EStateM.Result.ok.inj h <;> exact ⟨rfl, rfl⟩
  obtain ⟨rfl, hw⟩ := hserved
  exact ⟨s₃, v, hrender, hv, hw⟩

end Run

namespace PlayerStep

variable {o : ObjectId} {w w' : World} {k : List VideoEvent}

theorem steps (h : PlayerStep o w k w') : VideoSteps o w k w' := by
  cases h with
  | elsewhere h => exact .single (.elsewhere h)
  | attach h => exact .single h
  | change source frame => exact .single (.change source frame)
  | decode hd hphase hv hscreen hframe =>
    exact (VideoSteps.single (.tick hv hscreen hframe)).snoc
      (.elsewhere (keepsVideo_decoders _ o _))
  | render hs h =>
    obtain ⟨s₁, v, hrender, -, hw⟩ := Run.renderVideo_ok h
    rw [hw]
    exact (VideoSteps.single (.render hs hrender)).snoc (.elsewhere (keepsVideo_serve _ o _ _))

end PlayerStep

theorem PlayerHistory.history {o : ObjectId} {l : List VideoEvent} {w : World}
    (h : PlayerHistory o l w) : VideoHistory o l w := by
  induction h with
  | fresh h => exact .fresh h
  | snoc _ hs ih => exact ih.append hs.steps

/-- What is on a reel was taken from the source that locked the size, and the tickers take from no
other. -/
structure Reel.OneSource (r : Reel) (tickers : List Ticker) : Prop where
  tickers : ∀ t ∈ tickers, t.source = r.opening.source
  latest : r.latest.source = r.opening.source
  front : r.front.source = r.opening.source

def World.Served (w : World) (screen : ScreenId) : Option Reel → Prop
  | none => w.tickers screen = []
  | some r => r.OneSource (w.tickers screen)

theorem World.Served.congr {w w' : World} {screen : ScreenId} {r : Option Reel}
    (h : w.Served screen r) (ht : w'.tickers screen = w.tickers screen) : w'.Served screen r := by
  unfold Served at h ⊢
  rwa [ht]

namespace PlayerStep

open VideoEvent

variable {o : ObjectId} {w w' : World} {v : VideoState} {r : Option Reel} {k : List VideoEvent}

/-- Rendering starts a ticker just with the size, for the source that has locked it. -/
theorem served_serve {s s₁ : State} {outcome : RenderOutcome} {v' : VideoState}
    (hrun : Run.render o s = .ok outcome s₁) (hv' : s₁.world.video? o = some v')
    (hp : s.world.Plays o v r) (hserved : s.world.Served v.screen r) :
    (s₁.world.serve outcome (v'.ticker? o)).Served v'.screen
      ((VideoEvent.rendered (s.world.shot? o) outcome).edit r) := by
  obtain ⟨v₁, hrendered, hscreen, hp', hdecoders⟩ :=
    VideoStep.render_plays (.render rfl hrun) hp
  obtain rfl := hp'.unique hv'
  have htickers : s₁.world.tickers v'.screen = s.world.tickers v.screen := by
    rw [hscreen]
    exact tickers_congr (congrArg _ hdecoders) v.screen
  have hstream := hrendered.stream_eq
  generalize hseen : s.world.shot? o = seen at hrendered ⊢
  generalize s₁.world.screen v'.screen = screen' at hrendered
  unfold World.Served at hserved ⊢
  cases hrendered with
  | unattached | unsized => rwa [serve_notReady, htickers]
  | presented hr =>
    subst hr
    rw [serve_presented, htickers]
    exact ⟨hserved.tickers, hserved.latest, hserved.latest⟩
  | @opened shot interval hr =>
    subst hr
    have hticker : (v.opened shot.frame).ticker? o = some ⟨shot.source, v.screen, o⟩ := by
      rw [VideoState.ticker?, hstream, stream_of_shot? hp.video hseen]
      rfl
    rw [hticker]
    refine ⟨fun t ht => ?_, rfl, rfl⟩
    rw [hscreen, hserved] at htickers
    have happend := tickers_submitDecoder s₁.world ⟨shot.source, v.screen, o⟩ interval
    rw [htickers] at happend
    obtain rfl := List.mem_singleton.1 (happend ▸ ht)
    rfl

theorem served (h : PlayerStep o w k w') (hp : w.Plays o v r) (hserved : w.Served v.screen r) :
    ∃ v', w'.Plays o v' (k.foldl edit r) ∧ w'.Served v'.screen (k.foldl edit r) := by
  cases h with
  | elsewhere h ht => exact ⟨v, h.plays hp, hserved.congr (ht v hp.video)⟩
  | attach h =>
    obtain ⟨hp', hdecoders⟩ := h.attach_plays hp
    exact ⟨_, hp', hserved.congr (tickers_congr (congrArg _ hdecoders) v.screen)⟩
  | change source frame =>
    obtain ⟨v', hp'⟩ := VideoStep.plays (.change source frame) hp
    obtain rfl := hp'.unique hp.video
    exact ⟨_, hp', hserved⟩
  | @decode d decoder v₁ frame hd hphase hv hscreen hframe =>
    obtain rfl := hp.unique hv
    obtain ⟨-, hp', -⟩ := VideoStep.tick_plays (.tick hv hscreen hframe) hp
    have hkeep := keepsVideo_decoders (w.tick decoder.ticker).2 o
      ((w.tick decoder.ticker).2.enter d .testing).decoders
    have htickers := (tickers_enter (w.tick decoder.ticker).2 d .testing v₁.screen).trans
      (tickers_tick w decoder.ticker v₁.screen)
    refine ⟨v₁, hkeep.plays hp', ?_⟩
    cases r with
    | none => exact htickers.trans hserved
    | some reel =>
      -- so the picture is taken from the source that locked the size
      have hmem : decoder.ticker ∈ w.tickers v₁.screen := hscreen ▸ mem_tickers hd
      refine ⟨?_, hserved.tickers _ hmem, hserved.front⟩
      rw [htickers]
      exact hserved.tickers
  | @render s s' outcome hs h =>
    subst hs
    obtain ⟨s₁, v', hrun, hv', hw⟩ := Run.renderVideo_ok h
    obtain ⟨v₁, hp'⟩ := VideoStep.plays (.render rfl hrun) hp
    obtain rfl := hp'.unique hv'
    have hserve := served_serve hrun hv' hp hserved
    rw [hw]
    exact ⟨v', (keepsVideo_serve _ o _ _).plays hp', hserve⟩

end PlayerStep

namespace PlayerHistory

open VideoEvent

variable {o : ObjectId} {l : List VideoEvent} {w : World}

/-- Whatever is attached meanwhile, everything is taken from the source that locked the size. -/
theorem served (h : PlayerHistory o l w) :
    ∃ v, w.Plays o v (reel l) ∧ w.Served v.screen (reel l) := by
  induction h with
  | fresh h ht => exact ⟨_, h.plays, ht⟩
  | snoc _ hs ih =>
    obtain ⟨v, hp, hserved⟩ := ih
    rw [reel_append]
    exact hs.served hp hserved

end PlayerHistory

end ScriptPlayer
