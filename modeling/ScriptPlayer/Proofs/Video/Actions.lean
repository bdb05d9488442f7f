import ScriptPlayer.Player.Basic
import ScriptPlayer.Proofs.Run.Builtins
import ScriptPlayer.Proofs.Video.Reel
import ScriptPlayer.Proofs.World.Storing

/-! What the built-ins and the decode side do to the state of a video and to its screen. -/
namespace ScriptPlayer

namespace Instance

def video? (i : Instance) : Option VideoState :=
  match i.backing with
  | .host (.video v) => some v
  | _ => none

variable {i : Instance} {v : VideoState}

theorem video?_eq_some : i.video? = some v ↔ i.backing = .host (.video v) := by
  unfold video?
  split
  · rename_i v' hb
    simp [hb]
  · rename_i hb
    simpa using hb v

theorem videoState_of_video? (h : i.video? = some v) (t : ClassTable) :
    i.videoState t = .ok v := by
  have hp : i.payload t = .ok (.video v) := by
    unfold payload
    rw [video?_eq_some.1 h]
  unfold videoState
  rw [hp]
  rfl

theorem video?_of_videoState {t : ClassTable} (h : i.videoState t = .ok v) : i.video? = some v :=
  video?_eq_some.2 (backing_of_videoState h)

theorem handles_setVideoState (h : i.video? = some v) (v' : VideoState) :
    (i.setVideoState v').handles = i.handles := by
  unfold setVideoState handles
  rw [video?_eq_some.1 h]
  rfl

end Instance

namespace World

variable {w w' : World} {o : ObjectId} {v v' : VideoState} {screen : Screen} {s : ScreenId}

def video? (w : World) (o : ObjectId) : Option VideoState := (w.instance? o).bind Instance.video?

def shot? (w : World) (o : ObjectId) : Option Shot :=
  (w.video? o).bind fun v => v.stream.bind fun source => (w.source? source).map (Shot.mk source)

def putVideo (w : World) (o : ObjectId) (v : VideoState) : World :=
  match w.instance? o with
  | some i => w.putInstance o (i.setVideoState v)
  | none => w

theorem frame_shot? (hv : w.video? o = some v) :
    (w.shot? o).map Shot.frame = v.stream.bind w.source? := by
  rw [shot?, hv, Option.bind_some]
  cases v.stream with
  | none => rfl
  | some source =>
    rw [Option.bind_some, Option.bind_some, Option.map_map]
    exact Option.map_id_apply

theorem stream_of_shot? (hv : w.video? o = some v) {shot : Shot} (h : w.shot? o = some shot) :
    v.stream = some shot.source := by
  rw [shot?, hv, Option.bind_some] at h
  obtain ⟨source, hsource, hshot⟩ := Option.bind_eq_some_iff.1 h
  obtain ⟨frame, -, rfl⟩ := Option.map_eq_some_iff.1 hshot
  exact hsource

theorem Sound.putVideo_eq (hs : w.Sound) (hv : w.video? o = some v) (v' : VideoState) :
    ∃ i, w.instance? o = some i ∧ w.putVideo o v' =
      { w with heap := w.heap.setContent o (.instanceOf (i.setVideoState v')) } := by
  obtain ⟨i, hi, hvideo⟩ := Option.bind_eq_some_iff.1 hv
  refine ⟨i, hi, ?_⟩
  unfold putVideo
  rw [hi]
  exact hs.putInstance_of_handles hi (Instance.handles_setVideoState hvideo v')

theorem Sound.video?_putVideo (hs : w.Sound) (hv : w.video? o = some v) (v' : VideoState) :
    (w.putVideo o v').video? o = some v' := by
  obtain ⟨i, hi, hput⟩ := hs.putVideo_eq hv v'
  have hcontent := Heap.content?_setContent (Heap.instance?_eq_some_iff.1 hi)
    (.instanceOf (i.setVideoState v')) o
  rw [if_pos rfl] at hcontent
  have hi' : (w.putVideo o v').instance? o = some (i.setVideoState v') := by
    rw [hput]
    exact Heap.instance?_eq_some_iff.2 hcontent
  rw [video?, hi']
  rfl

theorem Sound.screens_putVideo (hs : w.Sound) (hv : w.video? o = some v) (v' : VideoState) :
    (w.putVideo o v').screens = w.screens := by
  obtain ⟨i, -, hput⟩ := hs.putVideo_eq hv v'
  rw [hput]

theorem Sound.decoders_putVideo (hs : w.Sound) (hv : w.video? o = some v) (v' : VideoState) :
    (w.putVideo o v').decoders = w.decoders := by
  obtain ⟨i, -, hput⟩ := hs.putVideo_eq hv v'
  rw [hput]

theorem screen_congr (h : w'.screens = w.screens) (s : ScreenId) : w'.screen s = w.screen s := by
  rw [screen, h, screen]

theorem screen_setScreen (hs : s < w.screens.length) (screen : Screen) :
    (w.setScreen s screen).screen s = screen := by
  simp [World.screen, setScreen, hs]

theorem setScreen_self (hs : s < w.screens.length) : w.setScreen s (w.screen s) = w := by
  simp [setScreen, World.screen, hs]

@[simp] theorem length_setScreen (w : World) (s : ScreenId) (screen : Screen) :
    (w.setScreen s screen).screens.length = w.screens.length := by
  simp [setScreen]

def putFrame (w : World) (o : ObjectId) (v : VideoState) (screen : Screen) : World :=
  (w.putVideo o v).setScreen v.screen screen

theorem Sound.putFrame_self (hs : w.Sound) (hv : w.video? o = some v)
    (hscreen : v.screen < w.screens.length) : w.putFrame o v (w.screen v.screen) = w := by
  obtain ⟨i, hi, hvideo⟩ := Option.bind_eq_some_iff.1 hv
  have hsame : i.setVideoState v = i := by
    unfold Instance.setVideoState
    rw [← Instance.video?_eq_some.1 hvideo]
  have hput : w.putVideo o v = w := by
    unfold putVideo
    rw [hi]
    dsimp only
    rw [hsame]
    exact hs.putInstance_self hi
  rw [putFrame, hput, setScreen_self hscreen]

theorem tick_eq {t : Ticker} {frame : FrameSource} (h : w.source? t.source = some frame) :
    w.tick t = (((w.screen t.screen).tick frame).1,
      w.setScreen t.screen ((w.screen t.screen).tick frame).2) := by
  unfold tick
  rw [h]

end World

namespace Run

variable {s s' : State} {o : ObjectId} {v : VideoState}

theorem videoOf_run (hv : s.world.video? o = some v) : videoOf o s = .ok v s := by
  obtain ⟨i, hi, hvideo⟩ := Option.bind_eq_some_iff.1 hv
  unfold videoOf
  rw [bind_of_ok (instanceOf_run hi), bind_of_ok (m := world) rfl,
    Instance.videoState_of_video? hvideo]
  rfl

theorem videoOf_ok (h : videoOf o s = .ok v s') : s' = s ∧ s.world.video? o = some v := by
  refine ⟨(reads_videoOf o).eq_of_ok h, ?_⟩
  obtain ⟨i, s₁, hi, h⟩ := exists_of_bind_ok h
  obtain rfl := (reads_instanceOf o).eq_of_ok hi
  cases hw : s₁.world.instance? o with
  | none => rw [instanceOf_dangling hw] at hi; cases hi
  | some i' =>
    rw [instanceOf_run hw] at hi
    obtain rfl : i' = i := (EStateM.Result.ok.inj hi).1
    refine Option.bind_eq_some_iff.2 ⟨i', hw, ?_⟩
    rw [bind_of_ok (m := world) rfl] at h
    cases ht : i'.videoState s₁.world.classes with
    | ok v' =>
      rw [ht] at h
      obtain rfl : v' = v := (EStateM.Result.ok.inj h).1
      exact Instance.video?_of_videoState ht
    | error f => rw [ht] at h; cases h

theorem putVideo_run (hv : s.world.video? o = some v) (v' : VideoState) :
    putVideo o v' s = .ok () { s with world := s.world.putVideo o v' } := by
  obtain ⟨i, hi, -⟩ := Option.bind_eq_some_iff.1 hv
  unfold putVideo World.putVideo
  rw [bind_of_ok (instanceOf_run hi), hi]
  rfl

theorem updateScreen_run (hv : s.world.video? o = some v) (f : Screen → Screen) :
    updateScreen o f s = .ok ()
      { s with world := s.world.setScreen v.screen (f (s.world.screen v.screen)) } := by
  unfold updateScreen
  rw [bind_of_ok (videoOf_run hv)]
  rfl

theorem initVideo_run (hs : s.world.Sound) (hv : s.world.video? o = some v) (args : List Value) :
    ∃ f : Screen → Screen, (∀ screen, (f screen).pixels = screen.pixels) ∧
      let w := s.world.putVideo o { v with fallbackRate := s.world.fallbackRate }
      initVideo o args s =
        .ok () { s with world := w.setScreen v.screen (f (w.screen v.screen)) } := by
  refine ⟨fun screen => { screen with
    width := (args[0]?.map Value.toInt).getD screen.width
    height := (args[1]?.map Value.toInt).getD screen.height }, fun _ => rfl, ?_⟩
  unfold initVideo
  rw [bind_of_ok (videoOf_run hv), bind_of_ok (m := world) rfl, bind_of_ok (putVideo_run hv _)]
  have hvideo := hs.video?_putVideo hv { v with fallbackRate := s.world.fallbackRate }
  exact updateScreen_run (s := { s with world := s.world.putVideo o _ }) hvideo _

theorem attachNetStream_ok {args : List Value} (h : attachNetStream o args s = .ok () s') :
    ∃ v source, s.world.video? o = some v ∧
      s' = { s with world := s.world.putVideo o { v with stream := some source } } := by
  obtain ⟨_, s₁, hargs, hrest⟩ := exists_of_bind_ok h
  obtain rfl := (reads_requireArgs _ _ _).eq_of_ok hargs
  obtain ⟨source, s₂, hsource, hattach⟩ := exists_of_bind_ok hrest
  obtain rfl := (reads_sourceOf _).eq_of_ok hsource
  obtain ⟨v, s₃, hvideo, hput⟩ := exists_of_bind_ok hattach
  obtain ⟨rfl, hv⟩ := videoOf_ok hvideo
  rw [putVideo_run hv] at hput
  exact ⟨v, source, hv, (EStateM.Result.ok.inj hput).2.symm⟩

theorem putFrame_run (hv : s.world.video? o = some v) (v' : VideoState) (screen : Screen) :
    putFrame o v' screen s = .ok () { s with world := s.world.putFrame o v' screen } :=
  bind_of_ok (putVideo_run hv v') _

/-- What a run ends with when its render ends so: what that has left is stored, also when it has
aborted. -/
def rendering (o : ObjectId) (s : State) :
    EStateM.Result Fatal (VideoState × Screen) RenderOutcome →
      EStateM.Result Halt State RenderOutcome
  | .ok outcome left => .ok outcome { s with world := s.world.putFrame o left.1 left.2 }
  | .error f left => .error (.abort f) { s with world := s.world.putFrame o left.1 left.2 }

/-- A render is the render of the video's state with the screen and the source as they are. -/
theorem render_run (hv : s.world.video? o = some v) : render o s =
    rendering o s
      (v.render (s.world.screen v.screen) ((s.world.shot? o).map Shot.frame)) := by
  unfold render
  rw [bind_of_ok (videoOf_run hv), bind_of_ok (m := world) rfl, World.frame_shot? hv]
  cases v.render (s.world.screen v.screen) (v.stream.bind s.world.source?) with
  | ok outcome left => exact bind_of_ok (putFrame_run hv _ _) _
  | error f left => exact bind_of_ok (putFrame_run hv _ _) _

end Run

end ScriptPlayer
