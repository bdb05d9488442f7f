import ScriptPlayer.Proofs.Run.Changes

/-! The classes that a player makes instances of and the rate that its videos fall back on are
settled when it is set up. No operation, script or worker changes them, whether it returns, fails or
is cut off. -/
namespace ScriptPlayer

namespace World

/-- The player makes instances of the same classes, and its videos fall back on the same rate. -/
structure SameStaff (w w' : World) : Prop where
  core : w'.core = w.core
  runtime : w'.runtime = w.runtime
  fallbackRate : w'.fallbackRate = w.fallbackRate

variable {w w' w'' : World}

theorem SameStaff.refl (w : World) : w.SameStaff w := ⟨rfl, rfl, rfl⟩

theorem SameStaff.trans (h : w.SameStaff w') (h' : w'.SameStaff w'') : w.SameStaff w'' :=
  ⟨h'.core.trans h.core, h'.runtime.trans h.runtime, h'.fallbackRate.trans h.fallbackRate⟩

instance : IsPreorder World SameStaff where
  refl := .refl
  trans _ _ _ := .trans

theorem Reframes.sameStaff (h : w.Reframes w') : w.SameStaff w' := by
  cases h
  exact ⟨rfl, rfl, rfl⟩

theorem sameStaff_spawn (w : World) (cls : ClassId) (spec : BackingSpec) :
    w.SameStaff (w.spawn cls spec).2 := by
  have hbacking : w.SameStaff (w.newBacking spec).2 := by
    cases spec <;> exact ⟨rfl, rfl, rfl⟩
  exact hbacking.trans (reframes_newInstance _ _).sameStaff

theorem sameStaff_registerClass {d : ClassDecl} {c : ClassId}
    (h : w.registerClass d = .ok (c, w')) : w.SameStaff w' := by
  obtain ⟨-, -, rfl⟩ := registerClass_eq_ok h
  exact ⟨rfl, rfl, rfl⟩

theorem sameStaff_tick (w : World) (t : Ticker) : w.SameStaff (w.tick t).2 := by
  unfold tick
  cases w.source? t.source with
  | none => exact .refl w
  | some source => exact ⟨rfl, rfl, rfl⟩

theorem sameStaff_stepDecoder {d : DecoderId} (h : w.stepDecoder d = some w') :
    w.SameStaff w' := by
  obtain ⟨decoder, -, ⟨-, phase, rfl⟩ | ⟨-, rfl⟩⟩ := stepDecoder_cases h
  · exact ⟨rfl, rfl, rfl⟩
  · exact (sameStaff_tick w decoder.ticker).trans ⟨rfl, rfl, rfl⟩

theorem sameStaff_move {m : Move} (h : w.move m = some w') : w.SameStaff w' := by
  rcases move_cases h with ⟨pool, rfl⟩ | ⟨r, c, -, rfl⟩ | ⟨d, h⟩
  · exact ⟨rfl, rfl, rfl⟩
  · exact ⟨rfl, rfl, rfl⟩
  · exact sameStaff_stepDecoder h

end World

open World

namespace Run

def KeepsStaff {α : Type} (m : Run α) : Prop := ∀ s : State, s.world.SameStaff (s.afterRun m).world

/-! The built-ins of timers -/

theorem sameStaff_putTimer (o : ObjectId) (timer : TimerState) (s : State) :
    Relates SameStaff (putTimer o timer) s :=
  relates_reads_bind (reads_instanceOf o) fun _ _ =>
    relates_modifyWorld (reframes_putInstance _ _ _).sameStaff

theorem sameStaff_initTimer (o : ObjectId) (args : List Value) (s : State) :
    Relates SameStaff (initTimer o args) s :=
  relates_reads_bind (reads_requireArgs _ _ _) fun _ _ => relates_world_bind <|
    relates_reads_bind (reads_ofError _) fun _ _ => relates_reads_bind (reads_ofError _) fun _ _ =>
    relates_reads_bind (reads_timerOf o) fun _ _ => sameStaff_putTimer o _ s

theorem sameStaff_setTimerDelay (o : ObjectId) (args : List Value) (s : State) :
    Relates SameStaff (setTimerDelay o args) s :=
  relates_reads_bind (reads_requireArgs _ _ _) fun _ _ => relates_world_bind <|
    relates_reads_bind (reads_ofError _) fun _ _ =>
    relates_reads_bind (reads_timerOf o) fun _ _ => sameStaff_putTimer o _ s

theorem sameStaff_stopTimer (o : ObjectId) (s : State) : Relates SameStaff (stopTimer o) s := by
  refine relates_reads_bind (reads_timerOf o) fun timer _ => ?_
  split
  · exact relates_pure _ _
  · exact (sameStaff_putTimer o _ s).bind fun _ _ _ => ⟨rfl, rfl, rfl⟩

theorem sameStaff_startTimer (o : ObjectId) (s : State) : Relates SameStaff (startTimer o) s := by
  refine relates_reads_bind (reads_isTimerRunning o) fun running _ => ?_
  split
  · exact relates_pure _ _
  · refine (sameStaff_stopTimer o s).bind fun _ s₁ _ => relates_reads_bind (reads_timerOf o)
      fun timer _ => relates_world_bind ?_
    split
    · exact relates_throw _ _
    · refine Relates.bind ⟨rfl, rfl, rfl⟩ fun r s₂ _ => ?_
      exact (sameStaff_putTimer o _ s₂).bind fun _ _ _ => ⟨rfl, rfl, rfl⟩

theorem sameStaff_resetTimer (o : ObjectId) (s : State) : Relates SameStaff (resetTimer o) s :=
  (sameStaff_stopTimer o s).bind fun _ _ _ => relates_reads_bind (reads_timerOf o) fun _ _ =>
    ⟨rfl, rfl, rfl⟩

end Run

namespace World

variable {w w' : World}

theorem Change.sameStaff (h : w.Change w') : w.SameStaff w' := by
  cases h with
  | hold v => exact (reframes_hold w v).sameStaff
  | letGo v => exact (reframes_letGo w v).sameStaff
  | pop keep => exact (reframes_popFrame w keep).sameStaff
  | assign place v => exact (reframes_assign w place v).sameStaff
  | newFunction f => exact (reframes_newFunction w f).sameStaff
  | spawn cls spec => exact sameStaff_spawn w cls spec
  | put => exact (reframes_putInstance w _ _).sameStaff
  | registerClass h => exact sameStaff_registerClass h
  | push | trace | defineGlobal | screen | newSource | setSource | submitDecoder | clock =>
    exact ⟨rfl, rfl, rfl⟩
  | tick t => exact sameStaff_tick w t
  | move h => exact sameStaff_move h
  | initTimer hs h => exact hs ▸ (Run.sameStaff_initTimer _ _ _).of_ok h
  | setTimerDelay hs h => exact hs ▸ (Run.sameStaff_setTimerDelay _ _ _).of_ok h
  | startTimer hs h => exact hs ▸ (Run.sameStaff_startTimer _ _).of_ok h
  | stopTimer hs h => exact hs ▸ (Run.sameStaff_stopTimer _ _).of_ok h
  | resetTimer hs h => exact hs ▸ (Run.sameStaff_resetTimer _ _).of_ok h

theorem sameStaff_takeEvent {s s' : State} {e : Option Event}
    (h : Run.takeEvent s = .ok e s') : s.world.SameStaff s'.world := by
  obtain ⟨-, rfl⟩ := EStateM.Result.ok.inj h
  exact ⟨rfl, rfl, rfl⟩

instance : Cumulative fun _ => SameStaff where
  preorder _ := inferInstance
  change h := h.sameStaff
  dispatch htake h := (sameStaff_takeEvent htake).trans h
  handle {e} _ _ _ _ he htake h := by
    refine (sameStaff_takeEvent htake).trans ?_
    cases e with
    | dispatch r kind => exact absurd rfl (he r kind)
    | sync r | retire r =>
      obtain ⟨-, rfl⟩ := EStateM.Result.ok.inj h
      exact ⟨rfl, rfl, rfl⟩

end World

end ScriptPlayer
