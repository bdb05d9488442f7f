import ScriptPlayer.Proofs.Run.Scripts
import ScriptPlayer.Proofs.Run.Tidy

/-! Built-in functions raise their errors before they change anything: what they are given is looked
at first. Beyond that they call only what they find in the place of a getter, a setter, a listener
or a constructor, and here it is taken that nothing they find there is called. -/
namespace ScriptPlayer

/-- A name in the public namespace is a name of a property, whatever it looks like. -/
theorem Instance.exists_write_pub (i : Instance) (t : ClassTable) (name : String) (v : Value) :
    ∃ written, i.write t (Key.pub name) v = .ok written := by
  have hname : (i.resolve (Key.pub name)).name = .qualified name := by
    unfold resolve
    split <;> rfl
  unfold write
  dsimp only
  rw [hname]
  dsimp only
  split
  · exact ⟨_, rfl⟩
  · split <;> exact ⟨_, rfl⟩

namespace Run

open World

variable {α β : Type} {m : Run α} {b : World} {s : State}

def Calm (m : Run α) : Prop := ∀ s e s', m s ≠ .error (.error e) s'

/-- The run has changed nothing when it raises an error. -/
def Balks (m : Run α) : Prop := ∀ s e s', m s = .error (.error e) s' → s' = s

theorem Calm.balks (hm : Calm m) : Balks m := fun s e s' h => absurd h (hm s e s')

theorem Reads.balks (hm : Reads m) : Balks m := fun s e => hm.failsInPlace s (.error e)

theorem Balks.stumbles (hm : Balks m) (s : State) : Stumbles b m s :=
  fun _ e s' hl h => hm s e s' h ▸ hl

theorem Calm.bind {k : α → Run β} (hm : Calm m) (hk : ∀ a, Calm (k a)) : Calm (m >>= k) := by
  intro s e s' h
  rcases cases_of_bind_error h with h | ⟨a, s₁, -, h⟩
  · exact hm s e s' h
  · exact hk a s₁ e s' h

theorem Balks.bind_calm {k : α → Run β} (hm : Balks m) (hk : ∀ a, Calm (k a)) :
    Balks (m >>= k) := by
  intro s e s' h
  rcases cases_of_bind_error h with h | ⟨a, s₁, -, h⟩
  · exact hm s e s' h
  · exact absurd h (hk a s₁ e s')

theorem Reads.bind_balks {k : α → Run β} (hm : Reads m) (hk : ∀ a, Balks (k a)) :
    Balks (m >>= k) := by
  intro s e s' h
  rcases cases_of_bind_error h with hrun | ⟨a, s₁, ha, hrun⟩
  · exact hm.balks s e s' hrun
  · obtain rfl := hm.eq_of_ok ha
    exact hk a _ e s' hrun

theorem Reads.bind_calm {k : α → Run β} (hm : Reads m) (hk : ∀ a, Calm (k a)) :
    Balks (m >>= k) :=
  hm.bind_balks fun a => (hk a).balks

theorem Stumbles.bind_calm {k : α → Run β} (hm : Stumbles b m s) (hk : ∀ a, Calm (k a)) :
    Stumbles b (m >>= k) s := by
  intro fs e s' hl h
  rcases cases_of_bind_error h with h | ⟨a, s₁, -, h⟩
  · exact hm fs e s' hl h
  · exact absurd h (hk a s₁ e s')

theorem calm_pure (a : α) : Calm (pure a : Run α) := fun _ _ _ => nofun

theorem calm_world : Calm world := fun _ _ _ => nofun

theorem calm_abort (f : Fatal) : Calm (abort f : Run α) := fun _ _ _ => nofun

theorem calm_exhausted : Calm (throw .exhausted : Run α) := fun _ _ _ => nofun

theorem calm_modifyWorld (f : World → World) : Calm (modifyWorld f) := fun _ _ _ => nofun

theorem calm_updateWorld (f : World → α × World) : Calm (updateWorld f) := fun _ _ _ => nofun

theorem calm_ofFatal (r : Except Fatal α) : Calm (ofFatal r) := by
  cases r with
  | ok a => exact calm_pure a
  | error f => exact calm_abort f

theorem calm_instanceOf (o : ObjectId) : Calm (instanceOf o) := by
  apply calm_world.bind
  intro w
  split
  · exact calm_pure _
  · exact calm_abort _

theorem calm_attempt (m : Run α) : Calm (attempt m) := by
  intro s e s' h
  unfold attempt at h
  split at h
  · cases h
  · cases h
  · rename_i hne _
    cases h
    exact hne e rfl

theorem calm_framed {p : Purpose} {keep : α → List Value} (hm : Calm m) :
    Calm (framed p keep m) := by
  intro s e s' h
  unfold framed at h
  split at h
  · cases h
  · rename_i hrun
    exact hm _ _ _ hrun
  · rename_i hne _
    cases h
    exact hne e rfl

theorem calm_forEffect (hm : Calm m) : Calm (forEffect m) :=
  calm_framed (hm.bind fun _ => calm_pure _)

theorem calm_forM {l : List α} {f : α → Run Unit} (hf : ∀ a, Calm (f a)) : Calm (l.forM f) := by
  induction l with
  | nil => exact calm_pure ()
  | cons a l ih =>
    change Calm (f a >>= fun _ => l.forM f)
    exact (hf a).bind fun _ => ih

theorem calm_notify (call : Caller) (target event : ObjectId) (listener : FunctionId) :
    Calm (notify call target event listener) :=
  (calm_attempt _).bind fun _ => calm_pure _

theorem stumbles_dispatch {call : Caller} (hcall : TidyCalls b call) (target : ObjectId)
    (kind : String) (s : State) : Stumbles b (dispatch call target kind) s := by
  refine ((reads_listenersOf target).tidy s).bind_stumbles fun l s₁ _ => ?_
  dsimp only
  split
  · exact (tidy_pure (Q := fun _ _ => True) trivial).stumbles
  · refine (tidy_forM (fun f _ => tidy_hold (.function f)) s₁).bind_stumbles fun _ s₂ _ => ?_
    refine (reads_eventClass.tidy s₂).bind_stumbles fun cls s₃ _ => ?_
    refine (tidy_construct hcall cls none [.string kind] s₃).bind_stumbles fun event s₄ _ => ?_
    refine (stumbles_set hcall event (.pub "target") (.object target) s₄).bind_calm fun _ => ?_
    exact (calm_forM fun f => calm_notify call target event f).bind fun _ => calm_pure _

/-! Storing -/

theorem calm_putInstance (o : ObjectId) (i : Instance) : Calm (putInstance o i) :=
  calm_modifyWorld _

theorem calm_putBuffer (o : ObjectId) (buffer : ByteBuffer) : Calm (putBuffer o buffer) :=
  (calm_instanceOf o).bind fun _ => calm_putInstance o _

theorem calm_bufferOf (o : ObjectId) : Calm (bufferOf o) :=
  (calm_instanceOf o).bind fun _ => calm_ofFatal _

theorem calm_editBytes (o : ObjectId) (edit : ByteEdit) : Calm (editBytes o edit) :=
  (calm_bufferOf o).bind fun _ => (calm_ofFatal _).bind fun _ => calm_putBuffer o _

theorem calm_copyBytes (source dest : ObjectId) (offset length : Nat) :
    Calm (copyBytes source dest offset length) :=
  (calm_bufferOf source).bind fun _ => (calm_ofFatal _).bind fun _ =>
    (calm_putBuffer source _).bind fun _ => (calm_bufferOf dest).bind fun _ =>
    (calm_ofFatal _).bind fun _ => calm_putBuffer dest _

theorem calm_listenersOf (o : ObjectId) : Calm (listenersOf o) :=
  (calm_instanceOf o).bind fun _ => calm_world.bind fun _ => calm_ofFatal _

theorem calm_updateListeners (o : ObjectId) (f : Listeners → α × Listeners) :
    Calm (updateListeners o f) :=
  (calm_listenersOf o).bind fun _ => (calm_instanceOf o).bind fun _ =>
    (calm_putInstance o _).bind fun _ => calm_pure _

theorem calm_timerOf (o : ObjectId) : Calm (timerOf o) :=
  (calm_instanceOf o).bind fun _ => calm_world.bind fun _ => calm_ofFatal _

theorem calm_putTimer (o : ObjectId) (timer : TimerState) : Calm (putTimer o timer) :=
  (calm_instanceOf o).bind fun _ => calm_putInstance o _

theorem calm_stopTimer (o : ObjectId) : Calm (stopTimer o) := by
  apply (calm_timerOf o).bind
  intro timer
  split
  · exact calm_pure ()
  · exact (calm_putTimer o _).bind fun _ => (calm_modifyWorld _).bind fun _ => calm_modifyWorld _

theorem calm_isTimerRunning (o : ObjectId) : Calm (isTimerRunning o) := by
  apply (calm_timerOf o).bind
  intro timer
  split
  · exact calm_world.bind fun _ => calm_pure _
  · exact calm_pure _

theorem calm_startTimer (o : ObjectId) : Calm (startTimer o) := by
  apply (calm_isTimerRunning o).bind
  intro running
  split
  · exact calm_pure ()
  · refine (calm_stopTimer o).bind fun _ => (calm_timerOf o).bind fun timer =>
      calm_world.bind fun w => ?_
    split
    · exact calm_abort _
    · exact (calm_updateWorld _).bind fun _ => (calm_putTimer o _).bind fun _ =>
        (calm_modifyWorld _).bind fun _ => calm_modifyWorld _

theorem calm_resetTimer (o : ObjectId) : Calm (resetTimer o) :=
  (calm_stopTimer o).bind fun _ => (calm_timerOf o).bind fun _ => calm_modifyWorld _

theorem calm_videoOf (o : ObjectId) : Calm (videoOf o) :=
  (calm_instanceOf o).bind fun _ => calm_world.bind fun _ => calm_ofFatal _

theorem calm_putVideo (o : ObjectId) (video : VideoState) : Calm (putVideo o video) :=
  (calm_instanceOf o).bind fun _ => calm_putInstance o _

theorem calm_updateScreen (o : ObjectId) (f : Screen → Screen) : Calm (updateScreen o f) :=
  (calm_videoOf o).bind fun _ => calm_modifyWorld _

theorem calm_initVideo (o : ObjectId) (args : List Value) : Calm (initVideo o args) :=
  (calm_videoOf o).bind fun _ => calm_world.bind fun _ => (calm_putVideo o _).bind fun _ =>
    calm_updateScreen o _

/-! Built-ins that call nothing -/

def never : Caller := fun _ _ _ => throw .exhausted

theorem tidyCalls_never (b : World) : TidyCalls b never := fun _ _ _ _ => tidy_throw _

theorem calm_set_never (o : ObjectId) (name : String) (v : Value) :
    Calm (set never o (.pub name) v) := by
  apply (calm_instanceOf o).bind
  intro i
  apply calm_world.bind
  intro w
  obtain ⟨written, hwritten⟩ := i.exists_write_pub w.classes name v
  rw [hwritten]
  apply (calm_pure written).bind
  intro written
  cases written with
  | stored j => exact calm_putInstance o j
  | setter f => exact calm_forEffect calm_exhausted

theorem balks_readBytes (o : ObjectId) (args : List Value) : Balks (readBytes o args) :=
  (reads_requireArgs _ _ _).bind_balks fun _ => (reads_byteArrayOf _).bind_balks fun _ =>
    (reads_offsetOf _ _).bind_balks fun _ => (reads_offsetOf _ _).bind_calm fun _ =>
    calm_copyBytes o _ _ _

theorem balks_setBytePosition (o : ObjectId) (args : List Value) : Balks (setBytePosition o args) :=
  (reads_requireArgs _ _ _).bind_balks fun _ => (reads_offsetOf _ _).bind_calm fun _ =>
    calm_editBytes o _

theorem balks_initTimer (o : ObjectId) (args : List Value) : Balks (initTimer o args) :=
  (reads_requireArgs _ _ _).bind_balks fun _ => reads_world.bind_balks fun _ =>
    (reads_ofError _).bind_balks fun _ => (reads_ofError _).bind_calm fun _ =>
    (calm_timerOf o).bind fun _ => calm_putTimer o _

theorem balks_setTimerDelay (o : ObjectId) (args : List Value) : Balks (setTimerDelay o args) :=
  (reads_requireArgs _ _ _).bind_balks fun _ => reads_world.bind_balks fun _ =>
    (reads_ofError _).bind_calm fun _ => (calm_timerOf o).bind fun _ => calm_putTimer o _

theorem balks_initEvent (o : ObjectId) (args : List Value) : Balks (initEvent never o args) :=
  (reads_requireArgs _ _ _).bind_calm fun _ => calm_world.bind fun _ =>
    (calm_set_never o _ _).bind fun _ => calm_set_never o _ _

theorem calm_initSoundTransform (o : ObjectId) (args : List Value) :
    Calm (initSoundTransform never o args) :=
  (calm_set_never o _ _).bind fun _ => calm_set_never o _ _

theorem balks_attachNetStream (o : ObjectId) (args : List Value) : Balks (attachNetStream o args) :=
  (reads_requireArgs _ _ _).bind_balks fun _ => (reads_sourceOf _).bind_calm fun _ =>
    (calm_videoOf o).bind fun _ => calm_putVideo o _

theorem tidy_eventKind {call : Caller} (hcall : TidyCalls b call) (v : Value) (s : State) :
    Tidy b (eventKind call v) s fun _ _ => True := by
  refine Tidy.imp (Tidy.framed ?_) fun _ _ _ => trivial
  have hnone : ∀ w : World, ∀ u ∈ ([] : List Value), w.isValid u := fun w u hu =>
    absurd hu List.not_mem_nil
  split
  · apply (tidy_get hcall _ _ _).bind
    intro r s₁ _ _
    split
    · exact tidy_world_bind (tidy_pure (hnone _))
    · exact tidy_throw _
  · exact tidy_throw _

theorem Balks.returningUndefined {m : Run Unit} (hm : Balks m) : Balks (returningUndefined m) :=
  hm.bind_calm fun _ => calm_pure _

theorem stumbles_builtin (f : Builtin) (this : ObjectId) (args : List Value) (s : State) :
    Stumbles b (builtin never f this args) s := by
  cases f with
  | qualifiedClassName | qualifiedSuperclassName =>
    exact ((reads_requireArgs _ _ _).bind_calm fun _ => calm_world.bind fun _ =>
      calm_pure _).stumbles s
  | definitionByName =>
    exact (reads_world.bind_balks fun _ => (reads_ofError _).balks).stumbles s
  | elapsedTime => exact (calm_world.bind fun _ => calm_pure _).balks.stumbles s
  | byteLength | bytesAvailable | bytePosition =>
    exact ((calm_bufferOf this).bind fun _ => calm_pure _).balks.stumbles s
  | setBytePosition => exact (balks_setBytePosition this args).returningUndefined.stumbles s
  | readBytes => exact (balks_readBytes this args).returningUndefined.stumbles s
  | newEvent => exact (balks_initEvent this args).returningUndefined.stumbles s
  | addEventListener =>
    exact Balks.stumbles (Balks.returningUndefined ((reads_listenerArgs _ _).bind_calm fun _ =>
      calm_updateListeners this _)) s
  | removeEventListener =>
    exact Balks.stumbles (Balks.returningUndefined ((reads_listenerArgs _ _).bind_calm fun _ =>
      (calm_updateListeners this _).bind fun _ => calm_pure _)) s
  | hasEventListener =>
    exact ((reads_requireArgs _ _ _).bind_calm fun _ => (calm_listenersOf this).bind fun _ =>
      calm_world.bind fun _ => calm_pure _).stumbles s
  | dispatchEvent =>
    refine (tidy_eventKind (tidyCalls_never b) _ s).bind_stumbles fun kind s₁ _ => ?_
    exact (stumbles_dispatch (tidyCalls_never b) this kind s₁).bind_calm fun _ => calm_pure _
  | newTimer => exact (balks_initTimer this args).returningUndefined.stumbles s
  | startTimer => exact (calm_startTimer this).balks.returningUndefined.stumbles s
  | stopTimer => exact (calm_stopTimer this).balks.returningUndefined.stumbles s
  | resetTimer => exact (calm_resetTimer this).balks.returningUndefined.stumbles s
  | timerDelay | timerRepeatCount =>
    exact ((calm_timerOf this).bind fun _ => calm_pure _).balks.stumbles s
  | setTimerDelay => exact (balks_setTimerDelay this args).returningUndefined.stumbles s
  | timerRunning => exact ((calm_isTimerRunning this).bind fun _ => calm_pure _).balks.stumbles s
  | timerCurrentCount =>
    exact ((calm_timerOf this).bind fun _ => calm_world.bind fun _ =>
      calm_pure _).balks.stumbles s
  | newSoundTransform =>
    exact (calm_initSoundTransform this args).balks.returningUndefined.stumbles s
  | newVideo => exact (calm_initVideo this args).balks.returningUndefined.stumbles s
  | attachNetStream => exact (balks_attachNetStream this args).returningUndefined.stumbles s
  | videoWidth | videoHeight =>
    exact ((calm_videoOf this).bind fun _ => calm_pure _).balks.stumbles s
  | displayWidth | displayHeight =>
    exact (((calm_videoOf this).bind fun _ => calm_world.bind fun _ => calm_pure _).bind fun _ =>
      calm_pure _).balks.stumbles s
  | setDisplayWidth | setDisplayHeight =>
    exact Balks.stumbles (Balks.returningUndefined ((reads_sizeArg _ _).bind_calm fun _ =>
      calm_updateScreen this _)) s

end Run

end ScriptPlayer
