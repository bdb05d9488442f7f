import ScriptPlayer.Proofs.Run.Events
import ScriptPlayer.Script.Builtins

/-! Every built-in function goes through steps and gives a value that refers to something, provided
that a frame holds its receiver and its arguments. -/
namespace ScriptPlayer

open World

theorem PropertyMap.mem_values_of_get? {m : PropertyMap} {name : QName} {v : Value}
    (h : m.get? name = some v) : v ∈ m.values := by
  obtain ⟨i, -, hi⟩ := Option.bind_eq_some_iff.1 h
  obtain ⟨e, he, rfl⟩ := Option.map_eq_some_iff.1 hi
  exact List.mem_map_of_mem (List.mem_of_getElem? he)

theorem mem_of_getD {args : List Value} {n : Nat} {v : Value} (h : args.getD n .undefined = v)
    (hv : v ≠ .undefined) : v ∈ args := by
  rw [List.getD_eq_getElem?_getD] at h
  cases hn : args[n]? with
  | some u =>
    rw [hn] at h
    exact h ▸ List.mem_of_getElem? hn
  | none =>
    rw [hn] at h
    exact absurd h.symm hv

namespace Instance

variable {i : Instance} {t : ClassTable}

theorem backing_of_byteBuffer {b : ByteBuffer} (h : i.byteBuffer = .ok b) :
    i.backing = .bytes b := by
  unfold byteBuffer at h
  split at h
  · rename_i hb
    exact hb.trans (congrArg Backing.bytes (Except.ok.inj h))
  · cases h

theorem backing_of_videoState {video : VideoState} (h : i.videoState t = .ok video) :
    i.backing = .host (.video video) := by
  unfold videoState at h
  cases hp : i.payload t with
  | error f => rw [hp] at h; cases h
  | ok p =>
    rw [hp] at h
    cases p with
    | video video' =>
      obtain rfl := Except.ok.inj h
      exact backing_of_payload hp
    | _ => cases h

end Instance

namespace Run

variable {call : Caller} {s : State} {β : Type} {Φ : List Frame → List Frame → Prop}
  [IsPreorder (List Frame) Φ]

/-! Byte arrays -/

theorem ends_bufferOf_bind {o : ObjectId} {k : ByteBuffer → Run β} {Q : β → World → Prop}
    (h : ∀ i b, s.world.instance? o = some i → i.backing = .bytes b → Ends Φ (k b) s Q) :
    Ends Φ (bufferOf o >>= k) s Q := by
  unfold bufferOf
  rw [bind_assoc]
  apply ends_instanceOf_bind
  intro i hi
  apply ends_ofFatal_bind
  intro b hb
  exact h i b hi (Instance.backing_of_byteBuffer hb)

theorem ends_putBuffer {o : ObjectId} {i : Instance} {b : ByteBuffer}
    (hi : s.world.instance? o = some i) (hb : i.backing = .bytes b) (b' : ByteBuffer) :
    Ends Gains (putBuffer o b') s fun _ _ => True := by
  apply ends_instanceOf_bind
  intro i' hi'
  obtain rfl := Option.some.inj (hi.symm.trans hi')
  exact (ends_update hi (.bytes b b' hb) fun v hv => absurd hv List.not_mem_nil).imp
    fun _ _ _ _ _ => trivial

theorem ends_editBytes (o : ObjectId) (edit : ByteEdit) :
    Ends Gains (editBytes o edit) s fun _ _ => True := by
  apply ends_bufferOf_bind
  intro i b hi hb
  apply ends_ofFatal_bind
  intro b' _
  exact ends_putBuffer hi hb b'

theorem ends_copyBytes (hs : s.world.Sound) (source dest : ObjectId) (offset length : Nat) :
    Ends Gains (copyBytes source dest offset length) s fun _ _ => True := by
  apply ends_bufferOf_bind
  intro i b hi hb
  apply ends_ofFatal_bind
  intro r _
  apply (ends_putBuffer hi hb r.2).bind hs
  intro _ s₁ _ _ _ _
  apply ends_bufferOf_bind
  intro i₁ b₁ hi₁ hb₁
  apply ends_ofFatal_bind
  intro b' _
  exact ends_putBuffer hi₁ hb₁ b'

theorem reads_offsetOf (what : String) (v : Value) : Reads (offsetOf what v) := by
  unfold offsetOf
  dsimp only
  split
  · exact reads_throw _
  · exact reads_pure _

theorem reads_byteArrayOf (v : Value) : Reads (byteArrayOf v) := by
  unfold byteArrayOf
  split
  · apply (reads_instanceOf _).bind
    intro i
    split
    · exact reads_pure _
    · exact reads_throw _
  · exact reads_throw _

theorem ends_setBytePosition (o : ObjectId) (args : List Value) :
    Ends Gains (setBytePosition o args) s fun _ _ => True := by
  apply ends_reads_bind (reads_requireArgs _ _ _)
  intro _ _
  apply ends_reads_bind (reads_offsetOf _ _)
  intro position _
  exact ends_editBytes o _

theorem ends_readBytes (hs : s.world.Sound) (o : ObjectId) (args : List Value) :
    Ends Gains (readBytes o args) s fun _ _ => True := by
  apply ends_reads_bind (reads_requireArgs _ _ _)
  intro _ _
  apply ends_reads_bind (reads_byteArrayOf _)
  intro dest _
  apply ends_reads_bind (reads_offsetOf _ _)
  intro offset _
  apply ends_reads_bind (reads_offsetOf _ _)
  intro length _
  exact ends_copyBytes hs o dest offset length

/-! Videos and sounds -/

theorem ends_videoOf_bind {o : ObjectId} {k : VideoState → Run β} {Q : β → World → Prop}
    (h : ∀ i video, s.world.instance? o = some i → i.backing = .host (.video video) →
      Ends Φ (k video) s Q) : Ends Φ (videoOf o >>= k) s Q := by
  unfold videoOf
  rw [bind_assoc]
  apply ends_instanceOf_bind
  intro i hi
  rw [bind_assoc]
  apply ends_world_bind
  apply ends_ofFatal_bind
  intro video hv
  exact h i video hi (Instance.backing_of_videoState hv)

theorem reads_videoOf (o : ObjectId) : Reads (videoOf o) :=
  (reads_instanceOf o).bind fun _ => reads_world.bind fun _ => reads_ofFatal _

theorem reads_screenOf (o : ObjectId) : Reads (screenOf o) :=
  (reads_videoOf o).bind fun _ => reads_world.bind fun _ => reads_pure _

theorem ends_putVideo {o : ObjectId} {i : Instance} {video : VideoState}
    (hi : s.world.instance? o = some i) (hb : i.backing = .host (.video video))
    (new : VideoState) : Ends Gains (putVideo o new) s fun _ _ => True := by
  apply ends_instanceOf_bind
  intro i' hi'
  obtain rfl := Option.some.inj (hi.symm.trans hi')
  exact (ends_update hi (.video video new hb) fun v hv => absurd hv List.not_mem_nil).imp
    fun _ _ _ _ _ => trivial

theorem ends_updateScreen (o : ObjectId) (f : Screen → Screen) :
    Ends Gains (updateScreen o f) s fun _ _ => True := by
  apply ends_reads_bind (reads_videoOf o)
  intro video _
  exact (ends_background ⟨rfl, rfl, rfl, rfl, rfl, rfl, rfl⟩).imp fun _ _ _ _ _ => trivial

theorem reads_sizeArg (method : String) (args : List Value) : Reads (sizeArg method args) :=
  (reads_requireArgs _ _ _).bind fun _ => reads_pure _

theorem ends_initVideo (hs : s.world.Sound) (o : ObjectId) (args : List Value) :
    Ends Gains (initVideo o args) s fun _ _ => True := by
  apply ends_videoOf_bind
  intro i video hi hb
  apply ends_world_bind
  apply (ends_putVideo hi hb _).bind hs
  intro _ s₁ _ _ _ _
  exact ends_updateScreen o _

theorem reads_sourceOf (v : Value) : Reads (sourceOf v) := by
  apply reads_world.bind
  intro w
  dsimp only
  split
  · split
    · split
      · split
        · exact reads_pure _
        · exact reads_throw _
      · exact reads_throw _
    · exact reads_throw _
  · exact reads_throw _

theorem ends_attachNetStream (o : ObjectId) (args : List Value) :
    Ends Gains (attachNetStream o args) s fun _ _ => True := by
  apply ends_reads_bind (reads_requireArgs _ _ _)
  intro _ _
  apply ends_reads_bind (reads_sourceOf _)
  intro source _
  apply ends_videoOf_bind
  intro i video hi hb
  exact ends_putVideo hi hb _

theorem ends_putFrame (hs : s.world.Sound) {o : ObjectId} {i : Instance} {old : VideoState}
    (hi : s.world.instance? o = some i) (hb : i.backing = .host (.video old))
    (new : VideoState) (screen : Screen) :
    Ends Gains (putFrame o new screen) s fun _ _ => True := by
  apply (ends_putVideo hi hb _).bind hs
  intro _ s₁ _ _ _ _
  exact (ends_background ⟨rfl, rfl, rfl, rfl, rfl, rfl, rfl⟩).imp fun _ _ _ _ _ => trivial

theorem ends_render (hs : s.world.Sound) (o : ObjectId) :
    Ends Gains (render o) s fun _ _ => True := by
  apply ends_videoOf_bind
  intro i video hi hb
  apply ends_world_bind
  split
  · apply (ends_putFrame hs hi hb _ _).bind hs
    intro _ s₁ _ _ _ _
    exact ends_pure trivial
  · apply (ends_putFrame hs hi hb _ _).bind hs
    intro _ s₁ _ _ _ _
    exact ends_throw _

theorem ends_initSoundTransform (hcall : Calls call) (hs : s.world.Sound)
    (hst : s.world.Staffed) (o : ObjectId) (args : List Value) :
    Ends Gains (initSoundTransform call o args) s fun _ _ => True := by
  apply (ends_set hcall hs hst o (fun u hu => absurd hu List.not_mem_nil) rfl).bind hs
  intro _ s₁ hst₁ hs₁ _ _
  exact ends_set hcall hs₁ (hst₁.staffed hst) o (fun u hu => absurd hu List.not_mem_nil) rfl

/-! Events -/

theorem ends_listenerArgs_bind {method : String} {args : List Value}
    {k : String × FunctionId → Run β} {Q : β → World → Prop}
    (h : ∀ kind f, .function f ∈ args → Ends Φ (k (kind, f)) s Q) :
    Ends Φ (listenerArgs method args >>= k) s Q := by
  unfold listenerArgs
  rw [bind_assoc]
  apply ends_reads_bind (reads_requireArgs _ _ _)
  intro _ _
  split
  · rename_i f hf
    rw [bind_assoc]
    apply ends_world_bind
    exact h _ f (mem_of_getD hf (by simp))
  · exact ends_throw _

theorem ends_eventKind (hcall : Calls call) (hs : s.world.Sound) (hst : s.world.Staffed)
    {v : Value} (hv : ∀ o, v = .object o → HeldBy s.world.frames v) :
    Ends Gains (eventKind call v) s fun _ _ => True := by
  have hstep : Step s.world (s.world.pushFrame .operation) := .push rfl
  have hs' := hstep.sound hs
  refine (ends_framed (Q := fun _ _ => True) rfl hs ?_).imp fun _ _ _ _ _ => trivial
  have hnil : ∀ w : World, (∀ u ∈ ([] : List Value), w.isValid u) ∧ True :=
    fun w => ⟨fun u hu => absurd hu List.not_mem_nil, trivial⟩
  split
  · rename_i event
    have ho : HeldBy (s.world.pushFrame .operation).frames (.object event) :=
      (hv event rfl).cons _
    have hget := ends_get hcall (s := { s with world := s.world.pushFrame .operation }) hs'
      (hstep.staffed hst) ho (.pub "type")
    apply (hget.weaken fun _ _ => Gains.reheld).bind hs'
    intro r s₁ _ _ _ _
    split
    · apply ends_world_bind
      exact ends_pure (hnil _)
    · exact ends_throw _
  · exact ends_throw _

theorem ends_initEvent (hcall : Calls call) (hs : s.world.Sound) (hst : s.world.Staffed)
    (o : ObjectId) (args : List Value) :
    Ends Gains (initEvent call o args) s fun _ _ => True := by
  apply ends_reads_bind (reads_requireArgs _ _ _)
  intro _ _
  apply ends_world_bind
  apply (ends_set hcall hs hst o (fun u hu => absurd hu List.not_mem_nil) rfl).bind hs
  intro _ s₁ hst₁ hs₁ _ _
  exact ends_set hcall hs₁ (hst₁.staffed hst) o (fun u hu => absurd hu List.not_mem_nil) rfl

/-! All of them -/

theorem ends_returningUndefined {m : Run Unit} (hs : s.world.Sound)
    (h : Ends Gains m s fun _ _ => True) :
    Ends Gains (returningUndefined m) s fun v w => w.isValid v :=
  h.bind hs fun _ _ _ _ _ _ => ends_pure rfl

theorem isValid_ofLength (w : World) (n : Nat) : w.isValid (.ofLength n) := by
  unfold Value.ofLength
  split
  · rfl
  · rfl

theorem isValid_qualifiedClassName (w : World) (v : Value) :
    w.isValid (w.qualifiedClassName v) := by
  unfold qualifiedClassName
  split
  · rfl
  · rfl
  · rfl

theorem isValid_qualifiedSuperclassName (w : World) (v : Value) :
    w.isValid (w.qualifiedSuperclassName v) := by
  have hparent : ∀ c, w.isValid (qualifiedSuperclassName.parentName w c) := by
    intro c
    unfold qualifiedSuperclassName.parentName
    split
    · rfl
    · rfl
  unfold qualifiedSuperclassName
  split
  · exact hparent _
  · exact hparent _
  · rfl
  · rfl
  · rfl

theorem isValid_definition {w : World} (hs : w.HeapSound) {v u : Value}
    (h : w.definition v = .ok u) : w.isValid u := by
  unfold definition at h
  split at h
  · dsimp only at h
    split at h
    · rename_i c hc
      obtain rfl := Except.ok.inj h
      have hmem := PropertyMap.mem_values_of_get? hc
      exact isValid_iff_refers.2 (hs.refers_outside (by simp [roots, hmem]))
    · cases h
    · cases h
  · cases h

theorem ends_builtin (hcall : Calls call) (hs : s.world.Sound) (hst : s.world.Staffed)
    (b : Builtin) {this : ObjectId} {args : List Value}
    (hthis : HeldBy s.world.frames (.object this))
    (hargs : ∀ v ∈ args, HeldBy s.world.frames v) :
    Ends Gains (builtin call b this args) s fun v w => w.isValid v := by
  cases b with
  | qualifiedClassName =>
    apply ends_reads_bind (reads_requireArgs _ _ _)
    intro _ _
    apply ends_world_bind
    exact ends_pure (isValid_qualifiedClassName _ _)
  | qualifiedSuperclassName =>
    apply ends_reads_bind (reads_requireArgs _ _ _)
    intro _ _
    apply ends_world_bind
    exact ends_pure (isValid_qualifiedSuperclassName _ _)
  | definitionByName =>
    apply ends_world_bind
    apply ends_of_reads (reads_ofError _)
    intro v hv
    cases hd : s.world.definition (args.getD 0 .undefined) with
    | ok u =>
      rw [hd] at hv
      cases hv
      exact isValid_definition hs.heap hd
    | error e =>
      rw [hd] at hv
      cases hv
  | elapsedTime =>
    apply ends_world_bind
    exact ends_pure (isValid_ofLength _ _)
  | byteLength | bytesAvailable | bytePosition =>
    apply ends_bufferOf_bind
    intro i b _ _
    exact ends_pure (isValid_ofLength _ _)
  | setBytePosition => exact ends_returningUndefined hs (ends_setBytePosition this args)
  | readBytes => exact ends_returningUndefined hs (ends_readBytes hs this args)
  | newEvent => exact ends_returningUndefined hs (ends_initEvent hcall hs hst this args)
  | addEventListener =>
    apply ends_returningUndefined hs
    apply ends_listenerArgs_bind
    intro kind f hf
    exact ends_addListener (hs.isValid_of_heldBy (hargs _ hf))
  | removeEventListener =>
    apply ends_returningUndefined hs
    apply ends_listenerArgs_bind
    intro kind f _
    exact (ends_removeListener hs).bind hs fun _ _ _ _ _ _ => ends_pure trivial
  | hasEventListener =>
    apply ends_reads_bind (reads_requireArgs _ _ _)
    intro _ _
    apply ends_listenersOf_bind
    intro i l timer _ _
    apply ends_world_bind
    exact ends_pure rfl
  | dispatchEvent =>
    have hevent : ∀ o, args.getD 0 .undefined = .object o →
        HeldBy s.world.frames (args.getD 0 .undefined) :=
      fun o ho => hargs _ (mem_of_getD rfl (by rw [ho]; simp))
    apply (ends_eventKind hcall hs hst hevent).bind hs
    intro kind s₁ hst₁ hs₁ hg _
    apply (ends_dispatch hcall hs₁ (hst₁.staffed hst) (hg.heldBy hthis) kind).bind hs₁
    intro n s₂ _ _ _ _
    exact ends_pure rfl
  | newTimer => exact ends_returningUndefined hs (ends_initTimer this args)
  | startTimer => exact ends_returningUndefined hs (ends_startTimer hs hthis)
  | stopTimer => exact ends_returningUndefined hs (ends_stopTimer hs this)
  | resetTimer => exact ends_returningUndefined hs (ends_resetTimer hs this)
  | timerDelay | timerRepeatCount =>
    apply ends_timerOf_bind
    intro timer
    exact ends_pure rfl
  | setTimerDelay => exact ends_returningUndefined hs (ends_setTimerDelay this args)
  | timerRunning =>
    apply ends_reads_bind (reads_isTimerRunning this)
    intro running _
    exact ends_pure rfl
  | timerCurrentCount =>
    apply ends_timerOf_bind
    intro timer
    apply ends_world_bind
    exact ends_pure rfl
  | newSoundTransform =>
    exact ends_returningUndefined hs (ends_initSoundTransform hcall hs hst this args)
  | newVideo => exact ends_returningUndefined hs (ends_initVideo hs this args)
  | attachNetStream => exact ends_returningUndefined hs (ends_attachNetStream this args)
  | videoWidth | videoHeight =>
    apply ends_reads_bind (reads_videoOf this)
    intro video _
    exact ends_pure rfl
  | displayWidth | displayHeight =>
    apply ends_reads_bind (reads_screenOf this)
    intro screen _
    exact ends_pure rfl
  | setDisplayWidth | setDisplayHeight =>
    apply ends_returningUndefined hs
    apply ends_reads_bind (reads_sizeArg _ _)
    intro n _
    exact ends_updateScreen this _

end Run

end ScriptPlayer
