import ScriptPlayer.Proofs.Run.Interpreter
import ScriptPlayer.Proofs.Run.Parts

/-! What scripts do, change by change: every built-in, every operation and, by induction on the
depth, every call. -/
namespace ScriptPlayer

open World

namespace Run

variable {R : Loop → World → World → Prop} [Cumulative R] {loop : Loop} {call : Caller} {s : State}
  {α β : Type}

/-! Byte arrays and dictionaries -/

theorem reads_bufferOf (o : ObjectId) : Reads (bufferOf o) :=
  (reads_instanceOf o).bind fun _ => reads_ofFatal _

theorem relates_bufferOf_bind {o : ObjectId} {k : ByteBuffer → Run β}
    (h : ∀ i b, s.world.instance? o = some i → i.backing = .bytes b → Relates (R loop) (k b) s) :
    Relates (R loop) (bufferOf o >>= k) s := by
  unfold bufferOf
  rw [bind_assoc]
  apply relates_instanceOf_bind
  intro i hi
  apply relates_ofFatal_bind
  intro b hb
  exact h i b hi (Instance.backing_of_byteBuffer hb)

theorem relates_putBuffer {o : ObjectId} {i : Instance} {b : ByteBuffer}
    (hi : s.world.instance? o = some i) (hb : i.backing = .bytes b) (b' : ByteBuffer) :
    Relates (R loop) (putBuffer o b') s := by
  apply relates_instanceOf_bind
  intro i' hi'
  obtain rfl := Option.some.inj (hi.symm.trans hi')
  exact relates_putInstance hi (Instance.timer?_putBacking (by simp [hb]) (by simp))

theorem relates_editBytes (o : ObjectId) (edit : ByteEdit) (s : State) :
    Relates (R loop) (editBytes o edit) s := by
  apply relates_bufferOf_bind
  intro i b hi hb
  apply relates_ofFatal_bind
  intro b' _
  exact relates_putBuffer hi hb b'

theorem relates_copyBytes (source dest : ObjectId) (offset length : Nat) (s : State) :
    Relates (R loop) (copyBytes source dest offset length) s := by
  apply relates_bufferOf_bind
  intro i b hi hb
  apply relates_ofFatal_bind
  intro r _
  apply (relates_putBuffer hi hb r.2).bind
  intro _ s₁ _
  apply relates_bufferOf_bind
  intro i₁ b₁ hi₁ hb₁
  apply relates_ofFatal_bind
  intro b' _
  exact relates_putBuffer hi₁ hb₁ b'

theorem relates_setBytePosition (o : ObjectId) (args : List Value) (s : State) :
    Relates (R loop) (setBytePosition o args) s := by
  apply relates_reads_bind (reads_requireArgs _ _ _)
  intro _ _
  apply relates_reads_bind (reads_offsetOf _ _)
  intro position _
  exact relates_editBytes o _ s

theorem relates_readBytes (o : ObjectId) (args : List Value) (s : State) :
    Relates (R loop) (readBytes o args) s := by
  apply relates_reads_bind (reads_requireArgs _ _ _)
  intro _ _
  apply relates_reads_bind (reads_byteArrayOf _)
  intro dest _
  apply relates_reads_bind (reads_offsetOf _ _)
  intro offset _
  apply relates_reads_bind (reads_offsetOf _ _)
  intro length _
  exact relates_copyBytes o dest offset length s

theorem relates_dictionaryOf_bind {o : ObjectId} {k : Dictionary → Run β}
    (h : ∀ i d, s.world.instance? o = some i → i.backing = .dictionary d →
      Relates (R loop) (k d) s) : Relates (R loop) (dictionaryOf o >>= k) s := by
  unfold dictionaryOf
  rw [bind_assoc]
  apply relates_instanceOf_bind
  intro i hi
  apply relates_ofFatal_bind
  intro d hd
  refine h i d hi ?_
  unfold Instance.dictionary at hd
  split at hd
  · rename_i hb
    exact hb.trans (congrArg Backing.dictionary (Except.ok.inj hd))
  · cases hd

theorem relates_putDictionary {w : World} {o : ObjectId} {i : Instance} {d : Dictionary}
    (hi : w.instance? o = some i) (hb : i.backing = .dictionary d)
    (hw : w.heap.Fades s.world.heap) (d' : Dictionary) :
    Relates (R loop) (putDictionary o d') s := by
  apply relates_instanceOf_bind
  intro i' hi'
  obtain rfl := Option.some.inj ((hw.instance? hi').symm.trans hi)
  exact relates_putInstance hi' (Instance.timer?_putBacking (by simp [hb]) (by simp))

theorem fades_of_hold {v : Value} {s' : State} (h : hold v s = .ok () s') :
    s.world.heap.Fades s'.world.heap := by
  obtain ⟨_, s₁, hvalid, hrest⟩ := exists_of_bind_ok h
  obtain rfl := (reads_requireValid v).eq_of_ok hvalid
  obtain ⟨-, rfl⟩ := EStateM.Result.ok.inj hrest
  exact fades_hold _ v

theorem fades_of_forM {l : List α} {f : α → Run Unit}
    (hf : ∀ a s s', f a s = .ok () s' → s.world.heap.Fades s'.world.heap) {s' : State}
    (h : l.forM f s = .ok () s') : s.world.heap.Fades s'.world.heap := by
  induction l generalizing s with
  | nil =>
    obtain ⟨-, rfl⟩ := EStateM.Result.ok.inj h
    exact .refl _
  | cons a l ih =>
    obtain ⟨_, s₁, hfirst, hrest⟩ := exists_of_bind_ok h
    exact (hf a s s₁ hfirst).trans (ih hrest)

theorem relates_holding (v : Option Value) (s : State) : Relates (R loop) (holding v) s :=
  (relates_holdAll _ s).bind fun _ _ _ => relates_pure _ _

theorem relates_setEntry (o : ObjectId) (key : DictKey) (v : Value) (s : State) :
    Relates (R loop) (setEntry o key v) s := by
  apply relates_dictionaryOf_bind
  intro i d hi hb
  apply (relates_holdAll _ s).bind
  intro _ s₁ hold
  have hkeeps := fades_of_forM (fun _ _ _ => fades_of_hold) hold
  exact (relates_putDictionary hi hb hkeeps _).bind fun _ _ _ => relates_pure _ _

theorem relates_deleteEntry (o : ObjectId) (key : DictKey) (s : State) :
    Relates (R loop) (deleteEntry o key) s := by
  apply relates_dictionaryOf_bind
  intro i d hi hb
  refine (relates_forM ?_ s).bind fun _ s₁ hold => ?_
  · rintro ⟨k, v⟩ - s
    exact (relates_hold k s).bind fun _ s' _ => relates_hold v s'
  · refine (relates_putDictionary hi hb (fades_of_forM ?_ hold) _).bind
      fun _ _ _ => relates_pure _ _
    rintro ⟨k, v⟩ s s' h
    obtain ⟨_, s₂, hkey, hvalue⟩ := exists_of_bind_ok h
    exact (fades_of_hold hkey).trans (fades_of_hold hvalue)

/-! Videos and sounds -/

theorem relates_videoOf_bind {o : ObjectId} {k : VideoState → Run β}
    (h : ∀ i video, s.world.instance? o = some i → i.backing = .host (.video video) →
      Relates (R loop) (k video) s) : Relates (R loop) (videoOf o >>= k) s := by
  unfold videoOf
  rw [bind_assoc]
  apply relates_instanceOf_bind
  intro i hi
  rw [bind_assoc]
  apply relates_world_bind
  apply relates_ofFatal_bind
  intro video hv
  exact h i video hi (Instance.backing_of_videoState hv)

theorem relates_putVideo {o : ObjectId} {i : Instance} {video : VideoState}
    (hi : s.world.instance? o = some i) (hb : i.backing = .host (.video video))
    (new : VideoState) : Relates (R loop) (putVideo o new) s := by
  apply relates_instanceOf_bind
  intro i' hi'
  obtain rfl := Option.some.inj (hi.symm.trans hi')
  refine relates_putInstance hi ?_
  unfold Instance.timer?
  rw [hb]
  rfl

theorem relates_updateScreen (o : ObjectId) (f : Screen → Screen) (s : State) :
    Relates (R loop) (updateScreen o f) s := by
  apply relates_reads_bind (reads_videoOf o)
  intro video _
  exact relates_modifyWorld (Cumulative.change (.screen _ _))

theorem relates_initVideo (o : ObjectId) (args : List Value) (s : State) :
    Relates (R loop) (initVideo o args) s := by
  apply relates_videoOf_bind
  intro i video hi hb
  apply relates_world_bind
  exact (relates_putVideo hi hb _).bind fun _ s₁ _ => relates_updateScreen o _ s₁

theorem relates_attachNetStream (o : ObjectId) (args : List Value) (s : State) :
    Relates (R loop) (attachNetStream o args) s := by
  apply relates_reads_bind (reads_requireArgs _ _ _)
  intro _ _
  apply relates_reads_bind (reads_sourceOf _)
  intro source _
  apply relates_videoOf_bind
  intro i video hi hb
  exact relates_putVideo hi hb _

theorem relates_putFrame {o : ObjectId} {i : Instance} {old : VideoState}
    (hi : s.world.instance? o = some i) (hb : i.backing = .host (.video old))
    (new : VideoState) (screen : Screen) : Relates (R loop) (putFrame o new screen) s :=
  (relates_putVideo hi hb _).bind fun _ _ _ =>
    relates_modifyWorld (Cumulative.change (.screen _ _))

theorem relates_render (o : ObjectId) (s : State) : Relates (R loop) (render o) s := by
  apply relates_videoOf_bind
  intro i video hi hb
  apply relates_world_bind
  split
  · exact (relates_putFrame hi hb _ _).bind fun _ _ _ => relates_pure _ _
  · exact (relates_putFrame hi hb _ _).bind fun _ _ _ => relates_throw _ _

theorem relates_initSoundTransform (hcall : CallsRelate (R loop) call) (o : ObjectId)
    (args : List Value) (s : State) : Relates (R loop) (initSoundTransform call o args) s :=
  (relates_set hcall o _ _ s).bind fun _ s₁ _ => relates_set hcall o _ _ s₁

/-! Events -/

theorem reads_listenerArgs (method : String) (args : List Value) :
    Reads (listenerArgs method args) := by
  apply (reads_requireArgs _ _ _).bind
  intro _
  split
  · exact reads_world.bind fun _ => reads_pure _
  · exact reads_throw _

theorem relates_eventKind (hcall : CallsRelate (R loop) call) (v : Value) (s : State) :
    Relates (R loop) (eventKind call v) s := by
  apply Relates.framed
  split
  · apply (relates_get hcall _ _ _).bind
    intro r s₁ _
    split
    · apply relates_world_bind
      exact relates_pure _ _
    · exact relates_throw _ _
  · exact relates_throw _ _

theorem relates_initEvent (hcall : CallsRelate (R loop) call) (o : ObjectId) (args : List Value)
    (s : State) : Relates (R loop) (initEvent call o args) s := by
  apply relates_reads_bind (reads_requireArgs _ _ _)
  intro _ _
  apply relates_world_bind
  exact (relates_set hcall o _ _ s).bind fun _ s₁ _ => relates_set hcall o _ _ s₁

/-! All of them -/

theorem Relates.returningUndefined {m : Run Unit} (h : Relates (R loop) m s) :
    Relates (R loop) (returningUndefined m) s :=
  h.bind fun _ _ _ => relates_pure _ _

theorem relates_builtin (hcall : CallsRelate (R loop) call) (b : Builtin) (this : ObjectId)
    (args : List Value) (s : State) : Relates (R loop) (builtin call b this args) s := by
  cases b with
  | qualifiedClassName | qualifiedSuperclassName =>
    apply relates_reads_bind (reads_requireArgs _ _ _)
    intro _ _
    apply relates_world_bind
    exact relates_pure _ _
  | definitionByName => exact relates_of_reads (reads_world.bind fun _ => reads_ofError _) s
  | elapsedTime => exact relates_world_bind (relates_pure _ s)
  | byteLength | bytesAvailable | bytePosition =>
    apply relates_bufferOf_bind
    intro i b _ _
    exact relates_pure _ _
  | setBytePosition => exact (relates_setBytePosition this args s).returningUndefined
  | readBytes => exact (relates_readBytes this args s).returningUndefined
  | newEvent => exact (relates_initEvent hcall this args s).returningUndefined
  | addEventListener =>
    apply Relates.returningUndefined
    apply relates_reads_bind (reads_listenerArgs _ _)
    intro e _
    exact relates_addListener this e.1 e.2 s
  | removeEventListener =>
    apply Relates.returningUndefined
    apply relates_reads_bind (reads_listenerArgs _ _)
    intro e _
    exact (relates_removeListener this e.1 e.2 s).discard
  | hasEventListener =>
    apply relates_reads_bind (reads_requireArgs _ _ _)
    intro _ _
    apply relates_reads_bind (reads_listenersOf this)
    intro l _
    apply relates_world_bind
    exact relates_pure _ _
  | dispatchEvent =>
    apply (relates_eventKind hcall _ s).bind
    intro kind s₁ _
    exact (relates_dispatch hcall this kind s₁).bind fun _ _ _ => relates_pure _ _
  | newTimer => exact (relates_initTimer this args s).returningUndefined
  | startTimer => exact (relates_startTimer this s).returningUndefined
  | stopTimer => exact (relates_stopTimer this s).returningUndefined
  | resetTimer => exact (relates_resetTimer this s).returningUndefined
  | setTimerDelay => exact (relates_setTimerDelay this args s).returningUndefined
  | timerDelay | timerRepeatCount =>
    apply relates_reads_bind (reads_timerOf this)
    intro timer _
    exact relates_pure _ _
  | timerCurrentCount =>
    apply relates_reads_bind (reads_timerOf this)
    intro timer _
    apply relates_world_bind
    exact relates_pure _ _
  | timerRunning =>
    apply relates_reads_bind (reads_isTimerRunning this)
    intro running _
    exact relates_pure _ _
  | newSoundTransform => exact (relates_initSoundTransform hcall this args s).returningUndefined
  | newVideo => exact (relates_initVideo this args s).returningUndefined
  | attachNetStream => exact (relates_attachNetStream this args s).returningUndefined
  | videoWidth | videoHeight =>
    apply relates_reads_bind (reads_videoOf this)
    intro video _
    exact relates_pure _ _
  | displayWidth | displayHeight =>
    apply relates_reads_bind (reads_screenOf this)
    intro screen _
    exact relates_pure _ _
  | setDisplayWidth | setDisplayHeight =>
    apply Relates.returningUndefined
    apply relates_reads_bind (reads_sizeArg _ _)
    intro n _
    exact relates_updateScreen this _ s

/-! Operations -/

theorem relates_takeItem (o : ObjectId) (item : Instance → Except Fatal Value) (s : State) :
    Relates (R loop) (do
      let v ← ofFatal (item (← instanceOf o))
      hold v
      return v : Run Value) s := by
  apply relates_instanceOf_bind
  intro i _
  apply relates_ofFatal_bind
  intro v _
  exact (relates_hold v s).bind fun _ _ _ => relates_pure _ _

theorem relates_execute (hcall : CallsRelate (R loop) call) (op : Op) (s : State) :
    Relates (R loop) (execute call op) s := by
  cases op with
  | look => exact relates_of_reads reads_world s
  | trace items => exact relates_world_bind (relates_trace _ s)
  | hold v | drop v => exact relates_pure _ _
  | newFunction name captured code => exact relates_newFunction name captured code s
  | registerClass d => exact relates_registerClass d s
  | defineGlobal name v =>
    have hdefine : R loop s.world (s.world.defineGlobal name v) :=
      Cumulative.change (.defineGlobal name v)
    exact hdefine
  | «global» name => exact relates_world_bind (relates_holding _ s)
  | newObject => exact relates_newObject s
  | instantiate cls backing => exact relates_instantiate cls backing s
  | construct cls backing args => exact (relates_construct hcall cls backing args s).attempt
  | installTraits o => exact relates_installTraits o s
  | bind o kind name f => exact relates_bind o kind name f s
  | get o key => exact (relates_get hcall o key s).attempt
  | getDefault o name => exact (relates_getDefault hcall o name s).attempt
  | intercept o key => exact (relates_interceptGet hcall o key s).attempt
  | set o key v => exact (relates_set hcall o key v s).attempt
  | delete o key => exact (relates_delete o key s).attempt
  | callMethod o name args => exact (relates_callMethod hcall o name args s).attempt
  | invoke f this args => exact (hcall f this args s).attempt
  | nextName o cursor => exact relates_takeItem o _ s
  | nextValue o cursor => exact relates_takeItem o _ s
  | editBytes o edit => exact relates_editBytes o edit s
  | copyBytes source dest offset length => exact relates_copyBytes source dest offset length s
  | getEntry o key =>
    apply relates_dictionaryOf_bind
    intro i d _ _
    exact relates_holding _ s
  | setEntry o key v => exact relates_setEntry o key v s
  | deleteEntry o key => exact relates_deleteEntry o key s
  | dispatch o kind => exact (relates_dispatch hcall o kind s).attempt
  | addListener o kind f => exact relates_addListener o kind f s
  | removeListener o kind f => exact relates_removeListener o kind f s
  | render o => exact relates_render o s
  | tick t =>
    have htick : R loop s.world (s.world.tick t).2 := Cumulative.change (.tick t)
    exact htick
  | setSource i source =>
    have hsource : R loop s.world (s.world.setSource i source) :=
      Cumulative.change (.setSource i source)
    exact hsource

theorem relates_perform (hcall : CallsRelate (R loop) call) (op : Op) (s : State) :
    Relates (R loop) (perform call op) s := by
  apply (relates_pulse s).bind
  intro _ s₁ _
  have hbody : Relates (R loop) (do op.operands.forM hold; execute call op)
      { s₁ with world := s₁.world.pushFrame .operation } := by
    apply (relates_holdAll op.operands _).bind
    intro _ s₂ _
    exact relates_execute hcall op s₂
  apply hbody.framed.bind
  intro reply s₂ _
  cases op with
  | drop v =>
    have hdrop : Relates (R loop) (modifyWorld (·.letGo v)) s₂ := Cumulative.change (.letGo v)
    exact hdrop.bind fun _ _ _ => relates_pure _ _
  | _ => exact relates_pure _ _

theorem relates_script (hcall : CallsRelate (R loop) call) (p : Script) (s : State) :
    Relates (R loop) (script call p) s := by
  induction p generalizing s with
  | done v => exact relates_reads_bind (reads_requireValid v) fun _ _ => relates_pure _ _
  | fail e | abort f => exact relates_throw _ _
  | code body next _ ih => exact ih s.code.length { s with code := s.code ++ [body] }
  | perform op next ih =>
    exact (relates_perform hcall op s).bind fun reply s₁ _ => ih reply s₁

theorem callsRelate_callFunction (depth : Nat) : CallsRelate (R loop) (callFunction depth) := by
  induction depth with
  | zero => exact fun f this args s => relates_throw _ s
  | succ depth ih =>
    intro f this args s
    apply (relates_pulse s).bind
    intro _ s₁ _
    apply Relates.framed
    apply (relates_holdAll _ _).bind
    intro _ s₂ _
    apply relates_reads_bind (reads_functionOf f)
    intro fn _
    split
    · exact relates_builtin ih _ this args s₂
    · apply relates_reads_bind fun _ => rfl
      intro body _
      split
      · exact relates_script ih _ s₂
      · exact relates_throw _ _

end Run

end ScriptPlayer
