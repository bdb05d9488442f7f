import ScriptPlayer.Event.Dispatch
import ScriptPlayer.Event.Timer
import ScriptPlayer.Proofs.Run.Construct

/-! Event dispatch and timers go through steps. A dispatch keeps its listeners and its event in its
frame, so both outlive whatever the listeners do. -/
namespace ScriptPlayer

open World

namespace Instance

variable {i : Instance} {t : ClassTable}

theorem backing_of_payload {p : Payload} (h : i.payload t = .ok p) : i.backing = .host p := by
  unfold payload at h
  split at h
  · rename_i hb
    exact hb.trans (congrArg Backing.host (Except.ok.inj h))
  · cases h

theorem backing_of_listeners {l : Listeners} (h : i.listeners t = .ok l) :
    ∃ timer, i.backing = .host (.eventTarget l timer) := by
  unfold listeners at h
  cases hp : i.payload t with
  | error f => rw [hp] at h; cases h
  | ok p =>
    rw [hp] at h
    cases p with
    | eventTarget l' timer =>
      obtain rfl := Except.ok.inj h
      exact ⟨timer, backing_of_payload hp⟩
    | _ => cases h

theorem update_setListeners_add {l : Listeners} {timer : Option TimerState}
    (hb : i.backing = .host (.eventTarget l timer)) (kind : String) (f : FunctionId) :
    i.Update t (i.setListeners (l.add kind f)) [.function f] := by
  unfold setListeners
  rw [hb]
  exact .listen l timer kind f hb

theorem update_setListeners_remove {l : Listeners} {timer : Option TimerState}
    (hb : i.backing = .host (.eventTarget l timer)) (kind : String) (f : FunctionId) :
    i.Update t (i.setListeners (l.remove kind f).2) [] := by
  unfold setListeners
  rw [hb]
  exact .unlisten l timer kind f hb

theorem update_setTimerState (i : Instance) (timer : TimerState) :
    i.Update t (i.setTimerState timer) [] := by
  unfold setTimerState
  split
  · rename_i l old hb
    exact .timer l old (some timer) hb
  · exact .same

end Instance

namespace Run

variable {call : Caller} {s : State} {β : Type} {Φ : List Frame → List Frame → Prop}
  [IsPreorder (List Frame) Φ]

theorem ends_background {f : World → World} (h : s.world.SameOwners (f s.world)) :
    Ends Gains (modifyWorld f) s fun _ w => s.world.SameOwners w :=
  ends_modifyWorld (.background h) (h.frames ▸ .same _) h

theorem ends_listenersOf_bind {o : ObjectId} {k : Listeners → Run β} {Q : β → World → Prop}
    (h : ∀ i l timer, s.world.instance? o = some i → i.backing = .host (.eventTarget l timer) →
      Ends Φ (k l) s Q) : Ends Φ (listenersOf o >>= k) s Q := by
  unfold listenersOf
  rw [bind_assoc]
  apply ends_instanceOf_bind
  intro i hi
  rw [bind_assoc]
  apply ends_world_bind
  apply ends_ofFatal_bind
  intro l hl
  obtain ⟨timer, hb⟩ := Instance.backing_of_listeners hl
  exact h i l timer hi hb

theorem ends_addListener {o : ObjectId} {kind : String} {f : FunctionId}
    (hf : s.world.isValid (.function f)) :
    Ends Gains (addListener o kind f) s fun _ _ => True := by
  apply ends_listenersOf_bind
  intro i l timer hi hb
  apply ends_instanceOf_bind
  intro i' hi'
  obtain rfl := Option.some.inj (hi.symm.trans hi')
  apply (ends_update hi (Instance.update_setListeners_add hb kind f) fun v hv => ?_).imp
    fun _ _ _ _ _ => trivial
  exact List.mem_singleton.1 hv ▸ hf

theorem ends_removeListener {o : ObjectId} {kind : String} {f : FunctionId} (hs : s.world.Sound) :
    Ends Gains (removeListener o kind f) s fun _ _ => True := by
  apply ends_listenersOf_bind
  intro i l timer hi hb
  apply ends_instanceOf_bind
  intro i' hi'
  obtain rfl := Option.some.inj (hi.symm.trans hi')
  exact (ends_update hi (Instance.update_setListeners_remove hb kind f) fun v hv =>
    absurd hv List.not_mem_nil).bind hs fun _ _ _ _ _ _ => ends_pure trivial

/-! Dispatch -/

theorem ends_eventClass (hst : s.world.Staffed) :
    Ends Φ eventClass s fun c w => w = s.world ∧ c < w.classes.size := by
  apply ends_world_bind
  cases hr : s.world.runtime with
  | some classes => exact ends_pure ⟨rfl, hst.event classes hr⟩
  | none => exact ends_throw _

theorem ends_notify (hcall : Calls call) (hs : s.world.Sound) (hst : s.world.Staffed)
    (target event : ObjectId) (listener : FunctionId) :
    Ends Gains (notify call target event listener) s fun _ _ => True := by
  have hstep : Step s.world (s.world.pushFrame .operation) := .push rfl
  have hrun := (hcall listener target [.object event]
    { s with world := s.world.pushFrame .operation } (hstep.sound hs) (hstep.staffed hst)).weaken
    fun _ _ => Gains.reheld
  exact (ends_forEffect hs hrun).attempt.bind hs fun _ _ _ _ _ _ => ends_pure trivial

theorem ends_dispatch (hcall : Calls call) (hs : s.world.Sound) (hst : s.world.Staffed)
    {target : ObjectId} (ho : HeldBy s.world.frames (.object target)) (kind : String) :
    Ends Gains (dispatch call target kind) s fun _ _ => True := by
  apply ends_listenersOf_bind
  intro i l timer hi hb
  dsimp only
  split
  · exact ends_pure trivial
  · have hhold : Ends Gains ((l.forKind kind).forM fun f => hold (.function f)) s
        fun _ _ => True :=
      ends_forM (fun _ => True) hs trivial fun f _ s' _ hs' _ _ =>
        (ends_hold hs').imp fun _ _ _ _ _ => trivial
    apply hhold.bind hs
    intro _ s₁ hst₁ hs₁ hg₁ _
    have hstaff₁ := hst₁.staffed hst
    apply (ends_eventClass hstaff₁).bind hs₁
    intro c s₂ hst₂ hs₂ hg₂ hc
    have hstaff₂ := hst₂.staffed hstaff₁
    apply (ends_construct hcall hs₂ hstaff₂ hc.2 none [.string kind]).bind hs₂
    intro event s₃ hst₃ hs₃ hg₃ hevent
    have hheld : HeldBy s₃.world.frames (.object target) :=
      ((hg₁.trans hg₂).trans hg₃).heldBy ho
    apply (ends_set hcall hs₃ (hst₃.staffed hstaff₂) event
      (fun u hu => absurd hu List.not_mem_nil) (hs₃.isValid_of_heldBy hheld)).bind hs₃
    intro _ s₄ hst₄ hs₄ _ _
    have hstaff₄ := hst₄.staffed (hst₃.staffed hstaff₂)
    have hnotify : Ends Gains ((l.forKind kind).forM (notify call target event)) s₄
        fun _ _ => True :=
      ends_forM (fun _ => True) hs₄ trivial fun f _ s' hst' hs' _ _ =>
        ends_notify hcall hs' (hst'.staffed hstaff₄) target event f
    exact hnotify.bind hs₄ fun _ _ _ _ _ _ => ends_pure trivial

/-! Timers -/

theorem ends_timerOf_bind {o : ObjectId} {k : TimerState → Run β} {Q : β → World → Prop}
    (h : ∀ timer, Ends Φ (k timer) s Q) : Ends Φ (timerOf o >>= k) s Q := by
  unfold timerOf
  rw [bind_assoc]
  apply ends_instanceOf_bind
  intro i hi
  rw [bind_assoc]
  apply ends_world_bind
  apply ends_ofFatal_bind
  intro timer _
  exact h timer

theorem ends_putTimer (o : ObjectId) (timer : TimerState) :
    Ends Gains (putTimer o timer) s fun _ _ => True := by
  apply ends_instanceOf_bind
  intro i hi
  exact (ends_update hi (i.update_setTimerState timer) fun v hv =>
    absurd hv List.not_mem_nil).imp fun _ _ _ _ _ => trivial

theorem ends_initTimer (o : ObjectId) (args : List Value) :
    Ends Gains (initTimer o args) s fun _ _ => True := by
  apply ends_reads_bind (reads_requireArgs _ _ _)
  intro _ _
  apply ends_world_bind
  apply ends_ofError_bind
  intro delay _
  apply ends_ofError_bind
  intro repeatCount _
  apply ends_timerOf_bind
  intro timer
  exact ends_putTimer o _

theorem ends_stopTimer (hs : s.world.Sound) (o : ObjectId) :
    Ends Gains (stopTimer o) s fun _ _ => True := by
  apply ends_timerOf_bind
  intro timer
  cases timer.run with
  | none => exact ends_pure trivial
  | some r =>
    apply (ends_putTimer o _).bind hs
    intro _ s₁ _ hs₁ _ _
    apply (ends_background ⟨rfl, rfl, rfl, rfl, rfl, rfl, rfl⟩).bind hs₁
    intro _ s₂ _ hs₂ _ _
    exact ends_modifyWorld (.retarget fun e he => Or.inl (List.mem_of_mem_filter he)) (.same _)
      trivial

theorem reads_timerOf (o : ObjectId) : Reads (timerOf o) :=
  (reads_instanceOf o).bind fun _ => reads_world.bind fun _ => reads_ofFatal _

theorem reads_isTimerRunning (o : ObjectId) : Reads (isTimerRunning o) := by
  apply (reads_timerOf o).bind
  intro timer
  split
  · exact reads_world.bind fun _ => reads_pure _
  · exact reads_pure _

theorem ends_startTimer (hs : s.world.Sound) {o : ObjectId}
    (ho : HeldBy s.world.frames (.object o)) :
    Ends Gains (startTimer o) s fun _ _ => True := by
  apply ends_reads_bind (reads_isTimerRunning o)
  intro running _
  split
  · exact ends_pure trivial
  · apply (ends_stopTimer hs o).bind hs
    intro _ s₁ _ hs₁ hg₁ _
    apply ends_timerOf_bind
    intro timer
    apply ends_world_bind
    cases Nanos.ofDelay? timer.delay s₁.world.minDelay with
    | none => exact ends_throw _
    | some delay =>
      apply (ends_updateWorld (Q := fun _ _ => True)
        (.background ⟨rfl, rfl, rfl, rfl, rfl, rfl, rfl⟩) (.same _) trivial).bind hs₁
      intro r s₂ _ hs₂ hg₂ _
      apply (ends_putTimer o _).bind hs₂
      intro _ s₃ _ hs₃ hg₃ _
      have hvalid := hs₃.isValid_of_heldBy (((hg₁.trans hg₂).trans hg₃).heldBy ho)
      have htargets : ∀ e ∈ s₃.world.targets ++ [(r, o)],
          e ∈ s₃.world.targets ∨ s₃.world.isValid (.object e.2) := by
        intro e he
        rcases List.mem_append.1 he with he | he
        · exact Or.inl he
        · rw [List.mem_singleton.1 he]
          exact Or.inr hvalid
      have hput : Ends Gains (modifyWorld fun w => w.putTargets (w.targets ++ [(r, o)])) s₃
          fun _ _ => True := ends_modifyWorld (.retarget htargets) (.same _) trivial
      apply hput.bind hs₃
      intro _ s₄ _ _ _ _
      exact (ends_background ⟨rfl, rfl, rfl, rfl, rfl, rfl, rfl⟩).imp fun _ _ _ _ _ => trivial

theorem ends_resetTimer (hs : s.world.Sound) (o : ObjectId) :
    Ends Gains (resetTimer o) s fun _ _ => True := by
  apply (ends_stopTimer hs o).bind hs
  intro _ s₁ _ _ _ _
  apply ends_timerOf_bind
  intro timer
  exact (ends_background ⟨rfl, rfl, rfl, rfl, rfl, rfl, rfl⟩).imp fun _ _ _ _ _ => trivial

theorem ends_setTimerDelay (o : ObjectId) (args : List Value) :
    Ends Gains (setTimerDelay o args) s fun _ _ => True := by
  apply ends_reads_bind (reads_requireArgs _ _ _)
  intro _ _
  apply ends_world_bind
  apply ends_ofError_bind
  intro delay _
  apply ends_timerOf_bind
  intro timer
  exact ends_putTimer o _

end Run

end ScriptPlayer
