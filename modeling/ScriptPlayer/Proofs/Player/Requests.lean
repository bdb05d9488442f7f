import ScriptPlayer.Proofs.Run.Scripts

/-! What an embedder asks for, change by change. Between its steps the event loop is idle; an event
that it takes is handled before the step ends, and a fault of a listener ends the handling too. -/
namespace ScriptPlayer

open World

namespace Run

variable {R : Loop → World → World → Prop} [Cumulative R] {loop : Loop} {call : Caller} {s : State}

/-! Events -/

theorem relates_deliver (hcall : CallsRelate (R loop) call) (target : TargetId) (kind : String)
    (s : State) : Relates (R loop) (deliver call target kind) s := by
  apply relates_world_bind
  cases s.world.targets.lookup target with
  | none => exact relates_pure _ _
  | some o =>
    have hbody : Relates (R loop) (do hold (.object o); dispatch call o kind)
        { s with world := s.world.pushFrame .operation } := by
      apply (relates_hold _ _).bind
      intro _ s₁ _
      exact relates_dispatch hcall o kind s₁
    exact hbody.forEffect.attempt.discard

theorem takeEvent_none {s' : State} (h : takeEvent s = .ok none s') : s' = s := by
  unfold takeEvent updateWorld EventQueue.take at h
  cases hp : s.world.clockwork.queue.pending with
  | nil =>
    simp only [hp] at h
    exact (EStateM.Result.ok.inj h).2.symm
  | cons e rest =>
    simp only [hp] at h
    cases h

theorem relates_handle (hcall : ∀ l, CallsRelate (R l) call) {e : Event} {s' : State}
    (htake : takeEvent s = .ok (some e) s') :
    R .idle s.world (s'.afterRun (handle call e)).world := by
  cases e with
  | dispatch target kind =>
    exact Cumulative.dispatch htake (relates_deliver (hcall _) target kind s')
  | sync r =>
    have hrun : handle call (.sync r) s' = .ok () (s'.afterRun (handle call (.sync r))) := rfl
    exact Cumulative.handle (by simp) htake hrun
  | retire r =>
    have hrun : handle call (.retire r) s' = .ok () (s'.afterRun (handle call (.retire r))) := rfl
    exact Cumulative.handle (by simp) htake hrun

theorem relates_takeEvent_bind {α : Type} (hcall : ∀ l, CallsRelate (R l) call)
    {done more : Run α} (hdone : ∀ s, Relates (R .idle) done s)
    (hmore : ∀ s, Relates (R .idle) more s) (s : State) :
    Relates (R .idle) (do
      match ← takeEvent with
      | none => done
      | some e =>
        handle call e
        more) s := by
  cases htake : takeEvent s with
  | error x s' => cases htake
  | ok e s' =>
    unfold Relates State.afterRun
    rw [bind_of_ok htake]
    cases e with
    | none =>
      obtain rfl := takeEvent_none htake
      exact hdone s'
    | some e => exact relates_of_bind (relates_handle hcall htake) fun _ s₁ _ => hmore s₁

theorem relates_pump (hcall : ∀ l, CallsRelate (R l) call) (fuel : Nat) (s : State) :
    Relates (R .idle) (pump call fuel) s := by
  induction fuel generalizing s with
  | zero => exact relates_throw _ _
  | succ fuel ih =>
    apply (relates_pulse s).bind
    intro _ s₁ _
    apply relates_takeEvent_bind hcall
    · exact relates_pure 0
    · exact fun s => (ih s).bind fun _ _ _ => relates_pure _ _

/-! Waiting -/

theorem relates_settle (s : State) : Relates (R loop) settle s :=
  relates_modifyWorld (Background.settle s.world)

theorem relates_awaitEvents (wanted : Nat) (deadline : Option Nanos) (fuel : Nat) (s : State) :
    Relates (R loop) (awaitEvents wanted deadline fuel) s := by
  induction fuel generalizing s with
  | zero => exact relates_throw _ _
  | succ fuel ih =>
    apply relates_world_bind
    split
    · exact relates_pure _ _
    · split
      · rename_i w hw
        have hrun : Relates (R loop) (modifyWorld fun _ => w) s := Background.advance hw
        exact hrun.bind fun _ s₁ _ => ih s₁
      · have hrun : Relates (R loop) (modifyWorld fun w => w.setClock (deadline.getD 0)) s :=
          Background.setClock _ _
        exact hrun.bind fun _ _ _ => relates_pure _ _

theorem relates_await (wanted : Nat) (deadline : Option Nanos) (fuel : Nat) (s : State) :
    Relates (R loop) (await wanted deadline fuel) s :=
  (relates_settle s).bind fun _ s₁ _ => relates_awaitEvents wanted deadline fuel s₁

theorem relates_pumpTimeout (hcall : ∀ l, CallsRelate (R l) call) (span : Nanos) (fuel : Nat)
    (s : State) : Relates (R .idle) (pumpTimeout call span fuel) s := by
  apply relates_reads_bind (reads_world.bind fun _ => reads_pure _)
  intro deadline _
  apply (relates_await 1 deadline fuel s).bind
  intro came s₁ _
  split
  · exact relates_pump hcall fuel s₁
  · exact relates_pure _ _

theorem relates_pumpUntil (hcall : ∀ l, CallsRelate (R l) call) (deadline : Option Nanos)
    (done : World → Bool) (fuel : Nat) (s : State) :
    Relates (R .idle) (pumpUntil call deadline done fuel) s := by
  induction fuel generalizing s with
  | zero => exact relates_throw _ _
  | succ fuel ih =>
    apply relates_world_bind
    split
    · exact relates_pure _ _
    · apply (relates_await 1 deadline (fuel + 1) s).bind
      intro came s₁ _
      split
      · exact (relates_pump hcall (fuel + 1) s₁).discard.bind fun _ s₂ _ => ih s₂
      · apply relates_world_bind
        exact relates_pure _ _

theorem relates_waitPending (wanted fuel : Nat) (s : State) :
    Relates (R loop) (waitPending wanted fuel) s := by
  apply (relates_await wanted none fuel s).discard.bind
  intro _ s₁ _
  apply relates_world_bind
  exact relates_pure _ _

/-! Videos -/

theorem relates_renderVideo (o : ObjectId) (s : State) : Relates (R loop) (renderVideo o) s := by
  apply (relates_render o s).bind
  intro outcome s₁ _
  apply relates_reads_bind ((reads_videoOf o).bind fun _ => reads_pure _)
  intro ticker _
  split
  · rename_i interval ticker _ _
    have hrun : Relates (R loop) (modifyWorld (·.submitDecoder ticker interval)) s₁ :=
      Cumulative.change (.submitDecoder ticker interval)
    exact hrun.bind fun _ _ _ => relates_pure _ _
  · exact relates_pure _ _

theorem relates_renderUntil (o : ObjectId) (byte : UInt8) (fuel : Nat) (s : State) :
    Relates (R loop) (renderUntil o byte fuel) s := by
  induction fuel generalizing s with
  | zero => exact relates_throw _ _
  | succ fuel ih =>
    apply (relates_renderVideo o s).discard.bind
    intro _ s₁ _
    apply relates_reads_bind (reads_videoOf o)
    intro video _
    split
    · exact relates_pure _ _
    · apply (relates_settle s₁).bind
      intro _ s₂ _
      apply relates_world_bind
      split
      · rename_i w hw
        have hrun : Relates (R loop) (modifyWorld fun _ => w) s₂ := Background.advance hw
        exact hrun.bind fun _ s₃ _ => ih s₃
      · exact relates_pure _ _

/-! Requests -/

theorem relates_answer (hcall : ∀ l, CallsRelate (R l) call) (r : Request) (s : State) :
    Relates (R .idle) (answer call r) s := by
  cases r with
  | perform op => exact relates_perform (hcall _) op s
  | assign place v =>
    apply relates_reads_bind (reads_requireValid v)
    intro _ _
    exact relates_modifyWorld (Cumulative.change (.assign place v))
  | enter body => exact refl_of (R .idle) s.world
  | newSource source =>
    have hsource : R .idle s.world (s.world.newSource source).2 :=
      Cumulative.change (.newSource source)
    exact hsource
  | settle => exact relates_settle s
  | pump fuel => exact relates_pump hcall fuel s
  | pumpTimeout span fuel => exact relates_pumpTimeout hcall span fuel s
  | pumpUntil deadline done fuel => exact relates_pumpUntil hcall deadline done fuel s
  | waitPending wanted fuel => exact relates_waitPending wanted fuel s
  | renderVideo o => exact relates_renderVideo o s
  | renderUntil o byte fuel => exact relates_renderUntil o byte fuel s

theorem relates_converse (hcall : ∀ l, CallsRelate (R l) call) (p : Session) (s : State) :
    Relates (R .idle) (converse call p) s := by
  induction p generalizing s with
  | done => exact relates_pure _ _
  | stop h => exact relates_throw _ _
  | ask r next ih => exact (relates_answer hcall r s).bind fun reply s₁ _ => ih reply s₁

theorem relates_embed (depth : Nat) (p : Session) (s : State) :
    Relates (R .idle) (embed depth p) s := by
  have hcall (l : Loop) : CallsRelate (R l) (callFunction depth) := callsRelate_callFunction depth
  exact (relates_converse hcall p _).framed

end Run

end ScriptPlayer
