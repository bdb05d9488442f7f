import ScriptPlayer.Proofs.Run.Balks
import ScriptPlayer.Proofs.Run.Defers
import ScriptPlayer.Proofs.Run.Replies
import ScriptPlayer.Proofs.Run.Slots

/-! Operations that need no script. They are carried out by a way of calling that gives up as soon
as anything but a built-in function is called, or a built-in has had an effect; where it does not
give up the operation goes as it does with the interpreter, and an error that ends it leaves no more
than litter. -/
namespace ScriptPlayer

def Builtin.isQuery : Builtin → Bool
  | qualifiedClassName | qualifiedSuperclassName | definitionByName | elapsedTime | byteLength
  | bytesAvailable | bytePosition | hasEventListener | timerDelay | timerRepeatCount
  | timerRunning | timerCurrentCount | videoWidth | videoHeight | displayWidth
  | displayHeight => true
  | _ => false

def Op.error? : (op : Op) → op.Reply → Option ScriptError
  | get .., .error e | getDefault .., .error e | intercept .., .error e | set .., .error e
  | delete .., .error e | callMethod .., .error e | invoke .., .error e | construct .., .error e
  | dispatch .., .error e => some e
  | _, _ => none

namespace Run

open World

variable {α β : Type} {b : World} {s s' : State} {call call' : Caller}

/-- A way of calling that gives up at scripts. A built-in may look, or it may raise an error; it
gives up once a built-in has done anything else, or would call a function in turn. No error follows
on such a built-in unless a script has put it in the place where it was called. -/
def refusing : Caller := fun f this args => do
  pulse
  framed (.call f) (fun v => [v]) do
    (.function f :: .object this :: args).forM hold
    let function ← functionOf f
    match function.code with
    | .builtin b => do
      let v ← builtin never b this args
      if b.isQuery then return v else throw .exhausted
    | .script _ => throw .exhausted

/-- Whether an operation comes to an end with no function but built-ins called, of which each only
looks or raises an error itself. -/
def isUnaided (op : Op) (s : State) : Bool :=
  match perform refusing op s with
  | .error .exhausted _ => false
  | _ => true

/-! Where it does not give up it does what the interpreter does -/

theorem callsDefer_never (call : Caller) : CallsDefer never call :=
  fun _ _ _ => defers_exhausted _

theorem callsDefer_refusing (depth : Nat) : CallsDefer refusing (callFunction (depth + 1)) := by
  intro f this args
  refine (defers_refl _).bind fun _ => Defers.framed ?_
  refine (defers_refl _).bind fun _ => (defers_refl _).bind fun function => ?_
  cases function.code with
  | script id => exact defers_exhausted _
  | builtin g =>
    have hbuiltin := defers_builtin (callsDefer_never (callFunction depth)) g this args
    have hrest : ∀ v : Value,
        Defers (if g.isQuery then pure v else throw .exhausted : Run Value) (pure v) := by
      intro v
      split
      · exact defers_refl _
      · exact defers_exhausted _
    have hresult := hbuiltin.bind hrest
    rwa [bind_pure] at hresult

/-- The interpreter's reply to an operation that needs no script is that of the way of calling that
gives up. -/
theorem perform_refusing {op : Op} {reply : op.Reply} {depth : Nat} (hunaided : isUnaided op s)
    (h : perform (callFunction depth) op s = .ok reply s') :
    perform refusing op s = .ok reply s' := by
  cases depth with
  | zero =>
    rcases defers_perform (callsDefer_never refusing) op s with ⟨s₁, hrun⟩ | hrun
    · cases h.symm.trans hrun
    · exact hrun.symm.trans h
  | succ depth =>
    rcases defers_perform (callsDefer_refusing depth) op s with ⟨s₁, hrun⟩ | hrun
    · unfold isUnaided at hunaided
      rw [hrun] at hunaided
      cases hunaided
    · exact hrun.trans h

/-! What it leaves -/

theorem tidy_query {f : Builtin} (hf : f.isQuery) (this : ObjectId) (args : List Value)
    (s : State) : Tidy b (builtin call f this args) s fun v w => w.isValid v := by
  cases f with
  | qualifiedClassName =>
    exact tidy_reads_bind (reads_requireArgs _ _ _) fun _ _ =>
      tidy_world_bind (tidy_pure (isValid_qualifiedClassName _ _))
  | qualifiedSuperclassName =>
    exact tidy_reads_bind (reads_requireArgs _ _ _) fun _ _ =>
      tidy_world_bind (tidy_pure (isValid_qualifiedSuperclassName _ _))
  | definitionByName =>
    apply tidy_world_bind
    refine tidy_given fun fs hl => ?_
    cases hd : s.world.definition (args.getD 0 .undefined) with
    | ok u => exact tidy_pure (isValid_definition hl.heap hd)
    | error e => exact tidy_throw _
  | elapsedTime => exact tidy_world_bind (tidy_pure (isValid_ofLength _ _))
  | byteLength | bytesAvailable | bytePosition =>
    exact tidy_reads_bind (reads_bufferOf this) fun _ _ => tidy_pure (isValid_ofLength _ _)
  | hasEventListener =>
    exact tidy_reads_bind (reads_requireArgs _ _ _) fun _ _ =>
      tidy_reads_bind (reads_listenersOf this) fun _ _ => tidy_world_bind (tidy_pure rfl)
  | timerDelay | timerRepeatCount =>
    exact tidy_reads_bind (reads_timerOf this) fun _ _ => tidy_pure rfl
  | timerRunning => exact tidy_reads_bind (reads_isTimerRunning this) fun _ _ => tidy_pure rfl
  | timerCurrentCount =>
    exact tidy_reads_bind (reads_timerOf this) fun _ _ => tidy_world_bind (tidy_pure rfl)
  | videoWidth | videoHeight =>
    exact tidy_reads_bind (reads_videoOf this) fun _ _ => tidy_pure rfl
  | displayWidth | displayHeight =>
    exact tidy_reads_bind (reads_screenOf this) fun _ _ => tidy_pure rfl
  | _ => cases hf

theorem Stumbles.tidy_exhausted {m : Run α} {Q : β → World → Prop} (hm : Stumbles b m s) :
    Tidy b (m >>= fun _ => throw .exhausted) s Q := by
  intro fs hl
  rw [bind_run]
  cases hrun : m s with
  | ok a s₁ => trivial
  | error e s₁ =>
    cases e with
    | error e => exact hm fs e s₁ hl hrun
    | abort f => trivial
    | exhausted => trivial

theorem tidyCalls_refusing (b : World) : TidyCalls b refusing := by
  intro f this args s
  apply (tidy_pulse s).bind
  intro _ s₁ _ _
  refine Tidy.imp (Tidy.framed ?_) fun v w hv => hv v (List.mem_singleton_self v)
  apply (tidy_forM (fun v _ => tidy_hold v) _).bind
  intro _ s₂ _ _
  apply tidy_reads_bind (reads_functionOf f)
  intro function _
  split
  · rename_i g _
    cases hg : g.isQuery with
    | true =>
      apply (tidy_query hg this args s₂).bind
      intro v s₃ _ hv
      exact tidy_pure fun u hu => List.mem_singleton.1 hu ▸ hv
    | false => exact (stumbles_builtin g this args s₂).tidy_exhausted
  · exact tidy_throw _

theorem stumbles_delete (o : ObjectId) (key : Key) (s : State) :
    Stumbles b (delete o key) s := by
  refine Balks.stumbles ?_ s
  refine (reads_instanceOf o).bind_balks fun i => reads_world.bind_balks fun w =>
    (reads_ofHalt _).bind_calm fun removed => ?_
  cases removed with
  | some j => exact (calm_putInstance o j).bind fun _ => calm_pure _
  | none => exact calm_pure _

theorem Stumbles.of_attempt {m : Run α} (hm : Stumbles b m s) {fs : List Frame}
    (hl : b.Litters fs s.world) {e : ScriptError} (h : attempt m s = .ok (.error e) s') :
    b.Litters fs s'.world := by
  unfold attempt at h
  cases hrun : m s with
  | ok a s₁ =>
    rw [hrun] at h
    cases h
  | error e₁ s₁ =>
    rw [hrun] at h
    cases e₁ with
    | error x =>
      cases h
      exact hm fs _ _ hl hrun
    | abort f => cases h
    | exhausted => cases h

theorem litters_of_error {op : Op} {reply : op.Reply} {e : ScriptError} {fs : List Frame}
    (hcall : TidyCalls b call) (hl : b.Litters fs s.world)
    (h : execute call op s = .ok reply s') (he : op.error? reply = some e) :
    b.Litters fs s'.world := by
  cases op with
  | get o key =>
    cases reply with
    | error x => exact (tidy_get hcall o key s).stumbles.of_attempt hl h
    | ok v => cases he
  | getDefault o name =>
    cases reply with
    | error x => exact (tidy_getDefault hcall o name s).stumbles.of_attempt hl h
    | ok v => cases he
  | intercept o key =>
    cases reply with
    | error x => exact (tidy_interceptGet hcall o key s).stumbles.of_attempt hl h
    | ok v => cases he
  | set o key v =>
    cases reply with
    | error x => exact (stumbles_set hcall o key v s).of_attempt hl h
    | ok v => cases he
  | delete o key =>
    cases reply with
    | error x => exact (stumbles_delete o key s).of_attempt hl h
    | ok v => cases he
  | callMethod o name args =>
    cases reply with
    | error x => exact (tidy_callMethod hcall o name args s).stumbles.of_attempt hl h
    | ok v => cases he
  | invoke f this args =>
    cases reply with
    | error x => exact (hcall f this args s).stumbles.of_attempt hl h
    | ok v => cases he
  | construct cls backing args =>
    cases reply with
    | error x => exact (tidy_construct hcall cls backing args s).stumbles.of_attempt hl h
    | ok v => cases he
  | dispatch o kind =>
    cases reply with
    | error x => exact (stumbles_dispatch hcall o kind s).of_attempt hl h
    | ok v => cases he
  | _ => cases he

theorem kept_of_error {op : Op} {reply : op.Reply} {e : ScriptError}
    (he : op.error? reply = some e) : op.kept reply = [] := by
  cases op with
  | get | getDefault | intercept | set | delete | callMethod | invoke | construct | dispatch =>
    cases reply with
    | error x => rfl
    | ok v => cases he
  | _ => cases he

theorem isDrop_of_error {op : Op} {reply : op.Reply} {e : ScriptError}
    (he : op.error? reply = some e) : op.isDrop = false := by
  cases op with
  | drop v => cases he
  | _ => rfl

/-- An operation that needs no script and ends with an error has changed nothing, wherever it met
with the error. -/
theorem unharmed_of_refusing {op : Op} {reply : op.Reply} {e : ScriptError} (hs : s.world.Sound)
    (h : perform refusing op s = .ok reply s') (he : op.error? reply = some e)
    (hs' : s'.world.Sound) : s.world.Unharmed s'.world := by
  have hb := budget_pos_of_perform h
  have hops := isValid_of_perform h
  have howners := sameOwners_pulsed s
  have hspulsed : (pulsed s).world.Sound := (Step.background howners).sound hs
  rw [perform_eq hb hops (isDrop_of_error he)] at h
  have hheld : op.operands.forM hold
      { pulsed s with world := (pulsed s).world.pushFrame .operation } =
        .ok () (opened s op.operands) :=
    holdAll_run fun v hv => (isValid_pulsed v).2 (hops v hv)
  have hl : (pulsed s).world.Litters (pulsed s).world.frames (opened s op.operands).world :=
    ((tidy_forM (fun v _ => tidy_hold v) _).of_ok (.start hspulsed.heap .operation) hheld).1
  cases hx : execute refusing op (opened s op.operands) with
  | error e₁ s₁ =>
    rw [hx] at h
    cases e₁ <;> cases h
  | ok reply₁ s₁ =>
    rw [hx] at h
    obtain ⟨rfl, rfl⟩ := EStateM.Result.ok.inj h
    have hl₁ := litters_of_error (tidyCalls_refusing _) hl hx he
    rw [kept_of_error he] at hs' ⊢
    exact (hl₁.unharmed_popFrame hspulsed hs').before howners (Drifts.refl.moveAll _)

end Run

end ScriptPlayer
