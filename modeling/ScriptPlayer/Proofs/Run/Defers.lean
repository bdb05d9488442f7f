import ScriptPlayer.Proofs.Run.Ends
import ScriptPlayer.Script.Interpreter

/-! Ways of calling that give up earlier than others. Every operation goes the same way with the one
as with the other, unless it gives up. -/
namespace ScriptPlayer.Run

variable {α β : Type} {m m' : Run α} {call call' : Caller}

/-- Wherever the first run does not give up it does what the second does. -/
def Defers (m m' : Run α) : Prop := ∀ s, (∃ s', m s = .error .exhausted s') ∨ m s = m' s

def CallsDefer (call call' : Caller) : Prop :=
  ∀ f this args, Defers (call f this args) (call' f this args)

theorem defers_refl (m : Run α) : Defers m m := fun _ => .inr rfl

theorem defers_exhausted (m : Run α) : Defers (throw .exhausted) m := fun s => .inl ⟨s, rfl⟩

theorem Defers.bind {k k' : α → Run β} (hm : Defers m m') (hk : ∀ a, Defers (k a) (k' a)) :
    Defers (m >>= k) (m' >>= k') := by
  intro s
  rcases hm s with ⟨s', hrun⟩ | hrun
  · exact .inl ⟨s', bind_of_error hrun k⟩
  · rw [bind_run, bind_run, ← hrun]
    cases m s with
    | ok a s' => exact hk a s'
    | error e s' => exact .inr rfl

theorem Defers.attempt (hm : Defers m m') : Defers (attempt m) (attempt m') := by
  intro s
  unfold Run.attempt
  rcases hm s with ⟨s', hrun⟩ | hrun
  · exact .inl ⟨s', by rw [hrun]⟩
  · exact .inr (by rw [hrun])

theorem Defers.framed {p : Purpose} {keep : α → List Value} (hm : Defers m m') :
    Defers (framed p keep m) (framed p keep m') := by
  intro s
  unfold Run.framed
  rcases hm { s with world := s.world.pushFrame p } with ⟨s', hrun⟩ | hrun
  · exact .inl ⟨s', by rw [hrun]⟩
  · exact .inr (by rw [hrun])

theorem Defers.discard (hm : Defers m m') : Defers (discard m) (discard m') :=
  hm.bind fun _ => defers_refl _

theorem Defers.forEffect (hm : Defers m m') : Defers (forEffect m) (forEffect m') :=
  hm.discard.framed

theorem defers_forM {l : List α} {f f' : α → Run Unit} (hf : ∀ a, Defers (f a) (f' a)) :
    Defers (l.forM f) (l.forM f') := by
  induction l with
  | nil => exact defers_refl _
  | cons a l ih =>
    change Defers (f a >>= fun _ => l.forM f) (f' a >>= fun _ => l.forM f')
    exact (hf a).bind fun _ => ih

variable (hcall : CallsDefer call call')

include hcall

theorem defers_getDefault (o : ObjectId) (name : QName) :
    Defers (getDefault call o name) (getDefault call' o name) := by
  refine (defers_refl _).bind fun i => (defers_refl _).bind fun w => ?_
  cases i.lookup w.classes name with
  | value v => exact defers_refl _
  | getter f => exact (hcall f o []).bind fun _ => defers_refl _
  | absent => exact defers_refl _

omit hcall in
theorem Defers.guarded {m m' : Run Value} (o : ObjectId) (hm : Defers m m') :
    Defers (guarded o m) (guarded o m') :=
  (defers_refl _).bind fun _ => hm.framed.attempt.bind fun _ => defers_refl _

theorem defers_interceptGet (o : ObjectId) (key : Key) :
    Defers (interceptGet call o key) (interceptGet call' o key) := by
  refine (defers_refl _).bind fun i => ?_
  cases i.backing with
  | proxy active =>
    cases active with
    | true => exact defers_refl _
    | false =>
      refine (defers_getDefault hcall o overrideName).bind fun found => ?_
      cases found with
      | none => exact defers_refl _
      | some v =>
        cases v with
        | function f =>
          refine (defers_refl _).bind fun w => ?_
          exact ((hcall f o _).guarded o).bind fun _ => defers_refl _
        | _ => exact defers_refl _
  | _ => exact defers_refl _

theorem defers_get (o : ObjectId) (key : Key) : Defers (get call o key) (get call' o key) := by
  refine (defers_interceptGet hcall o key).bind fun found => ?_
  cases found with
  | some v => exact defers_refl _
  | none =>
    refine (defers_refl _).bind fun i => (defers_refl _).bind fun w =>
      (defers_refl _).bind fun found => ?_
    cases found with
    | value v => exact defers_refl _
    | getter f => exact (hcall f o []).bind fun _ => defers_refl _
    | absent => exact defers_refl _

theorem defers_set (o : ObjectId) (key : Key) (v : Value) :
    Defers (set call o key v) (set call' o key v) := by
  refine (defers_refl _).bind fun i => (defers_refl _).bind fun w =>
    (defers_refl _).bind fun written => ?_
  cases written with
  | stored j => exact defers_refl _
  | setter f => exact (hcall f o [v]).forEffect

theorem defers_callMethod (o : ObjectId) (name : QName) (args : List Value) :
    Defers (callMethod call o name args) (callMethod call' o name args) := by
  refine (defers_getDefault hcall o name).bind fun found => ?_
  cases found with
  | none => exact defers_refl _
  | some v =>
    cases v with
    | function f => exact hcall f o args
    | _ => exact defers_refl _

theorem defers_construct (cls : ClassId) (backing : Option BackingSpec) (args : List Value) :
    Defers (construct call cls backing args) (construct call' cls backing args) := by
  refine (defers_refl _).bind fun o => (defers_refl _).bind fun _ =>
    (defers_refl _).bind fun w => ?_
  cases w.classes.findConstructor cls with
  | some f => exact (hcall f o args).forEffect.bind fun _ => defers_refl _
  | none => exact defers_refl _

theorem defers_dispatch (target : ObjectId) (kind : String) :
    Defers (dispatch call target kind) (dispatch call' target kind) := by
  refine (defers_refl _).bind fun l => ?_
  dsimp only
  split
  · exact defers_refl _
  · refine (defers_refl _).bind fun _ => (defers_refl _).bind fun cls =>
      (defers_construct hcall cls none _).bind fun event =>
      (defers_set hcall event _ _).bind fun _ => ?_
    exact (defers_forM fun f => (hcall f target _).forEffect.attempt.discard).bind fun _ =>
      defers_refl _

theorem defers_eventKind (v : Value) : Defers (eventKind call v) (eventKind call' v) := by
  apply Defers.framed
  cases v with
  | object event => exact (defers_get hcall event _).bind fun _ => defers_refl _
  | _ => exact defers_refl _

theorem defers_initEvent (o : ObjectId) (args : List Value) :
    Defers (initEvent call o args) (initEvent call' o args) :=
  (defers_refl _).bind fun _ => (defers_refl _).bind fun _ =>
    (defers_set hcall o _ _).bind fun _ => defers_set hcall o _ _

theorem defers_initSoundTransform (o : ObjectId) (args : List Value) :
    Defers (initSoundTransform call o args) (initSoundTransform call' o args) :=
  (defers_set hcall o _ _).bind fun _ => defers_set hcall o _ _

theorem defers_builtin (b : Builtin) (this : ObjectId) (args : List Value) :
    Defers (builtin call b this args) (builtin call' b this args) := by
  cases b with
  | newEvent => exact (defers_initEvent hcall this args).bind fun _ => defers_refl _
  | newSoundTransform =>
    exact (defers_initSoundTransform hcall this args).bind fun _ => defers_refl _
  | dispatchEvent =>
    exact (defers_eventKind hcall _).bind fun kind =>
      (defers_dispatch hcall this kind).bind fun _ => defers_refl _
  | _ => exact defers_refl _

theorem defers_execute (op : Op) : Defers (execute call op) (execute call' op) := by
  cases op with
  | construct cls backing args => exact (defers_construct hcall cls backing args).attempt
  | get o key => exact (defers_get hcall o key).attempt
  | getDefault o name => exact (defers_getDefault hcall o name).attempt
  | intercept o key => exact (defers_interceptGet hcall o key).attempt
  | set o key v => exact (defers_set hcall o key v).attempt
  | callMethod o name args => exact (defers_callMethod hcall o name args).attempt
  | invoke f this args => exact (hcall f this args).attempt
  | dispatch o kind => exact (defers_dispatch hcall o kind).attempt
  | _ => exact defers_refl _

theorem defers_perform (op : Op) : Defers (perform call op) (perform call' op) :=
  (defers_refl _).bind fun _ =>
    ((defers_refl _).bind fun _ => defers_execute hcall op).framed.bind fun _ => defers_refl _

end ScriptPlayer.Run
