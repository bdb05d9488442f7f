import ScriptPlayer.Proofs.Run.Bytes
import ScriptPlayer.Proofs.Run.NewEvent
import ScriptPlayer.Proofs.World.Rewritten

/-! Operations and calls of built-in methods that do nothing but store instances with the handles
that they had. Their frames come and go, and the heap ends as if nothing had been held meanwhile. -/
namespace ScriptPlayer

open World

structure World.HasMethod (w : World) (o : ObjectId) (name : QName) (f : FunctionId)
    (b : Builtin) : Prop where
  found : ∃ i, w.instance? o = some i ∧ i.lookup w.classes name = .value (.function f)
  built : ∃ fn, w.heap.function? f = some fn ∧ fn.code = .builtin b

namespace Run

variable {call : Caller} {s : State} {o : ObjectId} {f : FunctionId} {b : Builtin}
  {name : QName} {args : List Value} {depth : Nat} {l : List (ObjectId × Instance)}

theorem live_of_valid {vs : List Value} (hs : s.world.Sound)
    (hvs : ∀ v ∈ vs, s.world.isValid v) (l : List (ObjectId × Instance)) :
    ∀ id, 0 < refs id vs → 0 < (s.world.heap.withInstances l).count id := by
  intro id hpos
  obtain ⟨c, hc, hlive⟩ := hs.exists_cell hvs hpos
  rw [Heap.count_withInstances, Heap.count_eq hc]
  exact hlive

theorem heap_opened_withInstances (s : State) (vs : List Value)
    (l : List (ObjectId × Instance)) : (opened s vs).world.heap.withInstances l =
      (s.world.heap.withInstances l).retainAll vs := by
  rw [← Heap.retainAll_withInstances]
  exact congrArg (fun w : World => w.heap.withInstances l) (world_opened s vs)

theorem perform_withInstances {op : Op} {reply : op.Reply} (hs : s.world.Sound)
    (hb : 0 < s.budget) (hops : ∀ v ∈ op.operands, s.world.isValid v)
    (hdrop : op.isDrop = false) (hkept : ∀ id, refs id (op.kept reply) = 0)
    (hx : execute call op (opened s op.operands) = .ok reply { opened s op.operands with
      world := (opened s op.operands).world.withInstances l }) :
    ∃ s', perform call op s = .ok reply s' ∧ s'.budget = s.budget - 1 ∧
      s'.world.heap = s.world.heap.withInstances l := by
  obtain ⟨below, rest, hf⟩ := hs.exists_frame
  have hframes : ((opened s op.operands).world.withInstances l).frames =
      ⟨.operation, op.operands.reverse⟩ :: below :: rest := by
    rw [← hf]
    exact frames_opened s op.operands
  refine ⟨_, perform_run hb hops hdrop hx, rfl, ?_⟩
  rw [popFrame_eq hframes (heap_opened_withInstances s op.operands l)
    (fun id => refs_reverse id _) (live_of_valid hs hops l) hkept]

theorem perform_of_abort {op : Op} {e : Fatal} {s' : State} (hb : 0 < s.budget)
    (hops : ∀ v ∈ op.operands, s.world.isValid v) (hdrop : op.isDrop = false)
    (hx : execute call op (opened s op.operands) = .error (.abort e) s') :
    perform call op s = .error (.abort e) s' := by
  rw [perform_eq hb hops hdrop, hx]
  rfl

/-! Calls of built-in functions -/

def inCall (s : State) (f : FunctionId) (vs : List Value) : State :=
  { pulsed s with world := ((pulsed s).world.pushFrame (.call f)).holdAll vs }

theorem world_inCall (s : State) (f : FunctionId) (vs : List Value) :
    (inCall s f vs).world = { (pulsed s).world with
      heap := s.world.heap.retainAll vs
      frames := ⟨.call f, vs.reverse⟩ :: s.world.frames } := by
  have hown := sameOwners_pulsed s
  have heq := holdAll_eq (w := (pulsed s).world.pushFrame (.call f)) rfl vs
  refine heq.trans ?_
  rw [List.append_nil, pushFrame, hown.heap, hown.frames]

theorem sameContents_inCall (s : State) (f : FunctionId) (vs : List Value) :
    SameContents s.world (inCall s f vs).world := by
  intro id
  rw [world_inCall]
  exact Heap.content?_retainAll _ _ _

theorem steps_inCall {vs : List Value} (hvs : ∀ v ∈ vs, s.world.isValid v) :
    Steps s.world (inCall s f vs).world := by
  have hown := sameOwners_pulsed s
  have hpush : Step (pulsed s).world ((pulsed s).world.pushFrame (.call f)) := .push rfl
  refine ((Step.background hown).steps.tail hpush).trans (steps_holdAll fun v hv => ?_)
  exact (isValid_congr (w := s.world) (fun id => congrArg (Heap.content? · id) hown.heap)
    hown.classes v).2 (hvs v hv)

def closeFrame : EStateM.Result Halt State Value → EStateM.Result Halt State Value
  | .ok v s => .ok v { s with world := s.world.popFrame [v] }
  | .error (.error e) s => .error (.error e) { s with world := s.world.popFrame [] }
  | .error h s => .error h s

theorem framed_eq (p : Purpose) (m : Run Value) (s : State) : framed p (fun v => [v]) m s =
    closeFrame (m { s with world := s.world.pushFrame p }) := by
  unfold framed
  cases m { s with world := s.world.pushFrame p } with
  | ok v s' => rfl
  | error h s' => cases h <;> rfl

theorem callBuiltin_eq {fn : Function} (hb : 0 < s.budget)
    (hf : s.world.heap.function? f = some fn) (hcode : fn.code = .builtin b)
    (hvalid : ∀ v ∈ Value.function f :: .object o :: args, s.world.isValid v) :
    callFunction (depth + 1) f o args s = closeFrame (builtin (callFunction depth) b o args
      (inCall s f (.function f :: .object o :: args))) := by
  have hown := sameOwners_pulsed s
  let entered : State := { pulsed s with world := (pulsed s).world.pushFrame (.call f) }
  have hvalid' : ∀ v ∈ Value.function f :: .object o :: args, entered.world.isValid v :=
    fun v hv => (isValid_congr (w := s.world) (fun id => congrArg (Heap.content? · id) hown.heap)
      hown.classes v).2 (hvalid v hv)
  have hfn : (inCall s f (.function f :: .object o :: args)).world.heap.function? f = some fn :=
    (Heap.function?_congr (sameContents_inCall s f _ f)).trans hf
  refine (bind_of_ok (pulse_run hb) _).trans ((framed_eq _ _ _).trans (congrArg closeFrame ?_))
  refine (bind_of_ok (holdAll_run hvalid') _).trans ((bind_of_ok (functionOf_run hfn) _).trans ?_)
  rw [hcode]

/-! Calls of built-in methods -/

def methodOperands (o : ObjectId) (args : List Value) (f : FunctionId) : List Value :=
  (.object o :: args) ++ [.function f]

def inMethod (s : State) (o : ObjectId) (args : List Value) (f : FunctionId) : State :=
  inCall (opened s (methodOperands o args f)) f (.function f :: .object o :: args)

section Method

variable (hs : s.world.Sound) (hm : s.world.HasMethod o name f b)
  (hargs : ∀ v ∈ args, s.world.isValid v)

include hm hargs

theorem isValid_call : ∀ v ∈ Value.function f :: .object o :: args, s.world.isValid v := by
  obtain ⟨i, hi, -⟩ := hm.found
  obtain ⟨fn, hf, -⟩ := hm.built
  intro v hv
  rcases List.mem_cons.1 hv with rfl | hv
  · exact Option.isSome_iff_exists.2 ⟨fn, hf⟩
  rcases List.mem_cons.1 hv with rfl | hv
  · exact Option.isSome_iff_exists.2 ⟨i, hi⟩
  · exact hargs v hv

theorem isValid_methodOperands : ∀ v ∈ methodOperands o args f, s.world.isValid v := by
  intro v hv
  apply isValid_call hm hargs
  rcases List.mem_append.1 hv with hv | hv
  · exact List.mem_cons_of_mem _ hv
  · rw [List.mem_singleton.1 hv]
    exact List.mem_cons_self ..

theorem isValid_opened_call : ∀ v ∈ Value.function f :: .object o :: args,
    (opened s (methodOperands o args f)).world.isValid v := fun v hv =>
  (isValid_congr (sameContents_opened s _) (sameClasses_opened s _).classes v).2
    (isValid_call hm hargs v hv)

theorem steps_inMethod : Steps s.world (inMethod s o args f).world :=
  (steps_opened (isValid_methodOperands hm hargs)).trans
    (steps_inCall (isValid_opened_call hm hargs))

/-- What a script's call of a built-in method comes to within the operation. -/
theorem callMethod_eq (hb : 1 < s.budget) :
    callMethod (callFunction (depth + 1)) o name args (opened s (.object o :: args)) =
      closeFrame (builtin (callFunction depth) b o args (inMethod s o args f)) := by
  obtain ⟨i, hi, hname⟩ := hm.found
  obtain ⟨fn, hf, hcode⟩ := hm.built
  have hvalid : (opened s (.object o :: args)).world.isValid (.function f) :=
    (isValid_congr (sameContents_opened s _) (sameClasses_opened s _).classes _).2
      (isValid_call hm hargs _ (List.mem_cons_self ..))
  have hfound : conclude (callFunction (depth + 1)) o (i.lookup s.world.classes name)
      (opened s (.object o :: args)) =
        .ok (some (.function f)) (opened s (methodOperands o args f)) := by
    rw [hname, conclude_value hvalid]
    exact congrArg (fun w => EStateM.Result.ok _ { pulsed s with world := w })
      (holdAll_opened s _ [.function f])
  have hf' : (opened s (methodOperands o args f)).world.heap.function? f = some fn :=
    (Heap.function?_congr (sameContents_opened s _ f)).trans hf
  rw [callMethod_concludes (instance?_opened hi), (sameClasses_opened s _).classes,
    bind_of_ok hfound]
  exact callBuiltin_eq (Nat.sub_pos_of_lt hb) hf' hcode (isValid_opened_call hm hargs)

include hs in
theorem perform_method_withInstances (hb : 1 < s.budget)
    (h : builtin (callFunction depth) b o args (inMethod s o args f) =
      .ok .undefined { inMethod s o args f with
        world := (inMethod s o args f).world.withInstances l }) :
    ∃ s', perform (callFunction (depth + 1)) (.callMethod o name args) s =
      .ok (Except.ok Value.undefined) s' ∧ s'.world.heap = s.world.heap.withInstances l := by
  let s₁ := opened s (methodOperands o args f)
  have hvalid := isValid_methodOperands hm hargs
  have hvalid₁ := isValid_opened_call hm hargs
  have hs₁ : s₁.world.Sound := (steps_opened hvalid).sound hs
  obtain ⟨below, rest, hf⟩ := hs.exists_frame
  have hnone : ∀ id, refs id [Value.undefined] = 0 := fun _ => rfl
  have hframes : ((inMethod s o args f).world.withInstances l).frames =
      ⟨.call f, (Value.function f :: .object o :: args).reverse⟩ ::
        ⟨.operation, (methodOperands o args f).reverse⟩ :: below :: rest := by
    rw [← hf, ← frames_opened]
    exact congrArg World.frames (world_inCall s₁ f _)
  have hheap : ((inMethod s o args f).world.withInstances l).heap =
      (s₁.world.heap.withInstances l).retainAll (.function f :: .object o :: args) := by
    rw [← Heap.retainAll_withInstances]
    exact congrArg (fun w : World => w.heap.withInstances l) (world_inCall s₁ f _)
  -- the frame of the call closes first, then that of the operation
  have hcall := popFrame_eq hframes hheap (fun id => refs_reverse id _)
    (live_of_valid hs₁ hvalid₁ l) hnone
  have hx : execute (callFunction (depth + 1)) (.callMethod o name args)
      (opened s (.object o :: args)) = .ok (Except.ok Value.undefined)
        { inMethod s o args f with
          world := ((inMethod s o args f).world.withInstances l).popFrame [.undefined] } := by
    refine attempt_of_ok ((callMethod_eq hm hargs hb).trans ?_)
    rw [h]
    rfl
  refine ⟨_, perform_run (Nat.lt_of_succ_lt hb) ?_ rfl hx, ?_⟩
  · exact fun v hv => hvalid v (List.mem_append_left _ hv)
  · dsimp only
    rw [hcall]
    have hop := popFrame_eq (w := { (inMethod s o args f).world.withInstances l with
      heap := s₁.world.heap.withInstances l
      frames := ⟨.operation, .undefined :: (methodOperands o args f).reverse⟩ :: below :: rest })
      rfl (heap_opened_withInstances s _ l) (fun id => refs_reverse id _)
      (live_of_valid hs hvalid l) hnone
    exact congrArg World.heap hop

theorem perform_method_aborts (hb : 1 < s.budget) {e : Fatal} {s₁ : State}
    (h : builtin (callFunction depth) b o args (inMethod s o args f) = .error (.abort e) s₁) :
    ∃ s', perform (callFunction (depth + 1)) (.callMethod o name args) s =
      .error (.abort e) s' := by
  have hops : ∀ v ∈ (Op.callMethod o name args).operands, s.world.isValid v :=
    fun v hv => isValid_methodOperands hm hargs v (List.mem_append_left _ hv)
  refine ⟨s₁, perform_of_abort (Nat.lt_of_succ_lt hb) hops rfl ?_⟩
  refine attempt_of_abort ((callMethod_eq hm hargs hb).trans ?_)
  rw [h]
  rfl

end Method

end Run

end ScriptPlayer
