import ScriptPlayer.Proofs.Container.Listeners
import ScriptPlayer.Proofs.Run.NewEvent

/-! What a dispatch does once it has looked at the listeners: it makes an event, and then calls the
listeners that it has seen, one after the other, whatever becomes of the list meanwhile. -/
namespace ScriptPlayer

open World

namespace Run

variable {call : Caller} {s : State}

/-- The state in which a listener is called: a frame is open that takes what the call hands over. -/
def calling (s : State) : State := { s with world := s.world.pushFrame .operation }

def called (s : State) : State := { s with world := s.world.popFrame [] }

/-- A call of these listeners one after the other, each with the target as its receiver and with the
event as its one argument, whatever the listeners do. What a listener returns and what it raises
goes no further; a fault ends it all. -/
inductive Notifies (call : Caller) (target event : ObjectId) :
    List FunctionId → State → EStateM.Result Halt State Unit → Prop
  | nil (s : State) : Notifies call target event [] s (.ok () s)
  | returned {f : FunctionId} {rest : List FunctionId} {s s' : State} {v : Value}
      {out : EStateM.Result Halt State Unit}
      (here : ∀ u ∈ [Value.function f, .object target, .object event], s.world.isValid u)
      (h : call f target [.object event] (calling s) = .ok v s')
      (next : Notifies call target event rest (called s') out) :
      Notifies call target event (f :: rest) s out
  | raised {f : FunctionId} {rest : List FunctionId} {s s' : State} {x : ScriptError}
      {out : EStateM.Result Halt State Unit}
      (here : ∀ u ∈ [Value.function f, .object target, .object event], s.world.isValid u)
      (h : call f target [.object event] (calling s) = .error (.error x) s')
      (next : Notifies call target event rest (called s') out) :
      Notifies call target event (f :: rest) s out
  | halted {f : FunctionId} {rest : List FunctionId} {s s' : State} {e : Halt}
      (here : ∀ u ∈ [Value.function f, .object target, .object event], s.world.isValid u)
      (h : call f target [.object event] (calling s) = .error e s') (he : ∀ x, e ≠ .error x) :
      Notifies call target event (f :: rest) s (.error e s')

theorem Notifies.not_raised {target event : ObjectId} {fs : List FunctionId} {x : ScriptError}
    {s' : State} : ¬ Notifies call target event fs s (.error (.error x) s') := by
  intro h
  generalize hout : EStateM.Result.error (Halt.error x) s' = out at h
  induction h with
  | nil => cases hout
  | returned _ _ _ ih => exact ih hout
  | raised _ _ _ ih => exact ih hout
  | halted _ _ he => exact he x (EStateM.Result.error.inj hout).1.symm

theorem notify_run (call : Caller) (target event : ObjectId) (f : FunctionId) (s : State) :
    notify call target event f s =
      match call f target [.object event] (calling s) with
      | .ok _ s' | .error (.error _) s' => .ok () (called s')
      | .error e s' => .error e s' := by
  have hdiscard : discard (call f target [.object event]) = (do
    let _ ← call f target [.object event]
    pure () : Run Unit) := rfl
  have hstart : ({ s with world := s.world.pushFrame .operation } : State) = calling s := rfl
  unfold notify Run.forEffect framed
  rw [hdiscard]
  cases hm : call f target [.object event] (calling s) with
  | ok v s' =>
    refine bind_of_ok (attempt_of_ok (a := ()) ?_) _
    dsimp only
    rw [hstart, bind_of_ok hm]
    rfl
  | error e s' =>
    cases e with
    | error x =>
      refine bind_of_ok (attempt_of_error (e := x) ?_) _
      dsimp only
      rw [hstart, bind_of_error hm]
      rfl
    | abort x | exhausted =>
      refine bind_of_error (?_ : attempt _ s = _) _
      unfold attempt
      dsimp only
      rw [hstart, bind_of_error hm]

theorem notifies_forM (hcall : Calls call) {target event : ObjectId} {fs : List FunctionId}
    (hs : s.world.Sound) (hst : s.world.Staffed) (htarget : HeldBy s.world.frames (.object target))
    (hevent : s.world.InHand (.object event)) (hfs : ∀ f ∈ fs, s.world.InHand (.function f)) :
    Notifies call target event fs s (fs.forM (notify call target event) s) := by
  induction fs generalizing s with
  | nil => exact .nil s
  | cons f fs ih =>
    have here : ∀ u ∈ [Value.function f, .object target, .object event], s.world.isValid u := by
      simp only [List.forall_mem_cons]
      exact ⟨hs.isValid_of_inHand (hfs f (List.mem_cons_self ..)), hs.isValid_of_heldBy htarget,
        hs.isValid_of_inHand hevent, fun u hu => absurd hu List.not_mem_nil⟩
    have hends := ends_notify hcall hs hst target event f
    have hnext : ∀ s', notify call target event f s = .ok () s' →
        Notifies call target event fs s' (fs.forM (notify call target event) s') := by
      intro s' hrun
      obtain ⟨hsteps, hg, -⟩ := hends.of_ok hrun
      exact ih (hsteps.sound hs) (hsteps.staffed hst) (hg.heldBy htarget) (hevent.gains hg)
        fun g hmem => (hfs g (List.mem_cons_of_mem f hmem)).gains hg
    have hcons : (f :: fs).forM (notify call target event) = (do
      notify call target event f
      fs.forM (notify call target event) : Run Unit) := rfl
    have hnotify := notify_run call target event f s
    rw [hcons]
    cases hm : call f target [.object event] (calling s) with
    | ok v s' =>
      rw [hm] at hnotify
      rw [bind_of_ok hnotify]
      exact .returned here hm (hnext _ hnotify)
    | error e s' =>
      rw [hm] at hnotify
      cases e with
      | error x =>
        rw [bind_of_ok hnotify]
        exact .raised here hm (hnext _ hnotify)
      | abort x =>
        rw [bind_of_error hnotify]
        exact .halted here hm fun _ he => Halt.noConfusion he
      | exhausted =>
        rw [bind_of_error hnotify]
        exact .halted here hm fun _ he => Halt.noConfusion he

end Run

/-! The dispatch as a whole -/

namespace Listeners

variable (l : Listeners) (kind : String)

theorem mem_handles_of_forKind {f : FunctionId} (hf : f ∈ l.forKind kind) :
    Value.function f ∈ l.handles := by
  obtain ⟨e, he, rfl⟩ := List.mem_map.1 hf
  exact List.mem_map.2 ⟨e, List.mem_of_mem_filter he, rfl⟩

end Listeners

def World.listeners? (w : World) (o : ObjectId) : Option Listeners :=
  (w.instance? o).bind fun i => (i.listeners w.classes).toOption

theorem World.exists_of_listeners? {w : World} {o : ObjectId} {l : Listeners}
    (h : w.listeners? o = some l) :
    ∃ i timer, w.instance? o = some i ∧ i.listeners w.classes = .ok l ∧
      i.backing = .host (.eventTarget l timer) := by
  obtain ⟨i, hi, hl⟩ := Option.bind_eq_some_iff.1 h
  have hl : i.listeners w.classes = .ok l := by
    cases hx : i.listeners w.classes with
    | ok l' =>
      rw [hx] at hl
      rw [Option.some.inj hl]
    | error e =>
      rw [hx] at hl
      cases hl
  obtain ⟨timer, hb⟩ := Instance.backing_of_listeners hl
  exact ⟨i, timer, hi, hl, hb⟩

/-- From one state to the other an event has been made for a dispatch to this object: its cell is a
new one, and of the other objects none has changed. -/
structure State.Announces (s : State) (cls : ClassId) (o : ObjectId) (kind : String)
    (event : ObjectId) (s₁ : State) : Prop where
  fresh : event = s.world.heap.cells.length
  steps : World.Steps s.world s₁.world
  cls : (s₁.world.instance? event).map Instance.cls = some cls
  type : (s₁.world.instance? event).bind (·.slots.get? (.pub "type")) = some (.string kind)
  target : (s₁.world.instance? event).bind (·.slots.get? (.pub "target")) = some (.object o)
  others : ∀ o' i, o' ≠ event → s₁.world.instance? o' = some i → s.world.instance? o' = some i
  listeners : s₁.world.listeners? o = s.world.listeners? o

namespace Run

variable {call : Caller} {s : State} {o : ObjectId} {l : Listeners} {kind : String}
  {r : PlayerClasses}

theorem listenersOf_run (hl : s.world.listeners? o = some l) : listenersOf o s = .ok l s := by
  obtain ⟨i, -, hi, hl, -⟩ := World.exists_of_listeners? hl
  unfold listenersOf
  rw [bind_of_ok (instanceOf_run hi), bind_of_ok (m := world) rfl, hl]
  rfl

theorem eventClass_run (hrun : s.world.runtime = some r) : eventClass s = .ok r.event s := by
  refine (bind_of_ok (m := world) rfl _).trans ?_
  rw [hrun]
  rfl

theorem dispatch_idle (hl : s.world.listeners? o = some l) (hk : l.has kind = false) :
    dispatch call o kind s = .ok 0 s := by
  refine (bind_of_ok (listenersOf_run hl) _).trans ?_
  rw [(l.forKind_eq_nil_iff kind).2 hk]
  rfl

def counted (n : Nat) : EStateM.Result Halt State Unit → EStateM.Result Halt State Nat
  | .ok _ s => .ok n s
  | .error e s => .error e s

theorem holdListeners_run (hs : s.world.Sound) (hl : s.world.listeners? o = some l)
    (kind : String) :
    (∀ v ∈ (l.forKind kind).map Value.function, s.world.isValid v) ∧
      (l.forKind kind).forM (fun f => hold (.function f)) s =
        .ok () { s with world := s.world.holdAll ((l.forKind kind).map Value.function) } := by
  obtain ⟨i, timer, hi, -, hbacking⟩ := World.exists_of_listeners? hl
  have hvalid : ∀ v ∈ (l.forKind kind).map Value.function, s.world.isValid v := by
    intro v hv
    obtain ⟨f, hf, rfl⟩ := List.mem_map.1 hv
    have hmem := l.mem_handles_of_forKind kind hf
    refine hs.isValid_of_mem_handles hi ?_
    unfold Instance.handles Backing.handles
    rw [hbacking]
    simp [hmem]
  have hmap : (l.forKind kind).forM (fun f => hold (.function f)) =
      ((l.forKind kind).map Value.function).forM hold := (List.forM_map ..).symm
  refine ⟨hvalid, ?_⟩
  rw [hmap]
  exact holdAll_run hvalid

theorem exists_event (hs : s.world.Sound) (hst : s.world.Staffed) (hb : 0 < s.budget)
    (hrun : s.world.runtime = some r) (hr : s.world.MakesEvents r)
    (ho : HeldBy s.world.frames (.object o)) (kind : String) (depth : Nat) :
    ∃ event s₁ s₂,
      construct (callFunction (depth + 1)) r.event none [.string kind] s = .ok event s₁ ∧
      set (callFunction (depth + 1)) event (.pub "target") (.object o) s₁ = .ok () s₂ ∧
      Steps s.world s₂.world ∧ Gains s.world.frames s₂.world.frames ∧
      event = s.world.heap.cells.length ∧ s₂.world.InHand (.object event) ∧
      s.world.Shapes event (((Instance.marked r.event).asEvent kind .null).withSlot (.pub "target")
        (.object o)) s₂.world := by
  obtain ⟨event, s₁, hconstruct, hsteps₁, hg₁, hid, hhand₁, hshape₁⟩ :=
    returns_construct hs hst hb hrun hr kind depth
  have hs₁ := hsteps₁.sound hs
  have hbare : Bare s₁.world.classes ((Instance.marked r.event).asEvent kind .null) := by
    rw [hshape₁.classes]
    exact ⟨rfl, rfl, (bare_marked hr).2.2⟩
  have hslot : Returns (set (callFunction (depth + 1)) event (Key.ofQName (.pub "target"))
      (.object o)) s₁ _ :=
    returns_setSlot hs₁ hhand₁.holds hshape₁.found hbare (.pub "target")
      (hs₁.isValid_of_heldBy (hg₁.heldBy ho))
  obtain ⟨_, s₂, hset, hsteps₂, hg₂, hshape₂⟩ := hslot
  exact ⟨event, s₁, s₂, hconstruct, hset, hsteps₁.trans hsteps₂, hg₁.trans hg₂, hid,
    hhand₁.gains hg₂, hshape₁.trans hshape₂⟩

theorem exists_announced (hs : s.world.Sound) (hst : s.world.Staffed) (hb : 0 < s.budget)
    (hrun : s.world.runtime = some r) (hr : s.world.MakesEvents r)
    (ho : HeldBy s.world.frames (.object o)) (hl : s.world.listeners? o = some l)
    {vs : List Value} (hvs : ∀ v ∈ vs, s.world.isValid v) (kind : String) (depth : Nat) :
    ∃ event s₁ s₂,
      construct (callFunction (depth + 1)) r.event none [.string kind]
        { s with world := s.world.holdAll vs } = .ok event s₁ ∧
      set (callFunction (depth + 1)) event (.pub "target") (.object o) s₁ = .ok () s₂ ∧
      s.Announces r.event o kind event s₂ ∧ HeldBy s₂.world.frames (.object o) ∧
      s₂.world.InHand (.object event) ∧ ∀ v ∈ vs, s₂.world.InHand v := by
  obtain ⟨hsteps₀, hg₀, hhand₀, hsame₀⟩ := (ends_holdAll vs hs).of_ok (holdAll_run hvs)
  have hs₀ := hsteps₀.sound hs
  have hclasses₀ := (reframes_holdAll s.world vs).sameClasses
  have hlength₀ : (s.world.holdAll vs).heap.cells.length = s.world.heap.cells.length := by
    obtain ⟨_, _, hframes⟩ := hs.exists_frame
    rw [holdAll_eq hframes]
    exact Heap.length_cells_retainAll _ _
  obtain ⟨event, s₁, s₂, hconstruct, hset, hsteps, hg, hid, hhand, hshape⟩ :=
    exists_event hs₀ (hsteps₀.staffed hst) hb (hclasses₀.runtime.trans hrun)
      (hr.later hst.toRegistered (hst.event r hrun) hsteps₀.later hs₀) (hg₀.heldBy ho) kind depth
  have ho₂ := hg.heldBy (hg₀.heldBy ho)
  have hothers : ∀ o' i, o' ≠ event → s₂.world.instance? o' = some i →
      s.world.instance? o' = some i := fun o' i hne hi =>
    (hsame₀.instance? o').symm.trans (hshape.spares o' i hne hi)
  have hlisteners : s₂.world.listeners? o = s.world.listeners? o := by
    obtain ⟨i, -, hi, -, -⟩ := World.exists_of_listeners? hl
    obtain ⟨j, hj⟩ := (hsteps.sound hs₀).exists_instance_of_heldBy ho₂
    have hne : o ≠ event := by
      rw [hid, hlength₀]
      exact Nat.ne_of_lt (lt_of_instance? hi)
    unfold listeners?
    rw [hj, hothers o j hne hj, hshape.classes, hclasses₀.classes]
  refine ⟨event, s₁, s₂, hconstruct, hset, ?_, ho₂, hhand, fun v hv => (hhand₀ v hv).gains hg⟩
  exact ⟨hid.trans hlength₀, hsteps₀.trans hsteps, by rw [hshape.found]; rfl,
    by rw [hshape.found]; rfl, by rw [hshape.found]; rfl, hothers, hlisteners⟩

/-- A dispatch with listeners makes an event, tells it to each of them and counts them. -/
theorem dispatch_run (hs : s.world.Sound) (hst : s.world.Staffed) (hb : 0 < s.budget)
    (hrun : s.world.runtime = some r) (hr : s.world.MakesEvents r)
    (ho : HeldBy s.world.frames (.object o)) (hl : s.world.listeners? o = some l)
    (hk : l.has kind) (depth : Nat) :
    ∃ event s₁ out, s.Announces r.event o kind event s₁ ∧
      Notifies (callFunction (depth + 1)) o event (l.forKind kind) s₁ out ∧
      dispatch (callFunction (depth + 1)) o kind s = counted (l.forKind kind).length out := by
  have hne : (l.forKind kind).isEmpty = false := by
    rw [List.isEmpty_eq_false_iff, ne_eq, l.forKind_eq_nil_iff kind, hk]
    exact Bool.noConfusion
  obtain ⟨hvalid, hhold⟩ := holdListeners_run hs hl kind
  obtain ⟨event, s₁, s₂, hconstruct, hset, hannounces, ho₂, hhand, hlisteners⟩ :=
    exists_announced hs hst hb hrun hr ho hl hvalid kind depth
  have hnotifies := notifies_forM (calls_callFunction (depth + 1))
    (hannounces.steps.sound hs) (hannounces.steps.staffed hst) ho₂ hhand
    fun f hf => hlisteners _ (List.mem_map_of_mem hf)
  refine ⟨event, s₂, _, hannounces, hnotifies, ?_⟩
  have hruntime := (reframes_holdAll s.world ((l.forKind kind).map .function)).sameClasses.runtime
  refine (bind_of_ok (listenersOf_run hl) _).trans ?_
  rw [if_neg (by rw [hne]; exact Bool.false_ne_true), bind_of_ok hhold]
  refine (bind_of_ok (eventClass_run (hruntime.trans hrun)) _).trans ?_
  rw [bind_of_ok hconstruct, bind_of_ok hset, bind_run]
  cases (l.forKind kind).forM (notify (callFunction (depth + 1)) o event) s₂ with
  | ok _ s₃ => rfl
  | error e s₃ => rfl

end Run

end ScriptPlayer
