import ScriptPlayer.Proofs.Player.Definitions
import ScriptPlayer.Proofs.Player.Guards

/-! How a read on a proxy comes to its override, whichever way the override is defined. A slot or a
method hands it over and no script runs before the guard is set. A getter runs first, with the guard
still clear, so what it reads on its own receiver is intercepted again. -/
namespace ScriptPlayer

open World

namespace Run

variable {call : Caller} {s : State} {o : ObjectId} {i : Instance} {key : Key}

/-- The call of an override that a read has come to. -/
def overriding (call : Caller) (o : ObjectId) (key : Key) (f : FunctionId) (s : State) :
    EStateM.Result Halt State (Except ScriptError (Option Value)) :=
  match s.world.instance? o with
  | some i => leaving o (call f o [.string (key.localName s.world.naming)] (guardedState s o i))
  | none => .error (.abort (.dangling o)) s

def yielding (call : Caller) (o : ObjectId) (key : Key) :
    EStateM.Result Halt State Value →
    EStateM.Result Halt State (Except ScriptError (Option Value))
  | .ok (.function f) s => overriding call o key f s
  | .ok v s => .ok (.error (.overrideNotFunction v.typeName)) s
  | .error (.error e) s => .ok (.error e) s
  | .error h s => .error h s

def intercepting (call : Caller) (o : ObjectId) (i : Instance) (key : Key) (s : State) :
    Found → EStateM.Result Halt State (Except ScriptError (Option Value))
  | .value v => yielding call o key (.ok v { s with world := s.world.hold v })
  | .getter g => yielding call o key (call g o [] s)
  | .absent => attempt (conclude call o (i.ordinary s.world.classes key)) s

def intercepted (call : Caller) (o : ObjectId) (key : Key) : Value → Run (Option Value)
  | .function f => do
    let name := key.localName (← world).naming
    return some (← guarded o (call f o [.string name]))
  | v => fail (.overrideNotFunction v.typeName)

theorem attempt_of_run {α : Type} {m m' : Run α} {s' : State} (h : m s = m' s') :
    attempt m s = attempt m' s' := by
  unfold attempt
  rw [h]

theorem get_of_some {v : Value} {s₁ : State} (hi : s.world.instance? o = some i)
    (hb : i.backing = .proxy false)
    (hfound : getDefault call o overrideName s = .ok (some v) s₁) :
    get call o key s = intercepted call o key v s₁ := by
  have hintercept : interceptGet call o key s = intercepted call o key v s₁ := by
    refine (bind_of_ok (instanceOf_run hi) _).trans ?_
    rw [hb]
    refine (bind_of_ok hfound _).trans ?_
    cases v <;> rfl
  unfold get
  rw [bind_run, hintercept]
  cases v with
  | function f =>
    simp only [intercepted, bind_run, world]
    cases guarded o (call f o [.string (key.localName s₁.world.naming)]) s₁ <;> rfl
  | _ => rfl

/-- Once it is found, the override is called a single time, with the guard set. -/
theorem attempt_intercepted {i₁ : Instance} (hcall : Calls call) (hs : s.world.Sound)
    (hst : s.world.Staffed) (ho : HeldBy s.world.frames (.object o))
    (hi : s.world.instance? o = some i₁) (hb : i₁.backing = .proxy false) (v : Value) :
    attempt (intercepted call o key v) s = yielding call o key (.ok v s) := by
  cases v with
  | function f =>
    simp only [yielding, overriding, hi]
    exact guarded_call hcall hs hst ho hi hb
  | _ => rfl

/-- A read on a proxy whose guard is clear looks for the override once and calls what it finds. -/
theorem get_clear (hcall : Calls call) (hs : s.world.Sound) (hst : s.world.Staffed)
    (ho : HeldBy s.world.frames (.object o)) (hi : s.world.instance? o = some i)
    (hb : i.backing = .proxy false) : attempt (get call o key) s =
      intercepting call o i key s (i.lookup s.world.classes overrideName) := by
  have hdefault : getDefault call o overrideName s =
      conclude call o (i.lookup s.world.classes overrideName) s := getDefault_run hi overrideName
  cases hl : i.lookup s.world.classes overrideName with
  | value v =>
    have hmem : v ∈ (i.lookup s.world.classes overrideName).handles := by
      rw [hl]
      exact List.mem_singleton_self v
    have hvalid := hs.isValid_of_lookup hi hmem
    have hstep : Step s.world (s.world.hold v) := .hold hvalid
    have hi' : (s.world.hold v).instance? o = some i :=
      (SameContents.instance? (content?_hold s.world v) o).trans hi
    rw [hl, conclude_value hvalid] at hdefault
    rw [attempt_of_run (get_of_some hi hb hdefault)]
    exact attempt_intercepted hcall (hstep.sound hs) (hstep.staffed hst)
      ((gains_hold s.world v).heldBy ho) hi' hb v
  | getter g =>
    have hends := hcall g o [] s hs hst
    rw [hl] at hdefault
    cases hg : call g o [] s with
    | ok v s₁ =>
      obtain ⟨hsteps, hgains, -⟩ := hends.of_ok hg
      obtain ⟨i₁, hi₁, hb₁⟩ := exists_clear hs hi hb ho hsteps hgains
      have hfound : getDefault call o overrideName s = .ok (some v) s₁ :=
        hdefault.trans (bind_of_ok hg _)
      rw [attempt_of_run (get_of_some hi hb hfound)]
      simp only [intercepting, hg]
      exact attempt_intercepted hcall (hsteps.sound hs) (hsteps.staffed hst)
        (hgains.heldBy ho) hi₁ hb₁ v
    | error h s₁ =>
      have hfails : get call o key s = .error h s₁ := by
        have hfound : getDefault call o overrideName s = .error h s₁ :=
          hdefault.trans (bind_of_error hg _)
        have hintercept : interceptGet call o key s = .error h s₁ := by
          refine (bind_of_ok (instanceOf_run hi) _).trans ?_
          rw [hb]
          exact bind_of_error hfound _
        exact bind_of_error hintercept _
      simp only [intercepting, hg]
      unfold attempt
      rw [hfails]
      cases h <;> rfl
  | absent =>
    have hread : get call o key s = conclude call o (i.ordinary s.world.classes key) s := by
      rw [get_run hi (fun _ => hl) key, Instance.read_of_proxy hb]
    exact attempt_congr hread

theorem isGuarded_guardedState (hs : s.world.Sound) (ho : HeldBy s.world.frames (.object o))
    (hi : s.world.instance? o = some i) (hb : i.backing = .proxy false) :
    (guardedState s o i).world.isGuarded o ∧ (guardedState s o i).world.overrideCalls o = 1 := by
  have henter : Step s.world (guardedState s o i).world := .enter hi hb ho
  have hguards := (henter.sound hs).guards o
  have hpos : 0 < (guardedState s o i).world.overrideCalls o :=
    overrideCalls_pos_iff.2 ⟨_, List.mem_cons_self .., rfl⟩
  cases hg : (guardedState s o i).world.isGuarded o with
  | true => exact ⟨rfl, by rw [hguards, hg]; rfl⟩
  | false =>
    rw [hguards, hg] at hpos
    exact absurd hpos (Nat.lt_irrefl 0)

end Run

open Run

def World.Overriding (w : World) (o : ObjectId) : Prop := ∃ f ∈ w.frames, f.purpose = .override o

/-- How reads come to the overrides of proxies: never inside a call of the same override, though a
getter that gives the override runs before the guard is set. -/
structure State.OverrideDiscipline (s : State) : Prop where
  guarded : ∀ o, s.world.isGuarded o ↔ s.world.Overriding o
  /-- in the course of a call of the override a read is the ordinary lookup -/
  within : ∀ depth o i active key, 0 < s.budget →
    (∀ v ∈ (Op.get o key).operands, s.world.isValid v) → s.world.instance? o = some i →
    i.backing = .proxy active → s.world.Overriding o →
    perform (callFunction depth) (.get o key) s = closing (.get o key)
      (attempt (conclude (callFunction depth) o (i.ordinary s.world.classes key))
        (opened s (Op.get o key).operands))
  /-- any other read looks the override up once, and calls it at most once -/
  outermost : ∀ depth o i active key, 0 < s.budget →
    (∀ v ∈ (Op.get o key).operands, s.world.isValid v) → s.world.instance? o = some i →
    i.backing = .proxy active → ¬ s.world.Overriding o →
    perform (callFunction depth) (.get o key) s = closing (.get o key)
      (intercepting (callFunction depth) o i key (opened s (Op.get o key).operands)
        (i.lookup s.world.classes overrideName))
  /-- an override that a slot or a method hands over is called with the guard set -/
  handedOver : ∀ o i key f, (∀ v ∈ (Op.get o key).operands, s.world.isValid v) →
    s.world.instance? o = some i → i.backing = .proxy false →
    i.lookup s.world.classes overrideName = .value (.function f) →
    (entered (opened s (Op.get o key).operands) o i f).world.isGuarded o ∧
      (entered (opened s (Op.get o key).operands) o i f).world.overrideCalls o = 1
  /-- a getter runs with the guard clear; what it gives is called with the guard set -/
  given : ∀ depth o i key g, (∀ v ∈ (Op.get o key).operands, s.world.isValid v) →
    s.world.instance? o = some i → i.backing = .proxy false →
    i.lookup s.world.classes overrideName = .getter g →
    ¬ (opened s (Op.get o key).operands).world.isGuarded o ∧
      ∀ v s₁, callFunction depth g o [] (opened s (Op.get o key).operands) = .ok v s₁ →
        ∃ i₁, s₁.world.instance? o = some i₁ ∧ i₁.backing = .proxy false ∧
          (guardedState s₁ o i₁).world.isGuarded o ∧
          (guardedState s₁ o i₁).world.overrideCalls o = 1

variable {s : State}

theorem World.Sound.isGuarded_iff {w : World} (hs : w.Sound) (o : ObjectId) :
    w.isGuarded o ↔ w.Overriding o := by
  have hcalls := hs.guards o
  have hpos : 0 < w.overrideCalls o ↔ w.Overriding o := overrideCalls_pos_iff
  rw [← hpos, hcalls]
  cases w.isGuarded o <;> simp

theorem World.Sound.active_iff {w : World} (hs : w.Sound) {o : ObjectId} {i : Instance}
    {active : Bool} (hi : w.instance? o = some i) (hb : i.backing = .proxy active) :
    active = true ↔ w.Overriding o := by
  rw [← hs.isGuarded_iff, isGuarded_of_instance hi]
  simp [Instance.isActive, hb]

theorem State.Reachable.overrideDiscipline (h : s.Reachable) : s.OverrideDiscipline := by
  obtain ⟨hs, hst⟩ := h.sound
  have hclasses := fun vs => (sameClasses_opened s vs).classes
  have hheld := fun o key =>
    heldBy_opened s (List.mem_cons_self : Value.object o ∈ (Op.get o key).operands)
  constructor
  case guarded => exact hs.isGuarded_iff
  case within =>
    intro depth o i active key hb hops hi hproxy hcalled
    obtain rfl : active = true := (hs.active_iff hi hproxy).2 hcalled
    rw [perform_eq hb hops rfl, ← hclasses (Op.get o key).operands]
    exact congrArg (closing _) (attempt_congr (get_guarded (instance?_opened hi) hproxy))
  case outermost =>
    intro depth o i active key hb hops hi hproxy hcalled
    obtain rfl : active = false := by
      rw [← hs.active_iff hi hproxy] at hcalled
      exact Bool.eq_false_iff.2 hcalled
    have hopened := steps_opened hops
    rw [perform_eq hb hops rfl, ← hclasses (Op.get o key).operands]
    exact congrArg (closing _) (get_clear (calls_callFunction depth) (hopened.sound hs)
      (hopened.staffed hst) (hheld o key) (instance?_opened hi) hproxy)
  case handedOver =>
    intro o i key f hops hi hproxy hf
    have hs₁ := (steps_opened hops).sound hs
    have hf' : i.lookup (opened s (Op.get o key).operands).world.classes overrideName =
        .value (.function f) := by rw [hclasses, hf]
    exact isGuarded_entered hs₁ (hheld o key) (instance?_opened hi) hproxy
      (hs₁.isValid_of_override (instance?_opened hi) hf')
  case given =>
    intro depth o i key g hops hi hproxy hg
    have hopened := steps_opened hops
    have hs₁ := hopened.sound hs
    refine ⟨?_, fun v s₁ hrun => ?_⟩
    · rw [isGuarded_of_instance (instance?_opened hi)]
      simp [Instance.isActive, hproxy]
    · obtain ⟨hsteps, hgains, -⟩ :=
        (calls_callFunction depth g o [] _ hs₁ (hopened.staffed hst)).of_ok hrun
      obtain ⟨i₁, hi₁, hb₁⟩ :=
        exists_clear hs₁ (instance?_opened hi) hproxy (hheld o key) hsteps hgains
      exact ⟨i₁, hi₁, hb₁, isGuarded_guardedState (hsteps.sound hs₁)
        (hgains.heldBy (hheld o key)) hi₁ hb₁⟩

/-- A class of proxies whose override is given by a getter. The getter reads `y` from its receiver
the first time that it runs; the override takes down the name that it is asked for. -/
def lookupReads : Session :=
  .ask (.enter fun _ _ args =>
    .perform (.trace args) fun _ => .done (.int 1)) fun override =>
  .ask (.enter fun captured this _ =>
    .perform (.getDefault this (QName.pub "busy")) fun busy =>
      match busy with
      | .ok none =>
        .perform (.set this (Key.pub "busy") (.bool true)) fun _ =>
        .perform (.get this (Key.pub "y")) fun _ => .done (captured.headD .undefined)
      | _ => .done (captured.headD .undefined)) fun lookup =>
  .ask (.perform .look) fun w =>
  .ask (.perform (.newFunction "override" [] (.script override))) fun f =>
  .ask (.perform (.newFunction "lookup" [.function f] (.script lookup))) fun g =>
  .ask (.perform (.registerClass ⟨QName.pub "P", some w.core.proxy,
    [(.getter, overrideName, g)], none, none, none⟩)) fun cls =>
  .ask (.perform (.instantiate cls none)) fun o =>
  .ask (.assign 0 (.object o)) fun _ => .done

/-- One read of `x`, with no call of the override in progress, calls the override twice: it is asked
for `y` by the read that the getter makes, and then for `x`. -/
theorem overrideCalledTwice_lookupReads :
    let start : State := ⟨World.initial.withPlaces 1, [], 30, []⟩
    let s : State := { start.afterRun (embed 3 lookupReads) with budget := 30, interference := [] }
    let read : Run (Op.get 6 (Key.pub "x")).Reply :=
      perform (callFunction 3) (.get 6 (Key.pub "x"))
    s.Reachable ∧ (s.world.isGuarded 6 = false ∧ s.world.trace = []) ∧
      (∃ s', read s = .ok (.ok (some (.int 1))) s') ∧
      (s.afterRun read).world.trace = [[.string "x"], [.string "y"]] :=
  have h : State.Reachable _ := .embed (.core 1 30 []) 3 lookupReads 30 []
  ⟨h, by decide +kernel, exists_of_gives (α := Except ScriptError (Option Value))
    (by decide +kernel), by decide +kernel⟩

theorem overrideDiscipline_lookupReads :
    let start : State := ⟨World.initial.withPlaces 1, [], 30, []⟩
    let s : State := { start.afterRun (embed 3 lookupReads) with budget := 30, interference := [] }
    s.Reachable ∧ ((s.world.instance? 6).map fun i => (i.backing.kind, i.isActive,
      i.lookup s.world.classes overrideName)) = some (.proxy, false, .getter 5) ∧
      s.OverrideDiscipline :=
  have h : State.Reachable _ := .embed (.core 1 30 []) 3 lookupReads 30 []
  ⟨h, by decide +kernel, State.Reachable.overrideDiscipline h⟩

end ScriptPlayer
