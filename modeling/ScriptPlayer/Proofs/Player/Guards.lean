import ScriptPlayer.Proofs.Player.Session
import ScriptPlayer.Proofs.Run.Guards

/-! The guards of proxies match the calls of their overrides at every moment, whatever the
overrides do and however deep they call one another. -/
namespace ScriptPlayer

open Run

/-- How proxies are read in a state, and which accesses are never intercepted. -/
structure State.GuardDiscipline (s : State) : Prop where
  /-- a guard is set just while a call of the override is in progress, and there is one such call -/
  calls : ∀ o, s.world.overrideCalls o = if s.world.isGuarded o then 1 else 0
  /-- an operation that comes to an end leaves every guard as it was, also with an error -/
  kept : ∀ depth op reply s', perform (callFunction depth) op s = .ok reply s' →
    ∀ o, s'.world.isGuarded o = s.world.isGuarded o
  /-- while the guard is clear a read is one call of the override, which decides its result -/
  intercepted : ∀ depth o i key f, 0 < s.budget →
    (∀ v ∈ (Op.get o key).operands, s.world.isValid v) → s.world.instance? o = some i →
    i.backing = .proxy false → i.lookup s.world.classes overrideName = .value (.function f) →
    perform (callFunction depth) (.get o key) s =
        closing (.get o key) (leaving o (callFunction depth f o
          [.string (key.localName s.world.naming)]
          (entered (opened s (Op.get o key).operands) o i f))) ∧
      (entered (opened s (Op.get o key).operands) o i f).world.isGuarded o ∧
      (entered (opened s (Op.get o key).operands) o i f).world.overrideCalls o = 1 ∧
      ∀ reply s', perform (callFunction depth) (.get o key) s = .ok reply s' →
        s'.world.isGuarded o = false
  /-- while it is set a read is the ordinary lookup of the key -/
  ordinary : ∀ depth o i key, 0 < s.budget →
    (∀ v ∈ (Op.get o key).operands, s.world.isValid v) → s.world.instance? o = some i →
    i.backing = .proxy true →
    perform (callFunction depth) (.get o key) s = closing (.get o key)
      (attempt (conclude (callFunction depth) o (i.ordinary s.world.classes key))
        (opened s (Op.get o key).operands))
  set : ∀ depth o i key v, 0 < s.budget →
    (∀ u ∈ (Op.set o key v).operands, s.world.isValid u) → s.world.instance? o = some i →
    perform (callFunction depth) (.set o key v) s = closing (.set o key v)
      (attempt (ofHalt (i.write s.world.classes key v) >>= concludeWrite (callFunction depth) o v)
        (opened s (Op.set o key v).operands))
  delete : ∀ depth o i key, 0 < s.budget →
    (∀ v ∈ (Op.delete o key).operands, s.world.isValid v) → s.world.instance? o = some i →
    perform (callFunction depth) (.delete o key) s = closing (.delete o key)
      (attempt (ofHalt (i.remove s.world.classes key) >>= concludeRemoval o)
        (opened s (Op.delete o key).operands))
  getDefault : ∀ depth o i name, 0 < s.budget → s.world.instance? o = some i →
    perform (callFunction depth) (.getDefault o name) s = closing (.getDefault o name)
      (attempt (conclude (callFunction depth) o (i.lookup s.world.classes name))
        (opened s (Op.getDefault o name).operands))
  callMethod : ∀ depth o i name args, 0 < s.budget →
    (∀ v ∈ args, s.world.isValid v) → s.world.instance? o = some i →
    perform (callFunction depth) (.callMethod o name args) s = closing (.callMethod o name args)
      (attempt (conclude (callFunction depth) o (i.lookup s.world.classes name) >>=
        concludeCall (callFunction depth) o name args)
        (opened s (Op.callMethod o name args).operands))
  /-- whether there is a property is a matter of slots and traits -/
  has : ∀ o i active key, s.world.instance? o = some i → i.backing = .proxy active →
    i.has s.world.classes key = match key.text? with
      | some name => i.slots.contains name || i.hasTrait s.world.classes name
      | none => false

variable {s : State} {call : Caller}

theorem Run.isGuarded_perform (hcall : Calls call) (hs : s.world.Sound) (hst : s.world.Staffed)
    {op : Op} {reply : op.Reply} {s' : State} (h : perform call op s = .ok reply s')
    (o : ObjectId) : s'.world.isGuarded o = s.world.isGuarded o := by
  obtain ⟨hsteps, hreheld, -⟩ := (ends_perform hcall hs hst op).of_ok h
  exact hs.isGuarded_of_purposes (hsteps.sound hs) hreheld.purposes o

theorem State.Reachable.guardDiscipline (h : s.Reachable) : s.GuardDiscipline := by
  obtain ⟨hs, hst⟩ := h.sound
  have hclasses := fun vs => (sameClasses_opened s vs).classes
  constructor
  case calls => exact hs.guards
  case kept => exact fun depth op reply s' => isGuarded_perform (calls_callFunction depth) hs hst
  case intercepted =>
    intro depth o i key f hb hops hi hproxy hf
    have hopened := steps_opened hops
    have hname : (opened s (Op.get o key).operands).world.naming = s.world.naming :=
      World.naming_congr (sameContents_opened s _) (hclasses _)
    have ho := heldBy_opened s (List.mem_cons_self : Value.object o ∈ (Op.get o key).operands)
    have hf' : i.lookup (opened s (Op.get o key).operands).world.classes overrideName =
        .value (.function f) := by rw [hclasses, hf]
    have hget := get_override key (calls_callFunction depth) (hopened.sound hs)
      (hopened.staffed hst) ho (instance?_opened hi) hproxy hf'
    have hguarded := isGuarded_entered (hopened.sound hs) ho (instance?_opened hi) hproxy
      ((hopened.sound hs).isValid_of_override (instance?_opened hi) hf')
    refine ⟨?_, hguarded.1, hguarded.2, fun reply s' hrun => ?_⟩
    · rw [perform_eq hb hops rfl, ← hname]
      exact congrArg (closing _) hget
    · rw [isGuarded_perform (calls_callFunction depth) hs hst hrun, World.isGuarded_of_instance hi]
      simp [Instance.isActive, hproxy]
  case ordinary =>
    intro depth o i key hb hops hi hproxy
    rw [perform_eq hb hops rfl, ← hclasses (Op.get o key).operands]
    exact congrArg (closing _) (attempt_congr (get_guarded (instance?_opened hi) hproxy))
  case set =>
    intro depth o i key v hb hops hi
    rw [perform_eq hb hops rfl, ← hclasses (Op.set o key v).operands]
    exact congrArg (closing _) (attempt_congr (set_concludes (instance?_opened hi)))
  case delete =>
    intro depth o i key hb hops hi
    rw [perform_eq hb hops rfl, ← hclasses (Op.delete o key).operands]
    exact congrArg (closing _) (attempt_congr (delete_concludes (instance?_opened hi)))
  case getDefault =>
    intro depth o i name hb hi
    have hops : ∀ v ∈ (Op.getDefault o name).operands, s.world.isValid v := isValid_receiver hi
    rw [perform_eq hb hops rfl, ← hclasses (Op.getDefault o name).operands]
    exact congrArg (closing _) (attempt_congr (getDefault_run (instance?_opened hi) name))
  case callMethod =>
    intro depth o i name args hb hargs hi
    have hops : ∀ v ∈ (Op.callMethod o name args).operands, s.world.isValid v := by
      intro v hv
      rcases List.mem_cons.1 hv with rfl | hv
      · exact isValid_receiver hi _ (List.mem_singleton_self _)
      · exact hargs v hv
    rw [perform_eq hb hops rfl, ← hclasses (Op.callMethod o name args).operands]
    exact congrArg (closing _) (attempt_congr (callMethod_concludes (instance?_opened hi)))
  case has =>
    intro o i active key _ hproxy
    exact Instance.has_of_proxy hproxy

def readProxy : Session :=
  .ask (.enter fun _ this _ =>
    .perform (.get this (Key.pub "y")) fun _ => .done .undefined) fun id =>
  .ask (.perform .look) fun w =>
  .ask (.perform (.instantiate w.core.proxy none)) fun o =>
  .ask (.perform (.newFunction "getProperty" [] (.script id))) fun f =>
  .ask (.perform (.set o (Key.ofQName overrideName) (.function f))) fun _ =>
  .ask (.perform (.get o (Key.pub "x"))) fun _ => .done

theorem guardDiscipline_readProxy :
    let start : State := ⟨World.initial.withPlaces 1, [], 6, []⟩
    let s : State := { start.afterRun (embed 3 readProxy) with budget := 1, interference := [] }
    s.Reachable ∧ s.world.isGuarded 4 ∧ s.GuardDiscipline :=
  have h : State.Reachable _ := .embed (.core 1 6 []) 3 readProxy 1 []
  ⟨h, by decide +kernel, State.Reachable.guardDiscipline h⟩

end ScriptPlayer
