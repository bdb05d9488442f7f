import ScriptPlayer.Proofs.Run.Interpreter

/-! What property access returns and what it changes, as equations between runs: each access looks
at the instance, and then the value it finds, the instance it stores or the function it calls is
all that matters. -/
namespace ScriptPlayer

open World

/-- No override gets the first chance at a read: the instance is no proxy, its guard is set, or
there is no override. -/
def Instance.Unintercepted (t : ClassTable) (i : Instance) : Prop :=
  i.backing = .proxy false → i.lookup t Run.overrideName = .absent

theorem Instance.unintercepted_of_kind {t : ClassTable} {i : Instance}
    (h : i.backing.kind ≠ .proxy) : i.Unintercepted t := fun hb => by
  rw [hb] at h
  exact absurd rfl h

namespace Run

variable {call : Caller} {s : State} {o : ObjectId} {i : Instance} {key : Key}

theorem isValid_receiver (hi : s.world.instance? o = some i) :
    ∀ v ∈ [Value.object o], s.world.isValid v := by
  intro v hv
  rw [List.mem_singleton.1 hv]
  exact Option.isSome_iff_exists.2 ⟨i, hi⟩

theorem hold_run {v : Value} (hv : s.world.isValid v) :
    hold v s = .ok () { s with world := s.world.hold v } :=
  bind_of_ok (requireValid_run hv) _

def conclude (call : Caller) (o : ObjectId) : Found → Run (Option Value)
  | .value v => do
    hold v
    return some v
  | .getter f => return some (← call f o [])
  | .absent => return none

theorem conclude_value {v : Value} (hv : s.world.isValid v) :
    conclude call o (.value v) s = .ok (some v) { s with world := s.world.hold v } :=
  bind_of_ok (hold_run hv) _

theorem getDefault_run (hi : s.world.instance? o = some i) (name : QName) :
    getDefault call o name s = conclude call o (i.lookup s.world.classes name) s := by
  refine (bind_of_ok (instanceOf_run hi) _).trans ((bind_of_ok (m := world) rfl _).trans ?_)
  cases i.lookup s.world.classes name <;> rfl

theorem interceptGet_run (hi : s.world.instance? o = some i)
    (hint : i.Unintercepted s.world.classes) (key : Key) :
    interceptGet call o key s = .ok none s := by
  refine (bind_of_ok (instanceOf_run hi) _).trans ?_
  cases hb : i.backing with
  | proxy active =>
    cases active with
    | true => rfl
    | false =>
      have hnone : getDefault call o overrideName s = .ok none s := by
        rw [getDefault_run hi, hint hb]
        rfl
      exact bind_of_ok hnone _
  | _ => rfl

/-- A read that nothing intercepts ends where the lookup in the instance ends. -/
theorem get_run (hi : s.world.instance? o = some i) (hint : i.Unintercepted s.world.classes)
    (key : Key) :
    get call o key s = match i.read s.world.classes key with
      | .ok found => conclude call o found s
      | .error h => .error h s := by
  refine (bind_of_ok (interceptGet_run hi hint key) _).trans ?_
  refine (bind_of_ok (instanceOf_run hi) _).trans ((bind_of_ok (m := world) rfl _).trans ?_)
  cases i.read s.world.classes key with
  | error h => rfl
  | ok found => cases found <;> rfl

/-! Accesses that nothing intercepts -/

def concludeWrite (call : Caller) (o : ObjectId) (v : Value) : Written → Run Unit
  | .stored j => putInstance o j
  | .setter f => forEffect (call f o [v])

def concludeRemoval (o : ObjectId) : Option Instance → Run Bool
  | some j => do
    putInstance o j
    return true
  | none => return false

def concludeCall (call : Caller) (o : ObjectId) (name : QName) (args : List Value) :
    Option Value → Run Value
  | some (.function f) => call f o args
  | some other => fail (.notFunction name other.typeName)
  | none => do
    let className := (← instanceOf o).className (← world).classes
    fail (.notFound name className)

theorem set_concludes {v : Value} (hi : s.world.instance? o = some i) : set call o key v s =
    (ofHalt (i.write s.world.classes key v) >>= concludeWrite call o v) s :=
  (bind_of_ok (instanceOf_run hi) _).trans (bind_of_ok (m := world) rfl _)

theorem delete_concludes (hi : s.world.instance? o = some i) : delete o key s =
    (ofHalt (i.remove s.world.classes key) >>= concludeRemoval o) s :=
  (bind_of_ok (instanceOf_run hi) _).trans (bind_of_ok (m := world) rfl _)

theorem callMethod_concludes {name : QName} {args : List Value}
    (hi : s.world.instance? o = some i) : callMethod call o name args s =
    (conclude call o (i.lookup s.world.classes name) >>= concludeCall call o name args) s := by
  rw [bind_run, ← getDefault_run hi name]
  unfold callMethod
  rw [bind_run]
  cases getDefault call o name s with
  | error h s' => rfl
  | ok found s' =>
    cases found with
    | none => rfl
    | some v => cases v <;> rfl

end Run

end ScriptPlayer
