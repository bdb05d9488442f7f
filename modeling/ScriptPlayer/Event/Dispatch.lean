import ScriptPlayer.Script.Construct

/-! Event dispatch and listener registration. A dispatch calls the listeners that were registered
when it began. -/
namespace ScriptPlayer.Run

def listenersOf (o : ObjectId) : Run Listeners := do
  let i ← instanceOf o
  ofFatal (i.listeners (← world).classes)

def updateListeners {α : Type} (o : ObjectId) (f : Listeners → α × Listeners) : Run α := do
  let (a, listeners) := f (← listenersOf o)
  let i ← instanceOf o
  putInstance o (i.setListeners listeners)
  return a

def addListener (o : ObjectId) (kind : String) (f : FunctionId) : Run Unit :=
  updateListeners o fun l => ((), l.add kind f)

def removeListener (o : ObjectId) (kind : String) (f : FunctionId) : Run Bool :=
  updateListeners o fun l => l.remove kind f

def eventClass : Run ClassId := do
  match (← world).runtime with
  | some classes => return classes.event
  | none => abort .noEventClass

def notify (call : Caller) (target event : ObjectId) (listener : FunctionId) : Run Unit :=
  discard (attempt (forEffect (call listener target [.object event])))

/-- Invoke the listeners of the target for a type, all with the same fresh event, and give their
number. Without listeners no event is made. -/
def dispatch (call : Caller) (target : ObjectId) (kind : String) : Run Nat := do
  let listeners := (← listenersOf target).forKind kind
  if listeners.isEmpty then return 0
  listeners.forM fun f => hold (.function f)
  let event ← construct call (← eventClass) none [.string kind]
  set call event (.pub "target") (.object target)
  listeners.forM (notify call target event)
  return listeners.length

end ScriptPlayer.Run
