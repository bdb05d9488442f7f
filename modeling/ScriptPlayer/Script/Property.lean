import ScriptPlayer.Script.Run

/-! Property access by scripts: reads, writes, deletions and calls on an instance, with the getters,
setters and proxy overrides that they run. -/
namespace ScriptPlayer.Run

def overrideName : QName := ⟨"http://www.adobe.com/2006/actionscript/flash/proxy", "getProperty"⟩

variable (call : Caller)

def getDefault (o : ObjectId) (name : QName) : Run (Option Value) := do
  match (← instanceOf o).lookup (← world).classes name with
  | .value v =>
    hold v
    return some v
  | .getter f => return some (← call f o [])
  | .absent => return none

def setGuard (o : ObjectId) (active : Bool) : Run Unit := do
  let i ← instanceOf o
  match i.backing with
  | .proxy _ => putInstance o { i with backing := .proxy active }
  | _ => return

/-- Run with the guard of a proxy set; it is clear again afterwards, also after an error. -/
def guarded (o : ObjectId) (m : Run Value) : Run Value := do
  setGuard o true
  match ← attempt (framed (.override o) (fun v => [v]) m) with
  | .ok v =>
    setGuard o false
    return v
  | .error e =>
    setGuard o false
    fail e

/-- Give a proxy's override the first chance at a read. Nothing is intercepted on other instances,
while the guard is set, or without an override. The override gets the local name alone. -/
def interceptGet (o : ObjectId) (key : Key) : Run (Option Value) := do
  match (← instanceOf o).backing with
  | .proxy false =>
    match ← getDefault call o overrideName with
    | some (.function f) =>
      let name := key.localName (← world).naming
      return some (← guarded o (call f o [.string name]))
    | some other => fail (.overrideNotFunction other.typeName)
    | none => return none
  | _ => return none

/-- Read a property. Nothing found differs from a property that is undefined. -/
def get (o : ObjectId) (key : Key) : Run (Option Value) := do
  match ← interceptGet call o key with
  | some v => return some v
  | none =>
    match ← ofHalt ((← instanceOf o).read (← world).classes key) with
    | .value v =>
      hold v
      return some v
    | .getter f => return some (← call f o [])
    | .absent => return none

def set (o : ObjectId) (key : Key) (v : Value) : Run Unit := do
  match ← ofHalt ((← instanceOf o).write (← world).classes key v) with
  | .stored i => putInstance o i
  | .setter f => forEffect (call f o [v])

def delete (o : ObjectId) (key : Key) : Run Bool := do
  match ← ofHalt ((← instanceOf o).remove (← world).classes key) with
  | some i =>
    putInstance o i
    return true
  | none => return false

def callMethod (o : ObjectId) (name : QName) (args : List Value) : Run Value := do
  match ← getDefault call o name with
  | some (.function f) => call f o args
  | some other => fail (.notFunction name other.typeName)
  | none =>
    let className := (← instanceOf o).className (← world).classes
    fail (.notFound name className)

end ScriptPlayer.Run
