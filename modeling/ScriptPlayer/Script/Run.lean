import ScriptPlayer.Script.Basic

/-! Runs: computations on the world that may stop with an error, a fault or for want of allowance.
Values that a run obtains are held by the innermost frame until it closes. -/
namespace ScriptPlayer

/-- The world, the script bodies, the operations still allowed, and the moves that background
workers make before each of the coming operations. -/
structure State where
  world : World
  code : List Code
  budget : Nat
  interference : List (List World.Move)

abbrev Run := EStateM Halt State

/-- How a function is called with a receiver and arguments. Operations are defined for any way of
calling; the interpreter ties the knot. -/
abbrev Caller := FunctionId → ObjectId → List Value → Run Value

namespace Run

variable {α : Type}

def world : Run World := fun s => .ok s.world s

def modifyWorld (f : World → World) : Run Unit := fun s => .ok () { s with world := f s.world }

def updateWorld (f : World → α × World) : Run α := fun s =>
  let (a, w) := f s.world
  .ok a { s with world := w }

def fail (e : ScriptError) : Run α := throw (.error e)

def abort (f : Fatal) : Run α := throw (.abort f)

def ofFatal : Except Fatal α → Run α
  | .ok a => pure a
  | .error f => abort f

def ofError : Except ScriptError α → Run α
  | .ok a => pure a
  | .error e => fail e

def ofHalt : Except Halt α → Run α
  | .ok a => pure a
  | .error h => throw h

/-- Make an error of the run its result. Faults go on. -/
def attempt (m : Run α) : Run (Except ScriptError α) := fun s =>
  match m s with
  | .ok a s => .ok (.ok a) s
  | .error (.error e) s => .ok (.error e) s
  | .error h s => .error h s

/-- Run in a frame of its own. At its end, also by an error, the frame gives up what it holds, but
for what the frame below keeps of a result. -/
def framed (purpose : Purpose) (keep : α → List Value) (m : Run α) : Run α := fun s =>
  match m { s with world := s.world.pushFrame purpose } with
  | .ok a s => .ok a { s with world := s.world.popFrame (keep a) }
  | .error (.error e) s => .error (.error e) { s with world := s.world.popFrame [] }
  | .error h s => .error h s

def forEffect (m : Run α) : Run Unit := framed .operation (fun _ => []) (discard m)

def requireValid (v : Value) : Run Unit := do
  if (← world).isValid v then return
  abort (.dangling (v.cell?.getD 0))

def hold (v : Value) : Run Unit := do
  requireValid v
  modifyWorld (·.hold v)

def instanceOf (o : ObjectId) : Run Instance := do
  match (← world).instance? o with
  | some i => return i
  | none => abort (.dangling o)

def putInstance (o : ObjectId) (i : Instance) : Run Unit := modifyWorld (·.putInstance o i)

def newFunction (name : String) (captured : List Value) (code : CodeRef) : Run FunctionId :=
  updateWorld (·.newFunction ⟨name, captured, code⟩)

def trace (items : List Snapshot) : Run Unit :=
  modifyWorld fun w => { w with trace := items :: w.trace }

def addCode (body : Code) : Run CodeId := fun s =>
  .ok s.code.length { s with code := s.code ++ [body] }

def codeAt? (id : CodeId) : Run (Option Code) := fun s => .ok s.code[id]? s

def registerClass (d : ClassDecl) : Run ClassId := do
  let (c, w) ← ofFatal ((← world).registerClass d)
  modifyWorld fun _ => w
  return c

def requireArgs (name : String) (args : List Value) (least : Nat) : Run Unit :=
  if least ≤ args.length then return else abort (.argumentCount name least args.length)

/-- Before an operation or a call: workers make the moves that are due, and one unit of the
allowance is used up. -/
def pulse : Run Unit := fun s =>
  match s.budget with
  | 0 => .error .exhausted s
  | budget + 1 =>
    .ok () { s with
      budget := budget
      world := s.world.moveAll (s.interference.headD [])
      interference := s.interference.tail }

end Run

end ScriptPlayer
