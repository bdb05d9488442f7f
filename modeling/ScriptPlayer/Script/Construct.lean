import ScriptPlayer.Script.Property

/-! Making instances: storage, the hooks of the class chain, the constructor. -/
namespace ScriptPlayer.Run

/-- Allocate an instance with the given storage, or with that of the nearest class that has one.
No hook and no constructor runs. -/
def instantiate (cls : ClassId) (backing : Option BackingSpec) : Run ObjectId :=
  updateWorld fun w =>
    let spec := (backing <|> w.classes.findBacking cls).getD .plain
    let (storage, w) := w.newBacking spec
    w.newInstance (.fresh cls storage)

def bind (o : ObjectId) (kind : TraitKind) (name : QName) (f : FunctionId) : Run Unit := do
  let i ← instanceOf o
  putInstance o (i.bind kind name f)

/-- One step of a hook; `again` is what asking for the installation once more does. -/
def hookStep (o : ObjectId) (again : Run Unit) : HookStep → Run Unit
  | .trace items => trace items
  | .bind kind name (.shared f) => bind o kind name f
  | .bind kind name (.fresh functionName code) => forEffect do
    let f ← newFunction functionName [] code
    bind o kind name f
  | .install => again

/-- Mark the instance, then run the hooks of its class chain, root first. An instance that is
marked already is left alone. -/
def installWith (o : ObjectId) (again : Run Unit) : Run Unit := do
  let i ← instanceOf o
  if i.installed then return
  putInstance o { i with installed := true }
  let hooks := ((← world).classes.chain i.cls).reverse.filterMap Class.hook
  hooks.forM fun steps => steps.forM (hookStep o again)

def installTraits (o : ObjectId) : Run Unit := installWith o (installWith o (return))

def construct (call : Caller) (cls : ClassId) (backing : Option BackingSpec) (args : List Value) :
    Run ObjectId := do
  let o ← instantiate cls backing
  installTraits o
  match (← world).classes.findConstructor cls with
  | some f => forEffect (call f o args)
  | none => pure ()
  return o

def newObject : Run ObjectId := do
  let o ← instantiate (← world).core.object none
  installTraits o
  return o

end ScriptPlayer.Run
