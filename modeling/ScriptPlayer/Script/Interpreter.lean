import ScriptPlayer.Script.Builtins

/-! The interpreter: what each operation does, how a script runs and how a function is called. Each
operation runs in a frame that holds what it was given and that passes on what the reply shows. -/
namespace ScriptPlayer

def Op.kept : (op : Op) → op.Reply → List Value
  | hold v, _ => [v]
  | newFunction .., f => [.function f]
  | newObject, o | instantiate .., o => [.object o]
  | construct .., r => r.toOption.toList.map .object
  | global _, v | getEntry .., v | setEntry .., v => v.toList
  | deleteEntry .., e => e.toList.flatMap fun (k, v) => [k, v]
  | get .., r | getDefault .., r | intercept .., r => r.toOption.join.toList
  | callMethod .., r | invoke .., r => r.toOption.toList
  | nextName .., v | nextValue .., v => [v]
  | _, _ => []

namespace Run

def functionOf (f : FunctionId) : Run Function := do
  match (← world).heap.function? f with
  | some function => return function
  | none => abort (.dangling f)

def dictionaryOf (o : ObjectId) : Run Dictionary := do ofFatal (← instanceOf o).dictionary

def putDictionary (o : ObjectId) (d : Dictionary) : Run Unit := do
  let i ← instanceOf o
  putInstance o { i with backing := .dictionary d }

def setEntry (o : ObjectId) (key : DictKey) (v : Value) : Run (Option Value) := do
  let (old, d) := (← dictionaryOf o).set key v
  old.toList.forM hold
  putDictionary o d
  return old

def deleteEntry (o : ObjectId) (key : DictKey) : Run (Option (Value × Value)) := do
  let (entry, d) := (← dictionaryOf o).delete key
  let entry := entry.map fun e => (e.1.toValue, e.2)
  entry.toList.forM fun (k, v) => do
    hold k
    hold v
  putDictionary o d
  return entry

def holding (v : Option Value) : Run (Option Value) := do
  v.toList.forM hold
  return v

def execute (call : Caller) : (op : Op) → Run op.Reply
  | .look => world
  | .trace items => do trace (items.map (← world).snapshot)
  | .hold _ => pure ()
  | .drop _ => pure ()
  | .newFunction name captured code => newFunction name captured code
  | .registerClass d => registerClass d
  | .defineGlobal name v => modifyWorld (·.defineGlobal name v)
  | .global name => do holding ((← world).globals.get? name)
  | .newObject => newObject
  | .instantiate cls backing => instantiate cls backing
  | .construct cls backing args => attempt (construct call cls backing args)
  | .installTraits o => installTraits o
  | .bind o kind name f => bind o kind name f
  | .get o key => attempt (get call o key)
  | .getDefault o name => attempt (getDefault call o name)
  | .intercept o key => attempt (interceptGet call o key)
  | .set o key v => attempt (set call o key v)
  | .delete o key => attempt (delete o key)
  | .callMethod o name args => attempt (callMethod call o name args)
  | .invoke f this args => attempt (call f this args)
  | .nextName o cursor => do
    let v ← ofFatal ((← instanceOf o).nextName cursor)
    hold v
    return v
  | .nextValue o cursor => do
    let v ← ofFatal ((← instanceOf o).nextValue cursor)
    hold v
    return v
  | .editBytes o edit => editBytes o edit
  | .copyBytes source dest offset length => copyBytes source dest offset length
  | .getEntry o key => do holding ((← dictionaryOf o).get? key)
  | .setEntry o key v => setEntry o key v
  | .deleteEntry o key => deleteEntry o key
  | .dispatch o kind => attempt (dispatch call o kind)
  | .addListener o kind f => addListener o kind f
  | .removeListener o kind f => removeListener o kind f
  | .render o => render o
  | .tick t => updateWorld (·.tick t)
  | .setSource s source => modifyWorld (·.setSource s source)

def perform (call : Caller) (op : Op) : Run op.Reply := do
  pulse
  let reply ← framed .operation op.kept do
    op.operands.forM hold
    execute call op
  match op with
  | .drop v => modifyWorld (·.letGo v)
  | _ => pure ()
  return reply

def script (call : Caller) : Script → Run Value
  | .done v => do
    requireValid v
    return v
  | .fail e => fail e
  | .abort f => abort f
  | .code body next => do
    let id ← addCode body
    script call (next id)
  | .perform op next => do
    let reply ← perform call op
    script call (next reply)

/-- Call a function, with at most so many calls inside one another. -/
def callFunction : Nat → Caller
  | 0 => fun _ _ _ => throw .exhausted
  | depth + 1 => fun f this args => do
    pulse
    framed (.call f) (fun v => [v]) do
      (.function f :: .object this :: args).forM hold
      let function ← functionOf f
      match function.code with
      | .builtin b => builtin (callFunction depth) b this args
      | .script id =>
        match (← codeAt? id) with
        | some body => script (callFunction depth) (body function.captured this args)
        | none => abort (.dangling f)

end Run

end ScriptPlayer
