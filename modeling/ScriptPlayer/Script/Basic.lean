import ScriptPlayer.World.Basic

/-! Script bodies. A body is a tree: it asks for an operation and goes on with the reply, until it
returns a value or fails. Any function of the replies can choose how it goes on, so whatever
statement holds for all trees holds for all scripts. -/
namespace ScriptPlayer

inductive Op
  /-- see everything there is, without taking a handle -/
  | look
  | trace (items : List Value)
  | hold (v : Value)
  | drop (v : Value)
  | newFunction (name : String) (captured : List Value) (code : CodeRef)
  | registerClass (d : ClassDecl)
  | defineGlobal (name : QName) (v : Value)
  | global (name : QName)
  | newObject
  | instantiate (cls : ClassId) (backing : Option BackingSpec)
  | construct (cls : ClassId) (backing : Option BackingSpec) (args : List Value)
  | installTraits (o : ObjectId)
  | bind (o : ObjectId) (kind : TraitKind) (name : QName) (f : FunctionId)
  | get (o : ObjectId) (key : Key)
  | getDefault (o : ObjectId) (name : QName)
  | intercept (o : ObjectId) (key : Key)
  | set (o : ObjectId) (key : Key) (v : Value)
  | delete (o : ObjectId) (key : Key)
  | callMethod (o : ObjectId) (name : QName) (args : List Value)
  | invoke (f : FunctionId) (this : ObjectId) (args : List Value)
  | nextName (o : ObjectId) (cursor : Nat)
  | nextValue (o : ObjectId) (cursor : Nat)
  | editBytes (o : ObjectId) (edit : ByteEdit)
  | copyBytes (source dest : ObjectId) (offset length : Nat)
  | getEntry (o : ObjectId) (key : DictKey)
  | setEntry (o : ObjectId) (key : DictKey) (v : Value)
  | deleteEntry (o : ObjectId) (key : DictKey)
  | dispatch (o : ObjectId) (kind : String)
  | addListener (o : ObjectId) (kind : String) (f : FunctionId)
  | removeListener (o : ObjectId) (kind : String) (f : FunctionId)
  | render (o : ObjectId)
  | tick (t : Ticker)
  | setSource (s : SourceId) (source : FrameSource)

namespace Op

def Reply : Op → Type
  | look => World
  | newFunction .. => FunctionId
  | registerClass _ => ClassId
  | newObject | instantiate .. => ObjectId
  | construct .. => Except ScriptError ObjectId
  | global _ | getEntry .. | setEntry .. => Option Value
  | deleteEntry .. => Option (Value × Value)
  | get .. | getDefault .. | intercept .. => Except ScriptError (Option Value)
  | set .. => Except ScriptError Unit
  | delete .. => Except ScriptError Bool
  | callMethod .. | invoke .. => Except ScriptError Value
  | nextName .. | nextValue .. => Value
  | dispatch .. => Except ScriptError Nat
  | removeListener .. | tick _ => Bool
  | render _ => RenderOutcome
  | trace _ | hold _ | drop _ | defineGlobal .. | installTraits _ | bind .. | editBytes ..
  | copyBytes .. | addListener .. | setSource .. => Unit

/-- The handles that a script passes in; each must be valid. -/
def operands : Op → List Value
  | look | newObject | global _ | tick _ | setSource .. => []
  | trace items => items
  | hold v | drop v | defineGlobal _ v => [v]
  | newFunction _ captured _ => captured
  | registerClass d =>
    d.superclass.toList.map .classRef ++ d.traits.map (fun t => .function t.2.2) ++
      d.constructor?.toList.map .function ++ (d.hook.getD []).flatMap HookStep.handles
  | instantiate cls _ => [.classRef cls]
  | construct cls _ args => .classRef cls :: args
  | installTraits o | getDefault o _ | nextName o _ | nextValue o _ | editBytes o _
  | dispatch o _ | render o => [.object o]
  | bind o _ _ f | addListener o _ f | removeListener o _ f => [.object o, .function f]
  | get o key | intercept o key | delete o key => .object o :: key.handles
  | set o key v => .object o :: v :: key.handles
  | callMethod o _ args => .object o :: args
  | invoke f this args => .function f :: .object this :: args
  | copyBytes source dest _ _ => [.object source, .object dest]
  | getEntry o key | deleteEntry o key => [.object o, key.toValue]
  | setEntry o key v => [.object o, v, key.toValue]

end Op

inductive Script
  /-- return a value -/
  | done (v : Value)
  | fail (e : ScriptError)
  | abort (f : Fatal)
  /-- enter a body into the code table -/
  | code (body : List Value → ObjectId → List Value → Script) (next : CodeId → Script)
  | perform (op : Op) (next : op.Reply → Script)

instance : Inhabited Script := ⟨.done .undefined⟩

/-- A function body: captured values, receiver and arguments give a script. -/
abbrev Code := List Value → ObjectId → List Value → Script

end ScriptPlayer
