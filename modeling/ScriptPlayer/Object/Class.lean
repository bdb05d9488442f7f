import ScriptPlayer.Event.Clockwork
import ScriptPlayer.Media.Video
import ScriptPlayer.Object.TraitTable
import ScriptPlayer.Script.Builtin

/-! Class descriptors and the table of registered classes. A class is registered once and never
changes; its superclass is registered before it. -/
namespace ScriptPlayer

inductive BackingSpec
  | plain
  | bytes
  | fixedBytes (length : Nat)
  | dictionary
  | proxy
  | word (n : UInt32)
  | eventTarget
  | timer
  | video
  | stream (source : SourceId)
deriving DecidableEq

def BackingSpec.kind : BackingSpec → BackingKind
  | plain => .plain
  | bytes | fixedBytes _ => .bytes
  | dictionary => .dictionary
  | proxy => .proxy
  | word _ | eventTarget | timer | video | stream _ => .host

inductive HookFunction
  | shared (f : FunctionId)
  | fresh (name : String) (code : CodeRef)
deriving DecidableEq

inductive HookStep
  | trace (items : List Snapshot)
  | bind (kind : TraitKind) (name : QName) (f : HookFunction)
  /-- asks for the installation that is under way -/
  | install
deriving DecidableEq

def HookStep.handles : HookStep → List Value
  | bind _ _ (.shared f) => [.function f]
  | _ => []

structure Class where
  name : QName
  superclass : Option ClassId
  /-- distance from the root of the hierarchy; a chain too long for a 32-bit word is out of reach -/
  depth : Nat
  traits : TraitTable
  constructor? : Option FunctionId
  hook : Option (List HookStep)
  backing : Option BackingSpec
deriving DecidableEq

def Class.handles (c : Class) : List Value :=
  c.traits.handles ++ c.constructor?.toList.map .function ++
    (c.hook.getD []).flatMap HookStep.handles

structure ClassDecl where
  name : QName
  superclass : Option ClassId
  traits : List (TraitKind × QName × FunctionId)
  constructor? : Option FunctionId
  hook : Option (List HookStep)
  backing : Option BackingSpec

def ClassDecl.ofName (name : QName) (superclass : Option ClassId) : ClassDecl :=
  ⟨name, superclass, [], none, none, none⟩

/-- Registered classes; a class is known by its place. -/
structure ClassTable where
  classes : List Class
deriving DecidableEq

namespace ClassTable

def empty : ClassTable := ⟨[]⟩

def size (t : ClassTable) : Nat := t.classes.length

def get? (t : ClassTable) (c : ClassId) : Option Class := t.classes[c]?

def find? (t : ClassTable) (name : QName) : Option ClassId :=
  t.classes.findIdx? fun k => k.name == name

def nameOf (t : ClassTable) (c : ClassId) : QName := ((t.get? c).map Class.name).getD default

def depthOf (t : ClassTable) (c : ClassId) : Nat := ((t.get? c).map Class.depth).getD 0

def describe (t : ClassTable) (d : ClassDecl) : Class where
  name := d.name
  superclass := d.superclass
  depth := (d.superclass.map fun s => t.depthOf s + 1).getD 0
  traits := d.traits.foldl (fun table (kind, name, f) => table.define name kind f) .empty
  constructor? := d.constructor?
  hook := d.hook
  backing := d.backing

/-- Add a class. A name that is taken is fatal. -/
def register (t : ClassTable) (d : ClassDecl) : Except Fatal (ClassId × ClassTable) :=
  match t.find? d.name with
  | some _ => .error (.registeredTwice d.name)
  | none => .ok (t.size, ⟨t.classes ++ [t.describe d]⟩)

def climb (t : ClassTable) : Nat → ClassId → List ClassId
  | 0, _ => []
  | n + 1, c =>
    match t.get? c with
    | none => []
    | some k =>
      c :: match k.superclass with
        | some s => t.climb n s
        | none => []

/-- A class followed by its superclasses. The links go to earlier classes, so the table's size is
enough. -/
def ancestors (t : ClassTable) (c : ClassId) : List ClassId := t.climb t.size c

def chain (t : ClassTable) (c : ClassId) : List Class := (t.ancestors c).filterMap t.get?

def isSubclass (t : ClassTable) (a b : ClassId) : Bool := (t.ancestors a).contains b

def findTrait (t : ClassTable) (c : ClassId) (name : QName) (accept : Trait → Bool) :
    Option Trait :=
  (t.chain c).findSome? fun k => (k.traits.get? name).filter accept

def findReadable (t : ClassTable) (c : ClassId) (name : QName) : Option Trait :=
  t.findTrait c name Trait.isReadable

def findSetter (t : ClassTable) (c : ClassId) (name : QName) : Option FunctionId :=
  (t.findTrait c name fun trait => trait.setter.isSome).bind Trait.setter

def declares (t : ClassTable) (c : ClassId) (name : QName) : Bool :=
  (t.chain c).any fun k => k.traits.contains name

def findConstructor (t : ClassTable) (c : ClassId) : Option FunctionId :=
  (t.chain c).findSome? Class.constructor?

def findBacking (t : ClassTable) (c : ClassId) : Option BackingSpec :=
  (t.chain c).findSome? Class.backing

def handles (t : ClassTable) : List Value := t.classes.flatMap Class.handles

end ClassTable

end ScriptPlayer
