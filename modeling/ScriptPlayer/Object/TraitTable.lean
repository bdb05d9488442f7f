import ScriptPlayer.Value

/-! Declared members: getters, setters and methods under qualified names. -/
namespace ScriptPlayer

structure Trait where
  getter : Option FunctionId
  setter : Option FunctionId
  method : Option FunctionId
deriving DecidableEq

inductive TraitKind
  | getter
  | setter
  | method
deriving DecidableEq

namespace Trait

def empty : Trait := ⟨none, none, none⟩

def isReadable (t : Trait) : Bool := t.getter.isSome || t.method.isSome

def define (t : Trait) (kind : TraitKind) (f : FunctionId) : Trait :=
  match kind with
  | .getter => { t with getter := some f }
  | .setter => { t with setter := some f }
  | .method => { t with method := some f }

def functions (t : Trait) : List FunctionId :=
  t.getter.toList ++ t.setter.toList ++ t.method.toList

end Trait

/-- Traits in declaration order, one for each name. -/
structure TraitTable where
  entries : List (QName × Trait)
deriving DecidableEq

namespace TraitTable

def empty : TraitTable := ⟨[]⟩

def get? (t : TraitTable) (name : QName) : Option Trait := t.entries.lookup name

def contains (t : TraitTable) (name : QName) : Bool := (t.get? name).isSome

def size (t : TraitTable) : Nat := t.entries.length

def isEmpty (t : TraitTable) : Bool := t.entries.isEmpty

/-- Install one capability under a name, beside those the name already has. -/
def define (t : TraitTable) (name : QName) (kind : TraitKind) (f : FunctionId) : TraitTable :=
  if t.contains name then
    ⟨t.entries.map fun e => if e.1 = name then (e.1, e.2.define kind f) else e⟩
  else ⟨t.entries ++ [(name, Trait.empty.define kind f)]⟩

def handles (t : TraitTable) : List Value :=
  t.entries.flatMap fun e => e.2.functions.map .function

end TraitTable

end ScriptPlayer
