import ScriptPlayer.Value

/-! Event listeners in registration order. -/
namespace ScriptPlayer

structure Listeners where
  entries : List (String × FunctionId)
deriving DecidableEq

namespace Listeners

def empty : Listeners := ⟨[]⟩

/-- Register a listener; a pair that is registered already changes nothing. -/
def add (l : Listeners) (kind : String) (f : FunctionId) : Listeners :=
  if l.entries.any (fun e => e.1 == kind && e.2 == f) then l else ⟨l.entries ++ [(kind, f)]⟩

def remove (l : Listeners) (kind : String) (f : FunctionId) : Bool × Listeners :=
  let kept := l.entries.filter fun e => !(e.1 == kind && e.2 == f)
  (kept.length != l.entries.length, ⟨kept⟩)

def has (l : Listeners) (kind : String) : Bool := l.entries.any fun e => e.1 == kind

def forKind (l : Listeners) (kind : String) : List FunctionId :=
  (l.entries.filter fun e => e.1 == kind).map Prod.snd

def handles (l : Listeners) : List Value := l.entries.map fun e => .function e.2

end Listeners

end ScriptPlayer
