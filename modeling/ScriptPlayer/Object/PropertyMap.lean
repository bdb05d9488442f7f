import ScriptPlayer.Fault
import ScriptPlayer.Object.PositionIndex
import ScriptPlayer.Value

/-! The dynamic slots of an instance: values under qualified names, in the order in which the names
first appeared, with an index from names to positions. -/
namespace ScriptPlayer

structure PropertyMap where
  entries : List (QName × Value)
  index : PositionIndex QName

namespace PropertyMap

def empty : PropertyMap := ⟨[], .empty⟩

instance : EmptyCollection PropertyMap := ⟨empty⟩

def size (m : PropertyMap) : Nat := m.entries.length

def isEmpty (m : PropertyMap) : Bool := m.entries.isEmpty

def entryAt? (m : PropertyMap) (i : Nat) : Option (QName × Value) := m.entries[i]?

def get? (m : PropertyMap) (name : QName) : Option Value :=
  (m.index.get? name).bind fun i => (m.entries[i]?).map Prod.snd

def contains (m : PropertyMap) (name : QName) : Bool := m.index.contains name

/-- Write a slot and return what it held. A slot that is present keeps its position. -/
def insert (m : PropertyMap) (name : QName) (v : Value) : Option Value × PropertyMap :=
  match m.index.get? name with
  | some i => ((m.entries[i]?).map Prod.snd, { m with entries := m.entries.set i (name, v) })
  | none => (none, ⟨m.entries ++ [(name, v)], m.index.insert name m.entries.length⟩)

/-- Remove a slot and return what it held. The slots after it move down by one. -/
def remove (m : PropertyMap) (name : QName) : Option Value × PropertyMap :=
  match m.index.get? name with
  | none => (none, m)
  | some i =>
    let entries := m.entries.eraseIdx i
    ((m.entries[i]?).map Prod.snd,
      ⟨entries, (m.index.erase name).insertFrom (fun e => some e.1) i (entries.drop i)⟩)

def hasNext (m : PropertyMap) (cursor : Nat) : Bool := decide (cursor < m.size)

def nextName (m : PropertyMap) (cursor : Nat) : Except Fatal Value :=
  match m.entryAt? cursor with
  | some (name, _) => .ok (.string name.name)
  | none => .error (.cursorPastEnd cursor m.size)

def nextValue (m : PropertyMap) (cursor : Nat) : Except Fatal Value :=
  match m.entryAt? cursor with
  | some (_, v) => .ok v
  | none => .error (.cursorPastEnd cursor m.size)

def values (m : PropertyMap) : List Value := m.entries.map Prod.snd

end PropertyMap

end ScriptPlayer
