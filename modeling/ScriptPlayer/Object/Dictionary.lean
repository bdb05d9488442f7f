import ScriptPlayer.Fault
import ScriptPlayer.Object.PositionIndex
import ScriptPlayer.Value

/-! An associative container with two kinds of keys in one ordered entry list: objects, matched by
identity through an index, and strings, matched by contents. -/
namespace ScriptPlayer

inductive DictKey
  | identity (o : ObjectId)
  | content (s : String)
deriving DecidableEq

namespace DictKey

def toValue : DictKey → Value
  | identity o => .object o
  | content s => .string s

def object? : DictKey → Option ObjectId
  | identity o => some o
  | content _ => none

end DictKey

structure Dictionary where
  entries : List (DictKey × Value)
  /-- positions of the identity entries -/
  index : PositionIndex ObjectId

namespace Dictionary

def empty : Dictionary := ⟨[], .empty⟩

def size (d : Dictionary) : Nat := d.entries.length

def isEmpty (d : Dictionary) : Bool := d.entries.isEmpty

def keyAt? (d : Dictionary) (i : Nat) : Option DictKey := (d.entries[i]?).map Prod.fst

def valueAt? (d : Dictionary) (i : Nat) : Option Value := (d.entries[i]?).map Prod.snd

/-- Replace the value at a position, keeping the stored key, and return the old value. -/
def replaceAt (d : Dictionary) (i : Nat) (v : Value) : Option Value × Dictionary :=
  (d.valueAt? i, { d with entries := d.entries.modify i fun e => (e.1, v) })

/-- Take out the entry at a position and renumber the identity entries after it. -/
def removeAt (d : Dictionary) (i : Nat) : Option (DictKey × Value) × Dictionary :=
  match d.entries[i]? with
  | none => (none, d)
  | some entry =>
    let entries := d.entries.eraseIdx i
    let index := match entry.1 with
      | .identity o => d.index.erase o
      | .content _ => d.index
    (some entry, ⟨entries, index.insertFrom (fun e => e.1.object?) i (entries.drop i)⟩)

def containsIdentity (d : Dictionary) (o : ObjectId) : Bool := d.index.contains o

def getIdentity? (d : Dictionary) (o : ObjectId) : Option Value :=
  (d.index.get? o).bind d.valueAt?

/-- Store under an object key. A key that is present stays where it is. -/
def setIdentity (d : Dictionary) (o : ObjectId) (v : Value) : Option Value × Dictionary :=
  match d.index.get? o with
  | some i => d.replaceAt i v
  | none => (none, ⟨d.entries ++ [(.identity o, v)], d.index.insert o d.entries.length⟩)

def deleteIdentity (d : Dictionary) (o : ObjectId) : Option (DictKey × Value) × Dictionary :=
  match d.index.get? o with
  | some i => d.removeAt i
  | none => (none, d)

def contentPosition? (d : Dictionary) (s : String) : Option Nat :=
  d.entries.findIdx? fun e => e.1 == .content s

def containsContent (d : Dictionary) (s : String) : Bool := (d.contentPosition? s).isSome

def getContent? (d : Dictionary) (s : String) : Option Value :=
  (d.contentPosition? s).bind d.valueAt?

def setContent (d : Dictionary) (s : String) (v : Value) : Option Value × Dictionary :=
  match d.contentPosition? s with
  | some i => d.replaceAt i v
  | none => (none, { d with entries := d.entries ++ [(.content s, v)] })

def deleteContent (d : Dictionary) (s : String) : Option (DictKey × Value) × Dictionary :=
  match d.contentPosition? s with
  | some i => d.removeAt i
  | none => (none, d)

/-! The same operations by stored key -/

def contains (d : Dictionary) : DictKey → Bool
  | .identity o => d.containsIdentity o
  | .content s => d.containsContent s

def get? (d : Dictionary) : DictKey → Option Value
  | .identity o => d.getIdentity? o
  | .content s => d.getContent? s

def set (d : Dictionary) (key : DictKey) (v : Value) : Option Value × Dictionary :=
  match key with
  | .identity o => d.setIdentity o v
  | .content s => d.setContent s v

def delete (d : Dictionary) : DictKey → Option (DictKey × Value) × Dictionary
  | .identity o => d.deleteIdentity o
  | .content s => d.deleteContent s

def nextName (d : Dictionary) (cursor : Nat) : Except Fatal Value :=
  match d.keyAt? cursor with
  | some key => .ok key.toValue
  | none => .error (.cursorPastEnd cursor d.size)

def nextValue (d : Dictionary) (cursor : Nat) : Except Fatal Value :=
  match d.valueAt? cursor with
  | some v => .ok v
  | none => .error (.cursorPastEnd cursor d.size)

def handles (d : Dictionary) : List Value :=
  d.entries.flatMap fun e => [e.1.toValue, e.2]

end Dictionary

end ScriptPlayer
