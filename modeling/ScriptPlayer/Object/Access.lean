import ScriptPlayer.Key
import ScriptPlayer.Object.Instance

/-! How an instance answers a key, without running any script. Qualified names search the dynamic
slots, then the traits bound to the instance, then the class chain; indices and object keys go to
the native storage. Dictionaries and proxies address an index by its text. -/
namespace ScriptPlayer

inductive Found
  | value (v : Value)
  | getter (f : FunctionId)
  | absent
deriving DecidableEq

inductive Written
  | stored (i : Instance)
  | setter (f : FunctionId)

namespace Instance

variable (t : ClassTable) (i : Instance)

/-- Dictionaries and proxies take an index for its text. -/
def readsIndexAsText : Bool :=
  match i.backing with
  | .dictionary _ | .proxy _ => true
  | _ => false

def resolve (key : Key) : Key :=
  if i.readsIndexAsText then
    match key.indexSpelling? with
    | some text => Key.qualified text key.ns
    | none => key
  else key

def noObjectKeys {α : Type} : Except Halt α := .error (.error (.objectKey (i.className t)))

def notIndexable {α : Type} : Except Halt α := .error (.abort (.notIndexable (i.className t)))

def lookup (name : QName) : Found :=
  match i.slots.get? name with
  | some v => .value v
  | none =>
    match i.readableTrait t name with
    | some ⟨some getter, _, _⟩ => .getter getter
    | some ⟨none, _, some method⟩ => .value (.function method)
    | _ => .absent

def content? (name : String) : Option Value :=
  match i.backing with
  | .dictionary d => d.getContent? name
  | _ => none

def read (key : Key) : Except Halt Found :=
  let key := i.resolve key
  match key.name with
  | .qualified name =>
    match i.content? name with
    | some v => .ok (.value v)
    | none => .ok (i.lookup t ⟨key.ns, name⟩)
  | .index n =>
    match i.backing with
    | .bytes b =>
      match b.get n.toNat with
      | .ok byte => .ok (.value (.int (Int32.ofNat byte.toNat)))
      | .error f => .error (.abort f)
    | _ => i.notIndexable t
  | .identity o =>
    match i.backing with
    | .dictionary d =>
      match d.getIdentity? o with
      | some v => .ok (.value v)
      | none => .ok .absent
    | .proxy _ => .ok .absent
    | _ => i.noObjectKeys t

/-- The byte that a value is written as: zero if undefined, else the low bits of its integer. -/
def toByte (v : Value) : UInt8 := if v.isUndefined then 0 else v.toInt.toUInt32.toUInt8

/-- Where a write ends. A setter takes the value before any slot does, and a dictionary takes text
keys for itself. -/
def write (key : Key) (v : Value) : Except Halt Written :=
  let key := i.resolve key
  match key.name with
  | .qualified name =>
    match i.backing with
    | .dictionary d => .ok (.stored { i with backing := .dictionary (d.setContent name v).2 })
    | _ =>
      match i.setter? t ⟨key.ns, name⟩ with
      | some f => .ok (.setter f)
      | none => .ok (.stored { i with slots := (i.slots.insert ⟨key.ns, name⟩ v).2 })
  | .index n =>
    match i.backing with
    | .bytes b =>
      match b.set n.toNat (toByte v) with
      | .ok b => .ok (.stored { i with backing := .bytes b })
      | .error f => .error (.abort f)
    | _ => i.notIndexable t
  | .identity o =>
    match i.backing with
    | .dictionary d => .ok (.stored { i with backing := .dictionary (d.setIdentity o v).2 })
    | _ => i.noObjectKeys t

/-- Delete a slot; a name that only a trait has cannot be deleted. -/
def removeSlot (name : QName) : Except Halt (Option Instance) :=
  if i.slots.contains name then .ok (some { i with slots := (i.slots.remove name).2 })
  else if i.hasTrait t name then .error (.error (.cannotDelete name.toText))
  else .ok none

def remove (key : Key) : Except Halt (Option Instance) :=
  let key := i.resolve key
  match key.name with
  | .qualified name =>
    match i.backing with
    | .dictionary d =>
      match d.deleteContent name with
      | (some _, d) => .ok (some { i with backing := .dictionary d })
      | (none, _) => i.removeSlot t ⟨key.ns, name⟩
    | _ => i.removeSlot t ⟨key.ns, name⟩
  | .index _ =>
    match i.backing with
    | .bytes _ => .ok none
    | _ => i.notIndexable t
  | .identity o =>
    match i.backing with
    | .dictionary d =>
      match d.deleteIdentity o with
      | (some _, d) => .ok (some { i with backing := .dictionary d })
      | (none, _) => .ok none
    | _ => i.noObjectKeys t

def hasNamed (name : QName) : Bool :=
  (i.content? name.name).isSome || i.slots.contains name || i.hasTrait t name

/-- Whether something answers to the key. Only byte storage takes an index for a number. -/
def has (key : Key) : Bool :=
  match key.name with
  | .qualified name => i.hasNamed t ⟨key.ns, name⟩
  | .index n =>
    match i.backing with
    | .bytes b => decide (n.toNat < b.length)
    | _ => i.hasNamed t ⟨key.ns, key.spelling.getD (Key.indexText n)⟩
  | .identity o =>
    match i.backing with
    | .dictionary d => d.containsIdentity o
    | _ => false

/-! Enumeration goes over the native storage if it is a container, over the slots otherwise. -/

def enumSize : Nat :=
  match i.backing with
  | .bytes b => b.length
  | .dictionary d => d.size
  | _ => i.slots.size

def hasNext (cursor : Nat) : Bool := decide (cursor < i.enumSize)

def nextName (cursor : Nat) : Except Fatal Value :=
  match i.backing with
  | .bytes b =>
    if cursor < b.length then .ok (.int (Int32.ofNat cursor))
    else .error (.cursorPastEnd cursor b.length)
  | .dictionary d => d.nextName cursor
  | _ => i.slots.nextName cursor

def nextValue (cursor : Nat) : Except Fatal Value :=
  match i.backing with
  | .bytes b =>
    match b.get? cursor with
    | some byte => .ok (.int (Int32.ofNat byte.toNat))
    | none => .error (.cursorPastEnd cursor b.length)
  | .dictionary d => d.nextValue cursor
  | _ => i.slots.nextValue cursor

end Instance

end ScriptPlayer
