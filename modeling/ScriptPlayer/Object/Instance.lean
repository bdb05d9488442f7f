import ScriptPlayer.Event.Listeners
import ScriptPlayer.Object.ByteBuffer
import ScriptPlayer.Object.Class
import ScriptPlayer.Object.Dictionary
import ScriptPlayer.Object.PropertyMap

/-! Object instances: dynamic slots over the traits of a class chain, members bound to the instance
alone, and native storage. -/
namespace ScriptPlayer

structure TimerState where
  delay : Binary64
  repeatCount : UInt32
  counter : CounterId
  /-- the run of the last start that nobody stopped -/
  run : Option RunId
deriving DecidableEq

inductive Payload
  | word (n : UInt32)
  | eventTarget (listeners : Listeners) (timer : Option TimerState)
  | stream (source : SourceId)
  | video (state : VideoState)
deriving DecidableEq

inductive Backing
  | plain
  | bytes (b : ByteBuffer)
  | dictionary (d : Dictionary)
  /-- `active` while a call of the read override is in progress -/
  | proxy (active : Bool)
  | host (payload : Payload)

namespace Backing

def kind : Backing → BackingKind
  | plain => .plain
  | bytes _ => .bytes
  | dictionary _ => .dictionary
  | proxy _ => .proxy
  | host _ => .host

def handles : Backing → List Value
  | dictionary d => d.handles
  | host (.eventTarget listeners _) => listeners.handles
  | _ => []

end Backing

structure Instance where
  cls : ClassId
  slots : PropertyMap
  bound : TraitTable
  installed : Bool
  backing : Backing

namespace Instance

def fresh (cls : ClassId) (backing : Backing) : Instance := ⟨cls, .empty, .empty, false, backing⟩

def handles (i : Instance) : List Value := i.slots.values ++ i.bound.handles ++ i.backing.handles

def isIndexable (i : Instance) : Bool :=
  match i.backing with
  | .bytes _ | .dictionary _ => true
  | _ => false

def bind (i : Instance) (kind : TraitKind) (name : QName) (f : FunctionId) : Instance :=
  { i with bound := i.bound.define name kind f }

variable (t : ClassTable) (i : Instance)

def className : QName := t.nameOf i.cls

/-- The trait that answers a read: one bound to the instance before one of the class chain. -/
def readableTrait (name : QName) : Option Trait :=
  match (i.bound.get? name).filter Trait.isReadable with
  | some trait => some trait
  | none => t.findReadable i.cls name

def setter? (name : QName) : Option FunctionId :=
  match (i.bound.get? name).bind Trait.setter with
  | some f => some f
  | none => t.findSetter i.cls name

/-- Whether a trait has this name, readable or not. -/
def hasTrait (name : QName) : Bool := i.bound.contains name || t.declares i.cls name

/-! Access to native storage of an expected kind. -/

def byteBuffer : Except Fatal ByteBuffer :=
  match i.backing with
  | .bytes b => .ok b
  | other => .error (.notByteArray other.kind)

def dictionary : Except Fatal Dictionary :=
  match i.backing with
  | .dictionary d => .ok d
  | other => .error (.notDictionary other.kind)

def payload : Except Fatal Payload :=
  match i.backing with
  | .host p => .ok p
  | other => .error (.notHost (i.className t) other.kind)

def word : Except Fatal UInt32 := do
  match ← i.payload t with
  | .word n => return n
  | _ => throw (.missingPayload (i.className t) .word)

def listeners : Except Fatal Listeners := do
  match ← i.payload t with
  | .eventTarget listeners _ => return listeners
  | _ => throw (.missingPayload (i.className t) .eventTarget)

def timerState : Except Fatal TimerState := do
  match ← i.payload t with
  | .eventTarget _ (some timer) => return timer
  | .eventTarget _ none => throw (.missingPayload (i.className t) .timer)
  | _ => throw (.missingPayload (i.className t) .eventTarget)

def videoState : Except Fatal VideoState := do
  match ← i.payload t with
  | .video state => return state
  | _ => throw (.missingPayload (i.className t) .video)

def setListeners (listeners : Listeners) : Instance :=
  match i.backing with
  | .host (.eventTarget _ timer) => { i with backing := .host (.eventTarget listeners timer) }
  | _ => i

def setTimerState (timer : TimerState) : Instance :=
  match i.backing with
  | .host (.eventTarget listeners _) =>
    { i with backing := .host (.eventTarget listeners (some timer)) }
  | _ => i

def setVideoState (state : VideoState) : Instance := { i with backing := .host (.video state) }

end Instance

end ScriptPlayer
