import ScriptPlayer.QName

/-! What stops a script operation: errors that a script may catch, and faults that end the run. -/
namespace ScriptPlayer

inductive ScriptError
  | type (message : String)
  | reference (message : String)
  /-- deletion of a property that a trait backs -/
  | cannotDelete (name : String)
  | notImplemented (what : String)
  | invalidArgument (message : String)
deriving DecidableEq

namespace ScriptError

def message : ScriptError → String
  | type m => "TypeError: " ++ m
  | reference m => "ReferenceError: " ++ m
  | cannotDelete name => "cannot delete trait-backed property " ++ name
  | notImplemented what => "not implemented: " ++ what
  | invalidArgument m => "invalid argument: " ++ m

def objectKey (cls : QName) : ScriptError := type (cls.toText ++ " does not support object keys")

def overrideNotFunction (found : String) : ScriptError :=
  type ("flash_proxy::getProperty must be a function, found " ++ found)

def notFunction (name : QName) (found : String) : ScriptError :=
  type (name.toText ++ " is not a function (found " ++ found ++ ")")

def notFound (name cls : QName) : ScriptError :=
  reference (name.toText ++ " not found on " ++ cls.toText)

def definitionNotText (found : String) : ScriptError :=
  type ("getDefinitionByName expects a String, got " ++ found)

def notClass (name : QName) (found : String) : ScriptError :=
  type (name.toText ++ " is a " ++ found ++ ", not a class")

def notDefined (raw : String) : ScriptError :=
  reference ("variable " ++ raw ++ " is not defined")

def notByteArray (found : String) : ScriptError :=
  type ("readBytes expects a ByteArray, got " ++ found)

def notListener (method found : String) : ScriptError :=
  type (method ++ " expects a Function listener, got " ++ found)

def notEvent : ScriptError := type "dispatchEvent expects an Event"

def badDelay (shown : String) : ScriptError :=
  invalidArgument ("Timer delay must be a finite non-negative number, got " ++ shown)

def negativeRepeat (n : Int) : ScriptError :=
  invalidArgument ("negative repeatCount " ++ toString n)

def negative (what : String) : ScriptError := invalidArgument ("negative " ++ what)

end ScriptError

inductive BackingKind
  | plain
  | bytes
  | dictionary
  | proxy
  | host
deriving DecidableEq

def BackingKind.toText : BackingKind → String
  | plain => "plain"
  | bytes => "ByteArray"
  | dictionary => "Dictionary"
  | proxy => "Proxy"
  | host => "host"

inductive PayloadKind
  | word
  | eventTarget
  | timer
  | video
deriving DecidableEq

def PayloadKind.toText : PayloadKind → String
  | word => "u32"
  | eventTarget => "flare_runtime::dispatcher::EventTarget"
  | timer => "flare_runtime::timer::TimerState"
  | video => "flare_runtime::media::VideoState"

/-- Violations that a script cannot handle; the run ends with one. -/
inductive Fatal
  | notIndexable (cls : QName)
  | byteIndex (index length : Nat)
  | fixedByteIndex (index length : Nat)
  | bufferTooSmall (length request : Nat)
  | copyOffset
  | sliceRange
  | argumentCount (function : String) (expected got : Nat)
  | notByteArray (found : BackingKind)
  | notDictionary (found : BackingKind)
  | notHost (cls : QName) (found : BackingKind)
  | missingPayload (cls : QName) (wanted : PayloadKind)
  | cursorPastEnd (cursor size : Nat)
  | registeredTwice (cls : QName)
  | notNetStream (shown : String)
  | noFrameSource
  | frameSizeChanged (width height newWidth newHeight : Nat)
  | durationRange
  /-- a product that is no machine word -/
  | multiplyOverflow
  /-- a buffer longer than any can be -/
  | capacityOverflow
  /-- events are dispatched where no event classes were registered -/
  | noEventClass
  /-- a handle to something that no longer exists was used -/
  | dangling (cell : Nat)
deriving DecidableEq

namespace Fatal

def message : Fatal → String
  | notIndexable cls => cls.toText ++ " instance is not indexable"
  | byteIndex index length => s!"ByteArray index {index} out of range (length {length})"
  | fixedByteIndex index length =>
    s!"ByteArray index {index} out of range for fixed length {length}"
  | bufferTooSmall length request =>
    s!"ByteArray buffer of {length} bytes cannot serve a request for {request}"
  | copyOffset => "ByteArray copy supports offset 0 only"
  | sliceRange => "slice range out of bounds"
  | argumentCount function expected got =>
    s!"{function} expects at least {expected} argument(s), got {got}"
  | notByteArray found => "expected ByteArray, found " ++ found.toText ++ " instance"
  | notDictionary found => "expected Dictionary, found " ++ found.toText ++ " instance"
  | notHost cls found =>
    cls.toText ++ " instance is " ++ found.toText ++ ", not a host object"
  | missingPayload cls wanted => cls.toText ++ " instance does not carry " ++ wanted.toText
  | cursorPastEnd cursor size => s!"enumeration cursor {cursor} past end (size {size})"
  | registeredTwice cls => "class " ++ cls.toText ++ " registered twice"
  | notNetStream shown => "attachNetStream expects a NetStream, got " ++ shown
  | noFrameSource => "NetStream has no frame source"
  | frameSizeChanged width height newWidth newHeight =>
    s!"video frame size changed from {width}x{height} to {newWidth}x{newHeight}"
  | durationRange => "duration out of range"
  | multiplyOverflow => "attempt to multiply with overflow"
  | capacityOverflow => "capacity overflow"
  | noEventClass => "no event class is registered"
  | dangling cell => s!"handle {cell} refers to nothing"

end Fatal

inductive Halt
  | error (e : ScriptError)
  | abort (f : Fatal)
  /-- the allowance of operations or of nested calls is used up -/
  | exhausted
deriving DecidableEq

end ScriptPlayer
