import ScriptPlayer.Event.Dispatch
import ScriptPlayer.Event.Timer
import ScriptPlayer.Media.Playback

/-! What the built-in functions do. -/
namespace ScriptPlayer

def Value.ofLength (n : Nat) : Value :=
  if n < 0x8000_0000 then .int (Int32.ofNat n) else .number (.ofNat n)

namespace World

/-- The qualified class name of a value; values without a class give the name of their type. -/
def qualifiedClassName (w : World) : Value → Value
  | .object o => .string (w.naming.classOf o).toText
  | .classRef c => .string (w.classes.nameOf c).toText
  | v => .string v.typeName

def qualifiedSuperclassName (w : World) : Value → Value
  | .object o => parentName ((w.instance? o).map Instance.cls)
  | .classRef c => parentName (some c)
  | .undefined | .null => .null
  | _ => .string "Object"
where
  parentName (c : Option ClassId) : Value :=
    match (c.bind w.classes.get?).bind Class.superclass with
    | some parent => .string (w.classes.nameOf parent).toText
    | none => .null

def definition (w : World) (v : Value) : Except ScriptError Value :=
  match v with
  | .string raw =>
    let name := QName.parse raw
    match w.globals.get? name with
    | some (.classRef c) => .ok (.classRef c)
    | some other => .error (.notClass name other.typeName)
    | none => .error (.notDefined raw)
  | other => .error (.definitionNotText other.typeName)

def elapsedTime (w : World) : Value := .ofLength w.clockwork.now.toMillis

end World

namespace Run

def bufferOf (o : ObjectId) : Run ByteBuffer := do ofFatal (← instanceOf o).byteBuffer

def putBuffer (o : ObjectId) (b : ByteBuffer) : Run Unit := do
  let i ← instanceOf o
  putInstance o { i with backing := .bytes b }

def offsetOf (what : String) (v : Value) : Run Nat :=
  let n := v.toInt
  if n < 0 then fail (.negative what) else return n.toInt.toNat

/-- Move bytes at the position of one buffer to the front of another, which may be the same. -/
def copyBytes (source dest : ObjectId) (offset length : Nat) : Run Unit := do
  let (chunk, rest) ← ofFatal ((← bufferOf source).take offset length)
  putBuffer source rest
  let target ← ofFatal ((← bufferOf dest).fill chunk)
  putBuffer dest target

def editBytes (o : ObjectId) (edit : ByteEdit) : Run Unit := do
  let b ← ofFatal ((← bufferOf o).edit edit)
  putBuffer o b

def setBytePosition (this : ObjectId) (args : List Value) : Run Unit := do
  requireArgs "ByteArray.position" args 1
  let position ← offsetOf "position" (args.getD 0 .undefined)
  editBytes this (.seek position)

def byteArrayOf (v : Value) : Run ObjectId := do
  match v with
  | .object o =>
    match (← instanceOf o).backing with
    | .bytes _ => return o
    | _ => fail (.notByteArray v.typeName)
  | _ => fail (.notByteArray v.typeName)

def readBytes (this : ObjectId) (args : List Value) : Run Unit := do
  requireArgs "ByteArray.readBytes" args 3
  let dest ← byteArrayOf (args.getD 0 .undefined)
  let offset ← offsetOf "offset" (args.getD 1 .undefined)
  let length ← offsetOf "length" (args.getD 2 .undefined)
  copyBytes this dest offset length

def listenerArgs (method : String) (args : List Value) : Run (String × FunctionId) := do
  requireArgs method args 2
  match args.getD 1 .undefined with
  | .function f => return ((← world).textOf (args.getD 0 .undefined), f)
  | other => fail (.notListener method other.typeName)

/-- The type of the event that a value is, as text: what the event stores as its type is not held
any longer. -/
def eventKind (call : Caller) (v : Value) : Run String := framed .operation (fun _ => []) do
  match v with
  | .object event =>
    match ← get call event (.pub "type") with
    | some kind => return (← world).textOf kind
    | none => fail .notEvent
  | _ => fail .notEvent

def initEvent (call : Caller) (this : ObjectId) (args : List Value) : Run Unit := do
  requireArgs "Event" args 1
  set call this (.pub "type") (.string ((← world).textOf (args.getD 0 .undefined)))
  set call this (.pub "target") .null

def sizeArg (method : String) (args : List Value) : Run Int32 := do
  requireArgs method args 1
  return (args.getD 0 .undefined).toInt

def returningUndefined (m : Run Unit) : Run Value := do
  m
  return .undefined

def builtin (call : Caller) (b : Builtin) (this : ObjectId) (args : List Value) : Run Value :=
  let first := args.getD 0 .undefined
  match b with
  | .qualifiedClassName => do
    requireArgs b.name args 1
    return (← world).qualifiedClassName first
  | .qualifiedSuperclassName => do
    requireArgs b.name args 1
    return (← world).qualifiedSuperclassName first
  | .definitionByName => do ofError ((← world).definition first)
  | .elapsedTime => return (← world).elapsedTime
  | .byteLength => return .ofLength (← bufferOf this).length
  | .bytesAvailable => return .ofLength (← bufferOf this).available
  | .bytePosition => return .ofLength (← bufferOf this).position
  | .setBytePosition => returningUndefined (setBytePosition this args)
  | .readBytes => returningUndefined (readBytes this args)
  | .newEvent => returningUndefined (initEvent call this args)
  | .addEventListener => returningUndefined do
    let (kind, f) ← listenerArgs b.name args
    addListener this kind f
  | .removeEventListener => returningUndefined do
    let (kind, f) ← listenerArgs b.name args
    discard (removeListener this kind f)
  | .hasEventListener => do
    requireArgs b.name args 1
    return .bool ((← listenersOf this).has ((← world).textOf first))
  | .dispatchEvent => do
    let invoked ← dispatch call this (← eventKind call first)
    return .bool (decide (0 < invoked))
  | .newTimer => returningUndefined (initTimer this args)
  | .startTimer => returningUndefined (startTimer this)
  | .stopTimer => returningUndefined (stopTimer this)
  | .resetTimer => returningUndefined (resetTimer this)
  | .timerDelay => return .number (← timerOf this).delay
  | .setTimerDelay => returningUndefined (setTimerDelay this args)
  | .timerRepeatCount => return .int (← timerOf this).repeatCount.toInt32
  | .timerRunning => return .bool (← isTimerRunning this)
  | .timerCurrentCount => do
    let timer ← timerOf this
    return .int ((← world).clockwork.count timer.counter).toInt32
  | .newSoundTransform => returningUndefined (initSoundTransform call this args)
  | .newVideo => returningUndefined (initVideo this args)
  | .attachNetStream => returningUndefined (attachNetStream this args)
  | .videoWidth => return .int (← videoOf this).width.toInt32
  | .videoHeight => return .int (← videoOf this).height.toInt32
  | .displayWidth => return .int (← screenOf this).width
  | .displayHeight => return .int (← screenOf this).height
  | .setDisplayWidth => returningUndefined do
    let n ← sizeArg b.name args
    updateScreen this fun screen => { screen with width := n }
  | .setDisplayHeight => returningUndefined do
    let n ← sizeArg b.name args
    updateScreen this fun screen => { screen with height := n }

end Run

end ScriptPlayer
