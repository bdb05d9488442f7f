import ScriptPlayer.Options.Basic
import ScriptPlayer.Script.Interpreter

/-! The world that a script finds: the core classes and functions, and what a player adds. -/
namespace ScriptPlayer

/-- A class made of built-ins: static members, members bound to each instance, a constructor and a
storage. Members are public and bear the names of their built-ins. -/
structure BuiltinClass where
  name : QName
  superclass : Option ClassId
  constructor? : Option Builtin
  members : List (TraitKind × Builtin)
  bound : List (TraitKind × Builtin)
  backing : Option BackingSpec

namespace BuiltinClass

def ofName (name ns : String) (superclass : Option ClassId) : BuiltinClass :=
  ⟨⟨ns, name⟩, superclass, none, [], [], none⟩

/-- Binds fresh functions, so that instances share none. -/
def hook (c : BuiltinClass) : Option (List HookStep) :=
  if c.bound.isEmpty then none
  else some <| c.bound.map fun (kind, b) =>
    .bind kind (.pub b.name) (.fresh b.name (.builtin b))

end BuiltinClass

namespace World

def blank : World where
  heap := .empty
  classes := .empty
  core := ⟨0, 0, 0, 0⟩
  runtime := none
  globals := .empty
  frames := [⟨.embedder, []⟩]
  trace := []
  screens := []
  sources := []
  clockwork := .empty
  decoders := []
  pool := ⟨[], [], 0, false⟩
  targets := []
  minDelay := 0
  fallbackRate := VideoState.defaultRate

end World

namespace Run

def native (b : Builtin) : Run FunctionId := newFunction b.name [] (.builtin b)

def registerBuiltins (c : BuiltinClass) : Run ClassId := do
  let mut traits := []
  for (kind, b) in c.members do
    traits := traits ++ [(kind, QName.pub b.name, ← native b)]
  let constructor? ← match c.constructor? with
    | some b => some <$> native b
    | none => pure none
  registerClass ⟨c.name, c.superclass, traits, constructor?, c.hook, c.backing⟩

def defineUtility (b : Builtin) : Run Unit := do
  let f ← native b
  modifyWorld (·.defineGlobal ⟨"flash.utils", b.name⟩ (.function f))

def setupCore : Run Unit := forEffect do
  let object ← registerBuiltins (.ofName "Object" "" none)
  let byteArray ← registerBuiltins { BuiltinClass.ofName "ByteArray" "flash.utils" object with
    bound := [(.getter, .byteLength), (.getter, .bytesAvailable), (.getter, .bytePosition),
      (.setter, .setBytePosition), (.method, .readBytes)]
    backing := some .bytes }
  let dictionary ← registerBuiltins { BuiltinClass.ofName "Dictionary" "flash.utils" object with
    backing := some .dictionary }
  let proxy ← registerBuiltins { BuiltinClass.ofName "Proxy" "flash.utils" object with
    backing := some .proxy }
  modifyWorld fun w => { w with core := ⟨object, byteArray, dictionary, proxy⟩ }
  defineUtility .qualifiedClassName
  defineUtility .qualifiedSuperclassName
  defineUtility .definitionByName
  defineUtility .elapsedTime

def setupPlayer : Run Unit := forEffect do
  let object := (← world).core.object
  let event ← registerBuiltins { BuiltinClass.ofName "Event" "flash.events" object with
    constructor? := some .newEvent }
  let eventDispatcher ← registerBuiltins
    { BuiltinClass.ofName "EventDispatcher" "flash.events" object with
      members := [(.method, .addEventListener), (.method, .removeEventListener),
        (.method, .hasEventListener), (.method, .dispatchEvent)]
      backing := some .eventTarget }
  let timer ← registerBuiltins { BuiltinClass.ofName "Timer" "flash.utils" eventDispatcher with
    constructor? := some .newTimer
    members := [(.method, .startTimer), (.method, .stopTimer), (.method, .resetTimer),
      (.getter, .timerDelay), (.setter, .setTimerDelay), (.getter, .timerRepeatCount),
      (.getter, .timerRunning), (.getter, .timerCurrentCount)]
    backing := some .timer }
  let displayObject ← registerBuiltins (.ofName "DisplayObject" "flash.display" object)
  let netStream ← registerBuiltins (.ofName "NetStream" "flash.net" object)
  let soundTransform ← registerBuiltins
    { BuiltinClass.ofName "SoundTransform" "flash.media" object with
      constructor? := some .newSoundTransform }
  let video ← registerBuiltins { BuiltinClass.ofName "Video" "flash.media" displayObject with
    constructor? := some .newVideo
    members := [(.method, .attachNetStream)]
    bound := [(.getter, .videoWidth), (.getter, .videoHeight), (.getter, .displayWidth),
      (.setter, .setDisplayWidth), (.getter, .displayHeight), (.setter, .setDisplayHeight)]
    backing := some .video }
  modifyWorld fun w => { w with
    runtime := some ⟨event, eventDispatcher, timer, displayObject, netStream, soundTransform,
      video⟩ }

end Run

namespace World

def after (w : World) (m : Run Unit) : World :=
  match m ⟨w, [], 0, []⟩ with
  | .ok _ s => s.world
  | .error _ s => s.world

def initial : World := blank.after Run.setupCore

def ofOptions (o : Options) (threads : Nat) : World :=
  { initial with
    pool := .ofThreads threads
    minDelay := o.minDelay
    fallbackRate := o.fallbackRate }.after Run.setupPlayer

end World

end ScriptPlayer
