/-! The functions that the player itself provides. -/
namespace ScriptPlayer

inductive Builtin
  | qualifiedClassName
  | qualifiedSuperclassName
  | definitionByName
  | elapsedTime
  | byteLength
  | bytesAvailable
  | bytePosition
  | setBytePosition
  | readBytes
  | newEvent
  | addEventListener
  | removeEventListener
  | hasEventListener
  | dispatchEvent
  | newTimer
  | startTimer
  | stopTimer
  | resetTimer
  | timerDelay
  | setTimerDelay
  | timerRepeatCount
  | timerRunning
  | timerCurrentCount
  | newSoundTransform
  | newVideo
  | attachNetStream
  | videoWidth
  | videoHeight
  | displayWidth
  | setDisplayWidth
  | displayHeight
  | setDisplayHeight
deriving DecidableEq

def Builtin.name : Builtin → String
  | qualifiedClassName => "getQualifiedClassName"
  | qualifiedSuperclassName => "getQualifiedSuperclassName"
  | definitionByName => "getDefinitionByName"
  | elapsedTime => "getTimer"
  | byteLength => "length"
  | bytesAvailable => "bytesAvailable"
  | bytePosition => "position"
  | setBytePosition => "position"
  | readBytes => "readBytes"
  | newEvent => "Event"
  | addEventListener => "addEventListener"
  | removeEventListener => "removeEventListener"
  | hasEventListener => "hasEventListener"
  | dispatchEvent => "dispatchEvent"
  | newTimer => "Timer"
  | startTimer => "start"
  | stopTimer => "stop"
  | resetTimer => "reset"
  | timerDelay => "delay"
  | setTimerDelay => "delay"
  | timerRepeatCount => "repeatCount"
  | timerRunning => "running"
  | timerCurrentCount => "currentCount"
  | newSoundTransform => "SoundTransform"
  | newVideo => "Video"
  | attachNetStream => "attachNetStream"
  | videoWidth => "videoWidth"
  | videoHeight => "videoHeight"
  | displayWidth => "width"
  | setDisplayWidth => "width"
  | displayHeight => "height"
  | setDisplayHeight => "height"

abbrev CodeId := Nat

inductive CodeRef
  | builtin (b : Builtin)
  | script (id : CodeId)
deriving DecidableEq

end ScriptPlayer
