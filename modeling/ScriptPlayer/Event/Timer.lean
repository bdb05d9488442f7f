import ScriptPlayer.Script.Run

/-! Timer objects. A start makes a new run with a target of its own and submits its job; a stop
cancels the run and forgets the target, so that nothing it may still post is delivered. -/
namespace ScriptPlayer

/-- Time between fires: the delay in milliseconds, but no less than the configured minimum. -/
def Nanos.ofDelay? (delay : Binary64) (least : Nanos) : Option Nanos :=
  (Nanos.ofSeconds? (delay.div (.ofNat 1000))).map fun t => max t least

def parseDelay (naming : Naming) (v : Value) : Except ScriptError Binary64 :=
  let delay := v.toNumber
  if !delay.isFinite || delay.lt (.zero false) then .error (.badDelay (v.toText naming))
  else .ok delay

def parseRepeat (v : Value) : Except ScriptError UInt32 :=
  let n := v.toInt
  if n < 0 then .error (.negativeRepeat n.toInt) else .ok n.toUInt32

namespace Run

def timerOf (o : ObjectId) : Run TimerState := do
  let i ← instanceOf o
  ofFatal (i.timerState (← world).classes)

def putTimer (o : ObjectId) (timer : TimerState) : Run Unit := do
  let i ← instanceOf o
  putInstance o (i.setTimerState timer)

def initTimer (o : ObjectId) (args : List Value) : Run Unit := do
  requireArgs "Timer" args 1
  let delay ← ofError (parseDelay (← world).naming (args.getD 0 .undefined))
  let repeatCount ← ofError (parseRepeat (args.getD 1 .undefined))
  let timer ← timerOf o
  putTimer o { timer with delay := delay, repeatCount := repeatCount }

def stopTimer (o : ObjectId) : Run Unit := do
  let timer ← timerOf o
  match timer.run with
  | none => return
  | some r =>
    putTimer o { timer with run := none }
    modifyWorld fun w => { w with clockwork := w.clockwork.cancel r }
    modifyWorld fun w => w.putTargets (w.targets.filter fun e => e.1 != r)

def isTimerRunning (o : ObjectId) : Run Bool := do
  match (← timerOf o).run with
  | some r => return (← world).clockwork.isRunning r
  | none => return false

def startTimer (o : ObjectId) : Run Unit := do
  if ← isTimerRunning o then return
  stopTimer o
  let timer ← timerOf o
  match Nanos.ofDelay? timer.delay (← world).minDelay with
  | none => abort .durationRange
  | some delay =>
    let r ← updateWorld fun w =>
      let (r, clockwork) := w.clockwork.newRun timer.counter delay timer.repeatCount
      (r, { w with clockwork := clockwork })
    putTimer o { timer with run := some r }
    modifyWorld fun w => w.putTargets (w.targets ++ [(r, o)])
    modifyWorld fun w => { w with pool := w.pool.submit (.timer r) }

def resetTimer (o : ObjectId) : Run Unit := do
  stopTimer o
  let timer ← timerOf o
  modifyWorld fun w => { w with clockwork := w.clockwork.setCount timer.counter 0 }

def setTimerDelay (o : ObjectId) (args : List Value) : Run Unit := do
  requireArgs "Timer.delay" args 1
  let delay ← ofError (parseDelay (← world).naming (args.getD 0 .undefined))
  let timer ← timerOf o
  putTimer o { timer with delay := delay }

end Run

end ScriptPlayer
