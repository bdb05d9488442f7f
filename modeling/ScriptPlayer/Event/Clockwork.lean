import ScriptPlayer.Event.Queue
import ScriptPlayer.Number.Duration

/-! Timer runs. Each started timer has one background worker that sleeps, looks at its stop flag,
counts a fire, posts it with a rendezvous and repeats; at the end it retires its target. One step of
a worker is one access to what it shares with the interpreter. -/
namespace ScriptPlayer

abbrev RunId := TargetId
abbrev CounterId := Nat

inductive RunPhase
  /-- submitted and not yet started -/
  | queued
  | asleep (wakeAt : Nanos)
  /-- awake, about to look at the stop flag -/
  | testing
  /-- about to count a fire -/
  | counting
  /-- about to post the fire that it counted -/
  | posting (fired : UInt32)
  /-- about to post the rendezvous -/
  | syncing (fired : UInt32)
  | awaiting (fired : UInt32) (r : RendezvousId)
  /-- the repeat count is reached: about to mark the run finished -/
  | completing
  /-- about to post the completion -/
  | announcing
  /-- on the way out: about to mark the run finished -/
  | closing
  /-- about to retire the target -/
  | retiring
  | done
deriving DecidableEq

structure TimerRun where
  counter : CounterId
  delay : Nanos
  /-- number of fires, 0 for no limit -/
  repeatCount : UInt32
  cancelled : Bool
  finished : Bool
  phase : RunPhase
deriving DecidableEq

def timerKind : String := "timer"

def completeKind : String := "timerComplete"

structure Clockwork where
  now : Nanos
  queue : EventQueue
  counters : List UInt32
  runs : List TimerRun
deriving DecidableEq

namespace Clockwork

def empty : Clockwork := ⟨0, .empty, [], []⟩

def run? (c : Clockwork) (r : RunId) : Option TimerRun := c.runs[r]?

def modifyRun (c : Clockwork) (r : RunId) (f : TimerRun → TimerRun) : Clockwork :=
  { c with runs := c.runs.modify r f }

def setPhase (c : Clockwork) (r : RunId) (p : RunPhase) : Clockwork :=
  c.modifyRun r fun run => { run with phase := p }

def count (c : Clockwork) (k : CounterId) : UInt32 := (c.counters[k]?).getD 0

def setCount (c : Clockwork) (k : CounterId) (n : UInt32) : Clockwork :=
  { c with counters := c.counters.set k n }

def newCounter (c : Clockwork) : CounterId × Clockwork :=
  (c.counters.length, { c with counters := c.counters ++ [0] })

def newRun (c : Clockwork) (counter : CounterId) (delay : Nanos) (repeatCount : UInt32) :
    RunId × Clockwork :=
  (c.runs.length,
    { c with runs := c.runs ++ [⟨counter, delay, repeatCount, false, false, .queued⟩] })

def cancel (c : Clockwork) (r : RunId) : Clockwork :=
  c.modifyRun r fun run => { run with cancelled := true }

def isRunning (c : Clockwork) (r : RunId) : Bool :=
  match c.run? r with
  | some run => !run.cancelled && !run.finished
  | none => false

/-- Post an event and go on to one phase if the queue took it, to the other if it is gone. -/
def postThen (c : Clockwork) (r : RunId) (e : Event) (sent gone : RunPhase) : Clockwork :=
  let (ok, queue) := c.queue.post e
  { c with queue := queue }.setPhase r (if ok then sent else gone)

/-- The next step of the worker of a run. A sleeper may wake at any time, whatever the clock says;
there is no step for a worker that waits for its rendezvous or is done. -/
def stepRun (c : Clockwork) (r : RunId) : Option Clockwork := do
  let run ← c.run? r
  match run.phase with
  | .queued => some (c.setPhase r (.asleep (c.now + run.delay)))
  | .asleep _ => some (c.setPhase r .testing)
  | .testing => some (c.setPhase r (if run.cancelled then .closing else .counting))
  | .counting =>
    let fired := c.count run.counter + 1
    some ((c.setCount run.counter fired).setPhase r (.posting fired))
  | .posting fired => some (c.postThen r (.dispatch r timerKind) (.syncing fired) .closing)
  | .syncing fired =>
    let (ok, rendezvous, queue) := c.queue.postSync
    let next := if ok then RunPhase.awaiting fired rendezvous else .closing
    some ({ c with queue := queue }.setPhase r next)
  | .awaiting fired rendezvous =>
    (c.queue.waitResult? rendezvous).map fun signalled =>
      if !signalled then c.setPhase r .closing
      else if run.repeatCount ≠ 0 ∧ run.repeatCount ≤ fired then c.setPhase r .completing
      else c.setPhase r (.asleep (c.now + run.delay))
  | .completing =>
    some ((c.modifyRun r fun run => { run with finished := true }).setPhase r .announcing)
  | .announcing => some (c.postThen r (.dispatch r completeKind) .closing .closing)
  | .closing =>
    some ((c.modifyRun r fun run => { run with finished := true }).setPhase r .retiring)
  | .retiring => some (c.postThen r (.retire r) .done .done)
  | .done => none

def isDone (c : Clockwork) (r : RunId) : Bool :=
  match c.run? r with
  | some run => run.phase == .done
  | none => true

end Clockwork

end ScriptPlayer
