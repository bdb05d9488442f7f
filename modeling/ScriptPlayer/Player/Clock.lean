import ScriptPlayer.World.Basic

/-! A schedule for the background workers: each goes on until it has to wait, and the clock moves
only when all of them wait. It is one of the schedules that the moves allow. -/
namespace ScriptPlayer.World

def wakeTime? (w : World) : Job → Option Nanos
  | .timer r =>
    match (w.clockwork.run? r).map TimerRun.phase with
    | some (.asleep t) => some t
    | _ => none
  | .decode d =>
    match (w.decoders[d]?).map Decoder.phase with
    | some (.asleep t) => some t
    | _ => none

def isAwaiting (w : World) : Job → Bool
  | .timer r =>
    match (w.clockwork.run? r).map TimerRun.phase with
    | some (.awaiting _ rendezvous) => (w.clockwork.queue.waitResult? rendezvous).isNone
    | _ => false
  | .decode _ => false

/-- The move that a worker makes without waiting. -/
def promptMove? (w : World) (k : WorkerId) : Option Move :=
  match w.pool.jobOf? k with
  | none => (w.pool.start? k).map fun _ => .start k
  | some job =>
    let due := match w.wakeTime? job with
      | some t => decide (t ≤ w.clockwork.now)
      | none => true
    if due && !w.isAwaiting job then some (.step k) else none

def sweep (w : World) : Bool × World :=
  (List.range w.pool.threads).foldl (fun (moved, w) k =>
    match (w.promptMove? k).bind w.move with
    | some w => (true, w)
    | none => (moved, w)) (false, w)

def settleBy : Nat → World → World
  | 0, w => w
  | fuel + 1, w =>
    match w.sweep with
    | (true, w) => settleBy fuel w
    | (false, w) => w

def settle (w : World) : World :=
  settleBy (16 * (w.clockwork.runs.length + w.decoders.length + 1)) w

/-- Whether a job may post an event before the interpreter does something: a timer, or a decoder
that is about to make room for one. -/
def leadsToEvent (w : World) : Job → Bool
  | .timer _ => true
  | .decode d => (w.decoders[d]?).any fun decoder => w.isTickerCancelled decoder.ticker

def ticks (w : World) (video : ObjectId) : Job → Bool
  | .timer _ => false
  | .decode d => (w.decoders[d]?).any fun decoder => decoder.ticker.video == video

def nextWake? (w : World) (among : Job → Bool) : Option Nanos :=
  ((List.range w.pool.threads).filterMap fun k =>
    ((w.pool.jobOf? k).filter among).bind w.wakeTime?).min?

def setClock (w : World) (t : Nanos) : World :=
  settle { w with clockwork := { w.clockwork with now := max w.clockwork.now t } }

/-- Move the clock to the next wake-up among some jobs that is no later than the deadline. -/
def advance? (w : World) (among : Job → Bool) (deadline : Option Nanos) : Option World := do
  let t ← w.nextWake? among
  if deadline.any (decide <| · < t) then none else some (w.setClock t)

end ScriptPlayer.World
