import ScriptPlayer.Player.Clock
import ScriptPlayer.Player.Setup

/-! The player: it hands the events of background workers to scripts and renders videos. -/
namespace ScriptPlayer

namespace World

def submitDecoder (w : World) (ticker : Ticker) (interval : Nanos) : World :=
  { w with
    decoders := w.decoders ++ [⟨ticker, interval, .testing⟩]
    pool := w.pool.submit (.decode w.decoders.length) }

def pendingEvents (w : World) : Nat := w.clockwork.queue.size

def liveTargets (w : World) : Nat := w.targets.length

end World

namespace Run

variable (call : Caller)

/-- Deliver a dispatch, unless its target has been given up. An error of the dispatch is dropped. -/
def deliver (target : TargetId) (kind : String) : Run Unit := do
  match (← world).targets.lookup target with
  | none => return
  | some o =>
    discard <| attempt <| forEffect do
      hold (.object o)
      dispatch call o kind

def handle : Event → Run Unit
  | .dispatch target kind => deliver call target kind
  | .sync r => modifyWorld fun w =>
    { w with clockwork := { w.clockwork with queue := w.clockwork.queue.signal r } }
  | .retire target => modifyWorld fun w => w.putTargets (w.targets.filter fun e => e.1 != target)

def takeEvent : Run (Option Event) := updateWorld fun w =>
  let (e, queue) := w.clockwork.queue.take
  (e, { w with clockwork := { w.clockwork with queue := queue } })

def pump : Nat → Run Nat
  | 0 => throw .exhausted
  | fuel + 1 => do
    pulse
    match ← takeEvent with
    | none => return 0
    | some e =>
      handle call e
      return (← pump fuel) + 1

def settle : Run Unit := modifyWorld World.settle

/-- Let the clock go on while the workers wait, until as many events are queued as are wanted or the
deadline has come. Tells whether the events came. -/
def awaitEvents (wanted : Nat) (deadline : Option Nanos) : Nat → Run Bool
  | 0 => throw .exhausted
  | fuel + 1 => do
    let w ← world
    if wanted ≤ w.pendingEvents then return true
    match w.advance? w.leadsToEvent deadline with
    | some w =>
      modifyWorld fun _ => w
      awaitEvents wanted deadline fuel
    | none =>
      modifyWorld fun w => w.setClock (deadline.getD 0)
      return false

def await (wanted : Nat) (deadline : Option Nanos) (fuel : Nat) : Run Bool := do
  settle
  awaitEvents wanted deadline fuel

def deadlineAfter (span : Nanos) : Run (Option Nanos) :=
  return some ((← world).clockwork.now + span)

def pumpTimeout (span : Nanos) (fuel : Nat) : Run Nat := do
  if ← await 1 (← deadlineAfter span) fuel then pump call fuel else return 0

def pumpUntil (deadline : Option Nanos) (done : World → Bool) : Nat → Run Bool
  | 0 => throw .exhausted
  | fuel + 1 => do
    if done (← world) then return true
    if ← await 1 deadline (fuel + 1) then
      discard (pump call (fuel + 1))
      pumpUntil deadline done fuel
    else return done (← world)

def idle (fuel : Nat) : Run Bool := pumpUntil call none (fun w => w.targets.isEmpty) fuel

def waitPending (wanted fuel : Nat) : Run Nat := do
  discard (await wanted none fuel)
  return (← world).pendingEvents

/-- Render one frame. The render that locks the size starts the decode ticks. -/
def renderVideo (o : ObjectId) : Run RenderOutcome := do
  let outcome ← render o
  match outcome, ← tickerOf o with
  | .started interval, some ticker => modifyWorld (·.submitDecoder ticker interval)
  | _, _ => pure ()
  return outcome

def renderUntil (o : ObjectId) (byte : UInt8) : Nat → Run Bool
  | 0 => throw .exhausted
  | fuel + 1 => do
    discard (renderVideo o)
    if (← videoOf o).front.head? = some byte then return true
    settle
    let w ← world
    match w.advance? (fun job => w.leadsToEvent job || w.ticks o job) none with
    | some w =>
      modifyWorld fun _ => w
      renderUntil o byte fuel
    | none => return false

end Run

end ScriptPlayer
