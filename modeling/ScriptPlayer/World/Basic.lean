import ScriptPlayer.Event.WorkerPool
import ScriptPlayer.Object.Access
import ScriptPlayer.Object.Heap

/-! All that a player holds: heap, classes, globals, the frames of running operations, timers,
screens and background workers. Handles change hands only through the functions of this file, each
of which takes the new handles before it gives up the old ones. -/
namespace ScriptPlayer

structure CoreClasses where
  object : ClassId
  byteArray : ClassId
  dictionary : ClassId
  proxy : ClassId
deriving DecidableEq

structure PlayerClasses where
  event : ClassId
  eventDispatcher : ClassId
  timer : ClassId
  displayObject : ClassId
  netStream : ClassId
  soundTransform : ClassId
  video : ClassId
deriving DecidableEq

inductive Purpose
  /-- what the embedder holds -/
  | embedder
  | operation
  | call (f : FunctionId)
  /-- a call of a proxy's read override -/
  | override (proxy : ObjectId)
deriving DecidableEq

structure Frame where
  purpose : Purpose
  held : List Value
deriving DecidableEq

abbrev DecoderId := Nat

inductive DecoderPhase
  /-- about to look whether the video still exists -/
  | testing
  | asleep (wakeAt : Nanos)
  | ticking
  | done
deriving DecidableEq

structure Decoder where
  ticker : Ticker
  interval : Nanos
  phase : DecoderPhase
deriving DecidableEq

inductive Job
  | timer (r : RunId)
  | decode (d : DecoderId)
deriving DecidableEq

structure World where
  heap : Heap
  classes : ClassTable
  core : CoreClasses
  runtime : Option PlayerClasses
  globals : PropertyMap
  /-- innermost first -/
  frames : List Frame
  /-- what scripts reported, latest first -/
  trace : List (List Snapshot)
  screens : List Screen
  sources : List FrameSource
  clockwork : Clockwork
  decoders : List Decoder
  pool : WorkerPool Job
  /-- timers kept alive for the runs that may still post to them -/
  targets : List (RunId × ObjectId)
  minDelay : Nanos
  fallbackRate : Binary64

namespace World

def instance? (w : World) (o : ObjectId) : Option Instance := w.heap.instance? o

def naming (w : World) : Naming where
  classOf o := ((w.instance? o).map fun i => w.classes.nameOf i.cls).getD default
  className := w.classes.nameOf
  classDepth := w.classes.depthOf
  functionName f := ((w.heap.function? f).map Function.name).getD ""

/-- Whether a value is no handle or one to something of its kind that exists. -/
def isValid (w : World) : Value → Bool
  | .classRef c => (w.classes.get? c).isSome
  | v => w.heap.isValid v

def textOf (w : World) (v : Value) : String := v.toText w.naming

def snapshot (w : World) (v : Value) : Snapshot := v.snapshot w.naming

def handleCount (w : World) (v : Value) : Nat := (v.cell?.map w.heap.count).getD 0

def isAlive (w : World) (o : ObjectId) : Bool := (w.instance? o).isSome

def targetHandles (targets : List (RunId × ObjectId)) : List Value :=
  targets.map fun e => .object e.2

/-- The handles that no cell owns. -/
def roots (w : World) : List Value :=
  w.classes.handles ++ w.globals.values ++ w.frames.flatMap Frame.held ++ targetHandles w.targets

/-! Frames -/

def pushFrame (w : World) (purpose : Purpose) : World :=
  { w with frames := ⟨purpose, []⟩ :: w.frames }

def hold (w : World) (v : Value) : World :=
  match w.frames with
  | [] => w
  | f :: rest =>
    { w with heap := w.heap.retain v, frames := { f with held := v :: f.held } :: rest }

def letGo (w : World) (v : Value) : World :=
  match w.frames with
  | [] => w
  | f :: rest =>
    if f.held.contains v then
      { w with
        heap := w.heap.releaseAll [v], frames := { f with held := f.held.erase v } :: rest }
    else w

/-- Close the innermost frame. The frame below takes its own handles to what is kept. -/
def popFrame (w : World) (keep : List Value) : World :=
  match w.frames with
  | f :: below :: rest =>
    { w with
      heap := (w.heap.retainAll keep).releaseAll f.held
      frames := { below with held := keep ++ below.held } :: rest }
  | [f] => { w with heap := w.heap.releaseAll f.held, frames := [] }
  | [] => w

/-! The outermost frame is the embedder's: a row of places for values. -/

def withPlaces (w : World) (n : Nat) : World :=
  { w with frames := [⟨.embedder, List.replicate n .undefined⟩] }

def place (w : World) (i : Nat) : Value :=
  ((w.frames.getLast?).bind fun f => f.held[i]?).getD .undefined

def assign (w : World) (i : Nat) (v : Value) : World :=
  match w.frames.getLast? with
  | none => w
  | some f =>
    match f.held[i]? with
    | none => w
    | some old =>
      { w with
        heap := (w.heap.retain v).releaseAll [old]
        frames := w.frames.dropLast ++ [{ f with held := f.held.set i v }] }

/-! Cells -/

def newInstance (w : World) (i : Instance) : ObjectId × World :=
  match w.frames with
  | [] => (w.heap.cells.length, w)
  | f :: rest =>
    let (id, heap) := (w.heap.retainAll i.handles).allocate (.instanceOf i)
    (id, { w with heap := heap, frames := { f with held := .object id :: f.held } :: rest })

def newFunction (w : World) (function : Function) : FunctionId × World :=
  match w.frames with
  | [] => (w.heap.cells.length, w)
  | f :: rest =>
    let (id, heap) := (w.heap.retainAll function.captured).allocate (.functionOf function)
    (id, { w with heap := heap, frames := { f with held := .function id :: f.held } :: rest })

def putInstance (w : World) (o : ObjectId) (i : Instance) : World :=
  match w.instance? o with
  | none => w
  | some old =>
    { w with
      heap := ((w.heap.retainAll i.handles).setContent o (.instanceOf i)).releaseAll old.handles }

def putGlobals (w : World) (globals : PropertyMap) : World :=
  { w with
    globals := globals
    heap := (w.heap.retainAll globals.values).releaseAll w.globals.values }

def putTargets (w : World) (targets : List (RunId × ObjectId)) : World :=
  { w with
    targets := targets
    heap := (w.heap.retainAll (targetHandles targets)).releaseAll (targetHandles w.targets) }

def defineGlobal (w : World) (name : QName) (v : Value) : World :=
  w.putGlobals (w.globals.insert name v).2

/-- Register a class and make it a global under its name. -/
def registerClass (w : World) (d : ClassDecl) : Except Fatal (ClassId × World) :=
  (w.classes.register d).map fun (c, classes) =>
    (c, { w with
      classes := classes
      heap := w.heap.retainAll (w.classes.describe d).handles }.defineGlobal d.name (.classRef c))

/-! Screens and sources -/

def screen (w : World) (s : ScreenId) : Screen := (w.screens[s]?).getD .initial

def setScreen (w : World) (s : ScreenId) (screen : Screen) : World :=
  { w with screens := w.screens.set s screen }

def source? (w : World) (s : SourceId) : Option FrameSource := w.sources[s]?

def newSource (w : World) (source : FrameSource) : SourceId × World :=
  (w.sources.length, { w with sources := w.sources ++ [source] })

def setSource (w : World) (s : SourceId) (source : FrameSource) : World :=
  { w with sources := w.sources.set s source }

def tick (w : World) (t : Ticker) : Bool × World :=
  match w.source? t.source with
  | none => (false, w)
  | some source =>
    let (copied, screen) := (w.screen t.screen).tick source
    (copied, w.setScreen t.screen screen)

/-- A ticker has nothing left to do once its video is gone. -/
def isTickerCancelled (w : World) (t : Ticker) : Bool := !w.isAlive t.video

/-- The storage of a new instance, with the counter or screen that it needs. -/
def newBacking (w : World) : BackingSpec → Backing × World
  | .plain => (.plain, w)
  | .bytes => (.bytes .empty, w)
  | .fixedBytes n => (.bytes (.ofLength n), w)
  | .dictionary => (.dictionary .empty, w)
  | .proxy => (.proxy false, w)
  | .word n => (.host (.word n), w)
  | .eventTarget => (.host (.eventTarget .empty none), w)
  | .timer =>
    let (counter, clockwork) := w.clockwork.newCounter
    (.host (.eventTarget .empty (some ⟨.zero false, 0, counter, none⟩)),
      { w with clockwork := clockwork })
  | .video =>
    (.host (.video (.initial w.screens.length)), { w with screens := w.screens ++ [.initial] })
  | .stream source => (.host (.stream source), w)

/-! Background workers -/

def modifyDecoder (w : World) (d : DecoderId) (f : Decoder → Decoder) : World :=
  { w with decoders := w.decoders.modify d f }

/-- The next step of a decode job. It sleeps at least a nanosecond, so that the clock gets on. -/
def stepDecoder (w : World) (d : DecoderId) : Option World := do
  let decoder ← w.decoders[d]?
  let enter (w : World) (phase : DecoderPhase) :=
    w.modifyDecoder d fun decoder => { decoder with phase := phase }
  match decoder.phase with
  | .testing =>
    some (enter w (if w.isTickerCancelled decoder.ticker then .done
      else .asleep (w.clockwork.now + max decoder.interval 1)))
  | .asleep _ => some (enter w .ticking)
  | .ticking => some (enter (w.tick decoder.ticker).2 .testing)
  | .done => none

def stepJob (w : World) : Job → Option World
  | .timer r => (w.clockwork.stepRun r).map fun clockwork => { w with clockwork := clockwork }
  | .decode d => w.stepDecoder d

def isJobDone (w : World) : Job → Bool
  | .timer r => w.clockwork.isDone r
  | .decode d =>
    match w.decoders[d]? with
    | some decoder => decoder.phase == .done
    | none => true

inductive Move
  /-- take the oldest waiting job -/
  | start (worker : WorkerId)
  /-- go one step further with its job, or return from it -/
  | step (worker : WorkerId)
deriving DecidableEq

def move (w : World) : Move → Option World
  | .start k => (w.pool.start? k).map fun (_, pool) => { w with pool := pool }
  | .step k => do
    let job ← w.pool.jobOf? k
    if w.isJobDone job then
      (w.pool.finish? k).map fun pool => { w with pool := pool }
    else w.stepJob job

def moveAll (w : World) (moves : List Move) : World :=
  moves.foldl (fun w m => (w.move m).getD w) w

end World

end ScriptPlayer
