import ScriptPlayer.Fault
import ScriptPlayer.Number.Duration

/-! The handoff of video frames. The decode side copies the stream's picture into an intermediate
buffer, the render side copies that into one of two presentation buffers in turn. The first render
that sees a picture size locks it. -/
namespace ScriptPlayer

abbrev SourceId := Nat
abbrev ScreenId := Nat

/-- A decoded stream: its size, zero while unknown, its rate, and byte `i` of its picture. -/
structure FrameSource where
  width : UInt32
  height : UInt32
  rate : Binary64
  pixel : Nat → UInt8

def FrameSource.picture (s : FrameSource) (n : Nat) : List UInt8 := (List.range n).map s.pixel

/-- What decode and render side share: the intermediate buffer, empty until the size is locked, and
the display size. -/
structure Screen where
  pixels : List UInt8
  width : Int32
  height : Int32
deriving DecidableEq

namespace Screen

def initial : Screen := ⟨[], 320, 240⟩

/-- A decode tick: copy the picture, unless no size is locked yet. Tells whether it copied. -/
def tick (screen : Screen) (source : FrameSource) : Bool × Screen :=
  if screen.pixels.isEmpty then (false, screen)
  else (true, { screen with pixels := source.picture screen.pixels.length })

end Screen

structure VideoState where
  screen : ScreenId
  stream : Option SourceId
  width : UInt32
  height : UInt32
  buffers : List UInt8 × List UInt8
  /-- whether the second buffer is in front -/
  current : Bool
  frameReady : Bool
  /-- frame rate for streams that report none -/
  fallbackRate : Binary64
deriving DecidableEq

inductive RenderOutcome
  | notReady
  /-- the size was just locked; decode ticks are due at this interval -/
  | started (interval : Nanos)
  | presented
deriving DecidableEq

namespace VideoState

def defaultRate : Binary64 := .ofNat 24

def initial (screen : ScreenId) : VideoState :=
  ⟨screen, none, 0, 0, ([], []), false, false, defaultRate⟩

def front (v : VideoState) : List UInt8 := if v.current then v.buffers.2 else v.buffers.1

/-- Copy the intermediate buffer into the buffer that is not in front and bring it there. -/
def present (v : VideoState) (screen : Screen) : Except Fatal VideoState :=
  let target := if v.current then v.buffers.1 else v.buffers.2
  if target.length = screen.pixels.length then
    .ok { v with
      buffers := if v.current then (screen.pixels, v.buffers.2) else (v.buffers.1, screen.pixels)
      current := !v.current
      frameReady := true }
  else .error .sliceRange

/-- A stream's rate if it is finite and positive, the fallback otherwise. -/
def frameRate (v : VideoState) (source : FrameSource) : Binary64 :=
  if source.rate.isFinite && (Binary64.zero false).lt source.rate then source.rate
  else v.fallbackRate

def interval? (v : VideoState) (source : FrameSource) : Option Nanos :=
  Nanos.ofSeconds? (.div (.ofNat 1) (v.frameRate source))

/-- Take over the stream's size while either side is unknown; afterwards it must not change. -/
def lockSize (v : VideoState) (source : FrameSource) : Except Fatal VideoState :=
  if v.width = 0 ∨ v.height = 0 then .ok { v with width := source.width, height := source.height }
  else if v.width ≠ source.width ∨ v.height ≠ source.height then
    .error (.frameSizeChanged v.width.toNat v.height.toNat source.width.toNat source.height.toNat)
  else .ok v

/-- The bytes of a picture, four for each pixel. They are counted in a machine word. -/
def frameLength (v : VideoState) : Except Fatal Nat :=
  let length := v.width.toNat * v.height.toNat * 4
  if length < UInt64.size then .ok length else .error .multiplyOverflow

end VideoState

/-- No buffer is longer than a signed machine word can tell. -/
def maxBufferLength : Nat := UInt64.size / 2 - 1

def zeroed (length : Nat) : Except Fatal (List UInt8) :=
  if length ≤ maxBufferLength then .ok (List.replicate length 0) else .error .capacityOverflow

/-- A render works on the state of a video and on its screen. An abort leaves them as they are by
then. -/
abbrev RenderPass := EStateM Fatal (VideoState × Screen)

namespace RenderPass

def changeVideo (f : VideoState → Screen → Except Fatal VideoState) : RenderPass Unit :=
  fun (v, screen) =>
    match f v screen with
    | .ok v => .ok () (v, screen)
    | .error e => .error e (v, screen)

def start (source : FrameSource) (length : Nat) : RenderPass Nanos := do
  let cleared ← ofExcept (zeroed length)
  modify fun (v, screen) =>
    ({ v with buffers := (cleared, cleared) }, { screen with pixels := source.picture length })
  let (v, _) ← get
  match v.interval? source with
  | none => throw .durationRange
  | some interval => return interval

def finish (outcome : RenderOutcome) : RenderPass RenderOutcome := do
  changeVideo VideoState.present
  return outcome

def frame (source : Option FrameSource) : RenderPass RenderOutcome := do
  let some source := source | return .notReady
  changeVideo fun v _ => v.lockSize source
  let (v, _) ← get
  if v.width = 0 ∨ v.height = 0 then return .notReady
  let length ← ofExcept v.frameLength
  if v.frameReady then finish .presented
  else finish (.started (← start source length))

end RenderPass

def VideoState.render (v : VideoState) (screen : Screen) (source : Option FrameSource) :
    EStateM.Result Fatal (VideoState × Screen) RenderOutcome :=
  RenderPass.frame source (v, screen)

/-- The decode side of a video: the source it copies from and where to. It stops when the video
object is gone. -/
structure Ticker where
  source : SourceId
  screen : ScreenId
  video : Nat
deriving DecidableEq

def VideoState.ticker? (v : VideoState) (video : Nat) : Option Ticker :=
  v.stream.map fun source => ⟨source, v.screen, video⟩

end ScriptPlayer
