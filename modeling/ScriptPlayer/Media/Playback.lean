import ScriptPlayer.Script.Construct

/-! Video and sound objects. -/
namespace ScriptPlayer.Run

def videoOf (o : ObjectId) : Run VideoState := do
  let i ← instanceOf o
  ofFatal (i.videoState (← world).classes)

def putVideo (o : ObjectId) (video : VideoState) : Run Unit := do
  let i ← instanceOf o
  putInstance o (i.setVideoState video)

def screenOf (o : ObjectId) : Run Screen := do
  let video ← videoOf o
  return (← world).screen video.screen

def updateScreen (o : ObjectId) (f : Screen → Screen) : Run Unit := do
  let video ← videoOf o
  modifyWorld fun w => w.setScreen video.screen (f (w.screen video.screen))

def initVideo (o : ObjectId) (args : List Value) : Run Unit := do
  let video ← videoOf o
  putVideo o { video with fallbackRate := (← world).fallbackRate }
  updateScreen o fun screen =>
    { screen with
      width := (args[0]?.map Value.toInt).getD screen.width
      height := (args[1]?.map Value.toInt).getD screen.height }

def sourceOf (v : Value) : Run SourceId := do
  let w ← world
  let isStream (i : Instance) : Bool := w.runtime.any fun classes => i.cls == classes.netStream
  match v with
  | .object o =>
    match w.instance? o with
    | some i =>
      if isStream i then
        match i.backing with
        | .host (.stream source) => return source
        | _ => abort .noFrameSource
      else abort (.notNetStream (v.describe w.naming))
    | none => abort (.notNetStream (v.describe w.naming))
  | _ => abort (.notNetStream (v.describe w.naming))

def attachNetStream (o : ObjectId) (args : List Value) : Run Unit := do
  requireArgs "attachNetStream" args 1
  let source ← sourceOf (args.getD 0 .undefined)
  let video ← videoOf o
  putVideo o { video with stream := some source }

def putFrame (o : ObjectId) (video : VideoState) (screen : Screen) : Run Unit := do
  putVideo o video
  modifyWorld fun w => w.setScreen video.screen screen

def render (o : ObjectId) : Run RenderOutcome := do
  let video ← videoOf o
  let w ← world
  match video.render (w.screen video.screen) (video.stream.bind w.source?) with
  | .ok outcome (video, screen) =>
    putFrame o video screen
    return outcome
  | .error f (video, screen) =>
    putFrame o video screen
    abort f

def tickerOf (o : ObjectId) : Run (Option Ticker) := return (← videoOf o).ticker? o

/-- Set up a sound transform: full volume unless told otherwise, centred unless given a number. -/
def initSoundTransform (call : Caller) (o : ObjectId) (args : List Value) : Run Unit := do
  let volume : Value := args.getD 0 .undefined
  let pan := (args.getD 1 .undefined).toNumber
  set call o (.pub "volume") (.number (if volume.isUndefined then .ofNat 1 else volume.toNumber))
  set call o (.pub "pan") (.number (if pan.isNaN then .zero false else pan))

end ScriptPlayer.Run
