import ScriptPlayer.Player.Basic

/-! The end of a player. It keeps no timer any longer and discards what is queued, which lets
blocked workers go on; they may post once more before the queue itself is gone. -/
namespace ScriptPlayer.World

def shutDown (w : World) : World :=
  let w := w.putTargets []
  { w with clockwork := { w.clockwork with queue := w.clockwork.queue.clear.2 } }

/-- The queue goes away, with what was posted to it meanwhile. -/
def closeQueue (w : World) : World :=
  { w with clockwork := { w.clockwork with queue := w.clockwork.queue.close } }

end ScriptPlayer.World
