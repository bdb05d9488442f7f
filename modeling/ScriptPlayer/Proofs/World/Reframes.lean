import ScriptPlayer.World.Basic

/-! What leaves all of a world alone but its cells and its frames: taking and giving up handles,
opening and closing frames, and whatever is made in a cell or stored there. -/
namespace ScriptPlayer.World

variable {w w' : World}

inductive Reframes (w : World) : World → Prop
  | mk (heap : Heap) (frames : List Frame) : Reframes w { w with heap := heap, frames := frames }

namespace Reframes

theorem refl (w : World) : w.Reframes w := .mk _ _

theorem trans {w'' : World} (h : w.Reframes w') (h' : w'.Reframes w'') : w.Reframes w'' := by
  cases h
  cases h'
  exact .mk _ _

theorem classes (h : w.Reframes w') : w'.classes = w.classes := by cases h; rfl

theorem globals (h : w.Reframes w') : w'.globals = w.globals := by cases h; rfl

theorem clockwork (h : w.Reframes w') : w'.clockwork = w.clockwork := by cases h; rfl

theorem targets (h : w.Reframes w') : w'.targets = w.targets := by cases h; rfl

theorem minDelay (h : w.Reframes w') : w'.minDelay = w.minDelay := by cases h; rfl

end Reframes

theorem reframes_hold (w : World) (v : Value) : w.Reframes (w.hold v) := by
  unfold hold
  cases w.frames <;> exact .mk _ _

theorem reframes_letGo (w : World) (v : Value) : w.Reframes (w.letGo v) := by
  unfold letGo
  cases w.frames with
  | nil => exact .mk _ _
  | cons f rest =>
    dsimp only
    split <;> exact .mk _ _

theorem reframes_pushFrame (w : World) (p : Purpose) : w.Reframes (w.pushFrame p) := .mk _ _

theorem reframes_popFrame (w : World) (keep : List Value) : w.Reframes (w.popFrame keep) := by
  unfold popFrame
  split <;> exact .mk _ _

theorem reframes_assign (w : World) (place : Nat) (v : Value) :
    w.Reframes (w.assign place v) := by
  unfold assign
  cases w.frames.getLast? with
  | none => exact .mk _ _
  | some f =>
    dsimp only
    cases f.held[place]? <;> exact .mk _ _

theorem reframes_newInstance (w : World) (i : Instance) : w.Reframes (w.newInstance i).2 := by
  unfold newInstance
  cases w.frames <;> exact .mk _ _

theorem reframes_newFunction (w : World) (f : Function) : w.Reframes (w.newFunction f).2 := by
  unfold newFunction
  cases w.frames <;> exact .mk _ _

theorem reframes_putInstance (w : World) (o : ObjectId) (i : Instance) :
    w.Reframes (w.putInstance o i) := by
  unfold putInstance
  cases w.instance? o <;> exact .mk _ _

end ScriptPlayer.World
