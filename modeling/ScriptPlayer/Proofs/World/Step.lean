import ScriptPlayer.Proofs.Ownership.Transfer
import ScriptPlayer.Proofs.World.Update
import ScriptPlayer.World.Basic

/-! Everything that a world can do, one change at a time. Whatever operations, scripts and
background workers do to a world is a sequence of these steps, so a property that each of them
keeps holds of every run. -/
namespace ScriptPlayer

def Instance.withGuard (i : Instance) (active : Bool) : Instance :=
  { i with backing := .proxy active }

def HeldBy (fs : List Frame) (v : Value) : Prop :=
  ∃ f ∈ fs, f.purpose ≠ .embedder ∧ v ∈ f.held

def Purpose.isPlain : Purpose → Bool
  | .operation | .call _ => true
  | _ => false

namespace World

/-- Worlds that agree on everything that handles are kept in. -/
structure SameOwners (w w' : World) : Prop where
  heap : w'.heap = w.heap
  classes : w'.classes = w.classes
  core : w'.core = w.core
  runtime : w'.runtime = w.runtime
  globals : w'.globals = w.globals
  frames : w'.frames = w.frames
  targets : w'.targets = w.targets

theorem SameOwners.refl (w : World) : w.SameOwners w := ⟨rfl, rfl, rfl, rfl, rfl, rfl, rfl⟩

theorem SameOwners.trans {w₁ w₂ w₃ : World} (h : w₁.SameOwners w₂) (h' : w₂.SameOwners w₃) :
    w₁.SameOwners w₃ :=
  ⟨h'.heap.trans h.heap, h'.classes.trans h.classes, h'.core.trans h.core,
    h'.runtime.trans h.runtime, h'.globals.trans h.globals, h'.frames.trans h.frames,
    h'.targets.trans h.targets⟩

def spawn (w : World) (cls : ClassId) (spec : BackingSpec) : ObjectId × World :=
  let (storage, w) := w.newBacking spec
  w.newInstance (.fresh cls storage)

inductive Step : World → World → Prop
  | hold {w : World} {v : Value} (hv : w.isValid v) : Step w (w.hold v)
  | letGo {w : World} (v : Value) : Step w (w.letGo v)
  | push {w : World} {p : Purpose} (hp : p.isPlain) : Step w (w.pushFrame p)
  | pop {w : World} {f below : Frame} {rest : List Frame} {keep : List Value}
      (hf : w.frames = f :: below :: rest) (hp : f.purpose.isPlain)
      (hkeep : ∀ v ∈ keep, w.isValid v) : Step w (w.popFrame keep)
  /-- a call of a proxy's override begins -/
  | enter {w : World} {o : ObjectId} {i : Instance} (hi : w.instance? o = some i)
      (hb : i.backing = .proxy false) (ho : HeldBy w.frames (.object o)) :
      Step w ((w.putInstance o (i.withGuard true)).pushFrame (.override o))
  /-- a call of a proxy's override has ended -/
  | leave {w : World} {o : ObjectId} {i : Instance} {held : List Value} {rest : List Frame}
      {keep : List Value} (hf : w.frames = ⟨.override o, held⟩ :: rest)
      (hkeep : ∀ v ∈ keep, w.isValid v) (hi : (w.popFrame keep).instance? o = some i)
      (hb : i.backing = .proxy true) :
      Step w ((w.popFrame keep).putInstance o (i.withGuard false))
  | newInstance {w : World} {cls : ClassId} (spec : BackingSpec) (hc : cls < w.classes.size) :
      Step w (w.spawn cls spec).2
  | newFunction {w : World} {f : Function} (hf : ∀ v ∈ f.captured, w.isValid v) :
      Step w (w.newFunction f).2
  | update {w : World} {o : ObjectId} {i j : Instance} {new : List Value}
      (hi : w.instance? o = some i) (hj : i.Update w.classes j new)
      (hnew : ∀ v ∈ new, w.isValid v) : Step w (w.putInstance o j)
  | defineGlobal {w : World} (name : QName) {v : Value} (hv : w.isValid v) :
      Step w (w.defineGlobal name v)
  | registerClass {w w' : World} {d : ClassDecl} {c : ClassId}
      (h : w.registerClass d = .ok (c, w'))
      (hsuper : ∀ s, d.superclass = some s → s < w.classes.size)
      (hd : ∀ v ∈ (w.classes.describe d).handles, w.isValid v) : Step w w'
  | retarget {w : World} {targets : List (RunId × ObjectId)}
      (h : ∀ e ∈ targets, e ∈ w.targets ∨ w.isValid (.object e.2)) : Step w (w.putTargets targets)
  | background {w w' : World} (h : w.SameOwners w') : Step w w'
  /-- the classes that a set-up makes known to the player -/
  | staff {w : World} {core : CoreClasses} {runtime : Option PlayerClasses}
      (hcore : core.object < w.classes.size)
      (hruntime : ∀ r, runtime = some r → r.event < w.classes.size) :
      Step w { w with core := core, runtime := runtime }
  | assign {w : World} (i : Nat) {v : Value} (hv : w.isValid v) : Step w (w.assign i v)

inductive Steps : World → World → Prop
  | refl (w : World) : Steps w w
  | tail {w₁ w₂ w₃ : World} (h : Steps w₁ w₂) (h' : Step w₂ w₃) : Steps w₁ w₃

theorem Step.steps {w w' : World} (h : Step w w') : Steps w w' := .tail (.refl w) h

theorem Steps.trans {w₁ w₂ w₃ : World} (h : Steps w₁ w₂) (h' : Steps w₂ w₃) : Steps w₁ w₃ := by
  induction h' with
  | refl => exact h
  | tail _ hs ih => exact .tail ih hs

theorem Steps.invariant {P : World → Prop} (hP : ∀ w w', P w → Step w w' → P w') {w w' : World}
    (h : Steps w w') (hw : P w) : P w' := by
  induction h with
  | refl => exact hw
  | tail _ hs ih => exact hP _ _ ih hs

end World

end ScriptPlayer
