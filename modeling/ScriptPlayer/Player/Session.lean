import ScriptPlayer.Player.Basic

/-! The embedder. What it asks for in one step is a tree like a script, in a frame of its own; what
it wants to keep it puts into its places. -/
namespace ScriptPlayer

inductive Request
  | perform (op : Op)
  /-- keep a value in a place, or give up what is there by keeping `undefined` -/
  | assign (place : Nat) (v : Value)
  | enter (body : Code)
  | newSource (source : FrameSource)
  | settle
  | pump (fuel : Nat)
  | pumpTimeout (span : Nanos) (fuel : Nat)
  | pumpUntil (deadline : Option Nanos) (done : World → Bool) (fuel : Nat)
  | waitPending (wanted fuel : Nat)
  | renderVideo (o : ObjectId)
  | renderUntil (o : ObjectId) (byte : UInt8) (fuel : Nat)

def Request.Reply : Request → Type
  | perform op => op.Reply
  | assign .. | settle => Unit
  | enter _ => CodeId
  | newSource _ => SourceId
  | pump _ | pumpTimeout .. | waitPending .. => Nat
  | pumpUntil .. | renderUntil .. => Bool
  | renderVideo _ => RenderOutcome

inductive Session
  | done
  | stop (h : Halt)
  | ask (r : Request) (next : r.Reply → Session)

namespace Run

variable (call : Caller)

def answer : (r : Request) → Run r.Reply
  | .perform op => perform call op
  | .assign place v => do
    requireValid v
    modifyWorld (·.assign place v)
  | .enter body => addCode body
  | .newSource source => updateWorld (·.newSource source)
  | .settle => settle
  | .pump fuel => pump call fuel
  | .pumpTimeout span fuel => pumpTimeout call span fuel
  | .pumpUntil deadline done fuel => pumpUntil call deadline done fuel
  | .waitPending wanted fuel => waitPending wanted fuel
  | .renderVideo o => renderVideo o
  | .renderUntil o byte fuel => renderUntil o byte fuel

def converse : Session → Run Unit
  | .done => return
  | .stop h => throw h
  | .ask r next => do
    let reply ← answer call r
    converse (next reply)

def embed (depth : Nat) (p : Session) : Run Unit :=
  framed .operation (fun _ => []) (converse (callFunction depth) p)

end Run

/-- The state that a run leaves, however it ends. -/
def State.afterRun {α : Type} (s : State) (m : Run α) : State :=
  match m s with
  | .ok _ s' => s'
  | .error _ s' => s'

/-- The states that steps of an embedder lead to. A step may also end with a fault or for want of
allowance, and then leaves open the frames of what was going on: so every moment at which a script
body can ask for something is the last one of some step. The allowance and the moves that workers
make meanwhile are given anew for each step. -/
inductive State.Reachable : State → Prop
  /-- without a player: the core classes alone -/
  | core (places : Nat) (budget : Nat) (moves : List (List World.Move)) :
      Reachable ⟨World.initial.withPlaces places, [], budget, moves⟩
  | player (o : Options) (threads places : Nat) (budget : Nat) (moves : List (List World.Move)) :
      Reachable ⟨(World.ofOptions o threads).withPlaces places, [], budget, moves⟩
  | embed {s : State} (h : Reachable s) (depth : Nat) (p : Session) (budget : Nat)
      (moves : List (List World.Move)) :
      Reachable { s.afterRun (Run.embed depth p) with budget := budget, interference := moves }

end ScriptPlayer
