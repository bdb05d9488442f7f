/-! Events from background workers to the interpreter, first in first out. A worker that must not
run ahead posts a rendezvous and waits for the interpreter to settle it. -/
namespace ScriptPlayer

abbrev TargetId := Nat
abbrev RendezvousId := Nat

inductive Event
  | dispatch (target : TargetId) (kind : String)
  | sync (r : RendezvousId)
  /-- nothing more comes from the worker of this target -/
  | retire (target : TargetId)
deriving DecidableEq

/-- A rendezvous is settled once, by a signal or by being dropped without one. -/
inductive Rendezvous
  | waiting
  | signalled
  | dropped
deriving DecidableEq

structure EventQueue where
  pending : List Event
  isOpen : Bool
  rendezvous : List Rendezvous
deriving DecidableEq

namespace EventQueue

def empty : EventQueue := ⟨[], true, []⟩

def size (q : EventQueue) : Nat := q.pending.length

def status (q : EventQueue) (r : RendezvousId) : Option Rendezvous := q.rendezvous[r]?

def settle (q : EventQueue) (r : RendezvousId) (outcome : Rendezvous) : EventQueue :=
  { q with rendezvous := q.rendezvous.modify r fun s => if s = .waiting then outcome else s }

def signal (q : EventQueue) (r : RendezvousId) : EventQueue := q.settle r .signalled

def discard (q : EventQueue) : Event → EventQueue
  | .sync r => q.settle r .dropped
  | _ => q

def post (q : EventQueue) (e : Event) : Bool × EventQueue :=
  if q.isOpen then (true, { q with pending := q.pending ++ [e] }) else (false, q.discard e)

def postSync (q : EventQueue) : Bool × RendezvousId × EventQueue :=
  let r := q.rendezvous.length
  let posting : EventQueue := { q with rendezvous := q.rendezvous ++ [Rendezvous.waiting] }
  let (sent, q) := posting.post (.sync r)
  (sent, r, q)

def take (q : EventQueue) : Option Event × EventQueue :=
  match q.pending with
  | [] => (none, q)
  | e :: rest => (some e, { q with pending := rest })

def clear (q : EventQueue) : Nat × EventQueue :=
  (q.pending.length, q.pending.foldl discard { q with pending := [] })

/-- The consumer goes away: what is queued is discarded and later posts fail. -/
def close (q : EventQueue) : EventQueue := { q.clear.2 with isOpen := false }

def waitResult? (q : EventQueue) (r : RendezvousId) : Option Bool :=
  match q.status r with
  | some .signalled => some true
  | some .dropped => some false
  | _ => none

end EventQueue

end ScriptPlayer
