/-! A fixed set of workers that take jobs from one queue, oldest first. A job that crashes kills its
worker. The steps say what one worker can do next; any of them may move at any time. -/
namespace ScriptPlayer

inductive Worker (α : Type)
  | idle
  /-- has taken a job and not begun it -/
  | holding (job : α)
  | busy (job : α)
  | dead
  | stopped
deriving DecidableEq

abbrev WorkerId := Nat

structure WorkerPool (α : Type) where
  workers : List (Worker α)
  waiting : List α
  /-- jobs begun and not returned; a crashed one stays counted -/
  active : Nat
  stopping : Bool

namespace WorkerPool

variable {α : Type}

def ofThreads (n : Nat) : WorkerPool α := ⟨List.replicate (max n 1) .idle, [], 0, false⟩

def threads (p : WorkerPool α) : Nat := p.workers.length

def submit (p : WorkerPool α) (job : α) : WorkerPool α := { p with waiting := p.waiting ++ [job] }

def jobOf? (p : WorkerPool α) (w : WorkerId) : Option α :=
  match p.workers[w]? with
  | some (.busy job) => some job
  | _ => none

/-- An idle worker takes the oldest waiting job. It looks whether the pool is stopping before that,
so it may still take one just after the pool is told to stop. -/
def steal? (p : WorkerPool α) (w : WorkerId) : Option (α × WorkerPool α) :=
  match p.workers[w]?, p.waiting with
  | some .idle, job :: rest =>
    some (job, { p with workers := p.workers.set w (.holding job), waiting := rest })
  | _, _ => none

def run? (p : WorkerPool α) (w : WorkerId) : Option (WorkerPool α) :=
  match p.workers[w]? with
  | some (.holding job) =>
    some { p with workers := p.workers.set w (.busy job), active := p.active + 1 }
  | _ => none

/-- An idle worker sees that the pool goes on, takes the oldest waiting job and begins it. -/
def start? (p : WorkerPool α) (w : WorkerId) : Option (α × WorkerPool α) :=
  if p.stopping then none
  else do
    let (job, p) ← p.steal? w
    let p ← p.run? w
    return (job, p)

def finish? (p : WorkerPool α) (w : WorkerId) : Option (WorkerPool α) :=
  (p.jobOf? w).map fun _ => { p with workers := p.workers.set w .idle, active := p.active - 1 }

def die? (p : WorkerPool α) (w : WorkerId) : Option (WorkerPool α) :=
  (p.jobOf? w).map fun _ => { p with workers := p.workers.set w .dead }

def exit? (p : WorkerPool α) (w : WorkerId) : Option (WorkerPool α) :=
  match p.workers[w]?, p.stopping with
  | some .idle, true => some { p with workers := p.workers.set w .stopped }
  | _, _ => none

def stop (p : WorkerPool α) : WorkerPool α := { p with stopping := true }

def isDead : Worker α → Bool
  | .dead => true
  | _ => false

def crashed (p : WorkerPool α) : Nat := p.workers.countP isDead

end WorkerPool

inductive JobEnd
  | returns
  | crashes
deriving DecidableEq

namespace WorkerPool

abbrev Numbered := Nat × JobEnd

def isIdle : Worker Numbered → Bool
  | .idle => true
  | _ => false

def runOne (p : WorkerPool Numbered) : Option (Nat × WorkerPool Numbered) := do
  let w ← p.workers.findIdx? isIdle
  let ((number, outcome), p) ← p.start? w
  let p ← match outcome with
    | .returns => p.finish? w
    | .crashes => p.die? w
  return (number, p)

/-- Run until no job waits or no worker is left; gives the numbers of the jobs that started. -/
def runAll : Nat → WorkerPool Numbered → List Nat × WorkerPool Numbered
  | 0, p => ([], p)
  | fuel + 1, p =>
    match runOne p with
    | none => ([], p)
    | some (number, p) =>
      let (started, p) := runAll fuel p
      (number :: started, p)

def ofJobs (threads : Nat) (jobs : List JobEnd) : WorkerPool Numbered :=
  jobs.zipIdx.foldl (fun p (outcome, number) => p.submit (number, outcome)) (ofThreads threads)

end WorkerPool

end ScriptPlayer
