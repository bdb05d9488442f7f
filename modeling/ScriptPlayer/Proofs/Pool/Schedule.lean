import Mathlib.Data.List.Nodup
import ScriptPlayer.Event.WorkerPool

/-! The workers of a pool in any order. What one worker can do is inverted once; a count over the
workers then ties what was started to who is dead, who is bound to die and what is still active. -/
namespace ScriptPlayer

theorem countP_set_add {α : Type} {l : List α} {i : Nat} {a : α} (h : l[i]? = some a) (b : α)
    (q : α → Bool) :
    (l.set i b).countP q + (if q a then 1 else 0) = l.countP q + (if q b then 1 else 0) := by
  obtain ⟨hi, rfl⟩ := List.getElem?_eq_some_iff.1 h
  rw [List.countP_set hi]
  split
  · have hpos : 0 < l.countP q := List.countP_pos_iff.2 ⟨l[i], l.getElem_mem hi, ‹_›⟩
    omega
  · omega

namespace WorkerPool

section Moves

variable {α : Type} {p p' : WorkerPool α} {w : WorkerId} {job : α}

theorem steal?_eq_some (h : p.steal? w = some (job, p')) :
    ∃ rest, p.workers[w]? = some .idle ∧ p.waiting = job :: rest ∧
      p' = { p with workers := p.workers.set w (.holding job), waiting := rest } := by
  unfold steal? at h
  split at h
  · obtain ⟨rfl, rfl⟩ := Prod.mk.inj (Option.some.inj h)
    exact ⟨_, ‹_›, ‹_›, rfl⟩
  · cases h

theorem run?_eq_some (h : p.run? w = some p') :
    ∃ job, p.workers[w]? = some (.holding job) ∧
      p' = { p with workers := p.workers.set w (.busy job), active := p.active + 1 } := by
  unfold run? at h
  split at h
  · exact ⟨_, ‹_›, (Option.some.inj h).symm⟩
  · cases h

theorem jobOf?_eq_some_iff : p.jobOf? w = some job ↔ p.workers[w]? = some (.busy job) := by
  unfold jobOf?
  split <;> simp_all

theorem finish?_eq_some (hj : p.jobOf? w = some job) (h : p.finish? w = some p') :
    p' = { p with workers := p.workers.set w .idle, active := p.active - 1 } := by
  unfold finish? at h
  rw [hj] at h
  exact (Option.some.inj h).symm

theorem die?_eq_some (hj : p.jobOf? w = some job) (h : p.die? w = some p') :
    p' = { p with workers := p.workers.set w .dead } := by
  unfold die? at h
  rw [hj] at h
  exact (Option.some.inj h).symm

theorem exit?_eq_some (h : p.exit? w = some p') :
    p.workers[w]? = some .idle ∧ p.stopping = true ∧
      p' = { p with workers := p.workers.set w .stopped } := by
  unfold exit? at h
  split at h
  · exact ⟨‹_›, ‹_›, (Option.some.inj h).symm⟩
  · cases h

theorem start?_eq_some (h : p.start? w = some (job, p')) :
    p.stopping = false ∧ ∃ q rest, p.steal? w = some (job, q) ∧ q.run? w = some p' ∧
      p.workers[w]? = some .idle ∧ p.waiting = job :: rest ∧ p' = { p with
        workers := p.workers.set w (.busy job), waiting := rest, active := p.active + 1 } := by
  unfold start? at h
  split at h
  · cases h
  · obtain ⟨⟨job', q⟩, hsteal, h⟩ := Option.bind_eq_some_iff.1 h
    obtain ⟨p'', hrunning, h⟩ := Option.bind_eq_some_iff.1 h
    obtain ⟨rfl, rfl⟩ := Prod.mk.inj (Option.some.inj h)
    refine ⟨Bool.eq_false_iff.2 ‹_›, q, ?_⟩
    obtain ⟨rest, hw, hwait, rfl⟩ := steal?_eq_some hsteal
    obtain ⟨held, hheld, rfl⟩ := run?_eq_some hrunning
    have hlt := (List.getElem?_eq_some_iff.1 hw).1
    obtain rfl : job' = held := by simpa [hlt] using hheld
    exact ⟨rest, hsteal, hrunning, hw, hwait, by rw [List.set_set]⟩

end Moves

def crashes (job : Numbered) : Bool := job.2 == .crashes

def numbered (jobs : List JobEnd) : List Numbered := jobs.zipIdx.map Prod.swap

theorem numbered_append_singleton (jobs : List JobEnd) (outcome : JobEnd) :
    numbered (jobs ++ [outcome]) = numbered jobs ++ [(jobs.length, outcome)] := by
  simp [numbered, List.zipIdx_append]

theorem map_fst_numbered (jobs : List JobEnd) :
    (numbered jobs).map Prod.fst = List.range jobs.length := by
  rw [numbered, List.map_map, List.range_eq_range']
  exact List.zipIdx_map_snd 0 jobs

theorem nodup_numbered (jobs : List JobEnd) : (numbered jobs).Nodup := by
  refine List.Nodup.of_map Prod.fst ?_
  rw [map_fst_numbered]
  exact List.nodup_range

/-- A worker whose job has begun and will not have returned unless it still does. -/
def isCounted : Worker Numbered → Bool
  | .busy _ | .dead => true
  | _ => false

/-- A worker that is dead or has the job that will kill it. -/
def isDoomed : Worker Numbered → Bool
  | .holding job | .busy job => crashes job
  | .dead => true
  | _ => false

def Worker.Rests (worker : Worker Numbered) : Prop :=
  worker = .idle ∨ worker = .dead ∨ worker = .stopped

def IsResting (p : WorkerPool Numbered) : Prop := ∀ worker ∈ p.workers, Worker.Rests worker

def IsSpent (p : WorkerPool Numbered) : Prop := p.waiting = [] ∨ .idle ∉ p.workers

theorem IsResting.set {p p' : WorkerPool Numbered} {w : WorkerId} {worker : Worker Numbered}
    (hr : p.IsResting) (hw : Worker.Rests worker) (h : p'.workers = p.workers.set w worker) :
    p'.IsResting := by
  intro other hmem
  rw [h] at hmem
  obtain hmem | rfl := List.mem_or_eq_of_mem_set hmem
  · exact hr other hmem
  · exact hw

/-- A pool, with the jobs submitted to it and those that its workers started, each in order. In a
shift a job is started when it is taken from the queue; the worker that took it begins it in a move
of its own. -/
structure Shift where
  pool : WorkerPool Numbered
  jobs : List JobEnd
  started : List Numbered

inductive Works (s : Shift) : Shift → Prop
  | steal {w : WorkerId} {job : Numbered} {p : WorkerPool Numbered}
      (h : s.pool.steal? w = some (job, p)) :
      Works s { s with pool := p, started := s.started ++ [job] }
  | run {w : WorkerId} {p : WorkerPool Numbered} (h : s.pool.run? w = some p) :
      Works s { s with pool := p }
  | finish {w : WorkerId} {number : Nat} {p : WorkerPool Numbered}
      (hj : s.pool.jobOf? w = some (number, .returns)) (h : s.pool.finish? w = some p) :
      Works s { s with pool := p }
  | die {w : WorkerId} {number : Nat} {p : WorkerPool Numbered}
      (hj : s.pool.jobOf? w = some (number, .crashes)) (h : s.pool.die? w = some p) :
      Works s { s with pool := p }
  | exit {w : WorkerId} {p : WorkerPool Numbered} (h : s.pool.exit? w = some p) :
      Works s { s with pool := p }

/-- Where nobody has a job and nobody will take one, a worker can only go home. -/
theorem Works.exits {s s' : Shift} (h : Works s s') (hr : s.pool.IsResting)
    (hsp : s.pool.IsSpent) :
    ∃ w p, s.pool.exit? w = some p ∧ s' = { s with pool := p } := by
  have hrests {w : WorkerId} {worker : Worker Numbered} (hw : s.pool.workers[w]? = some worker) :
      Worker.Rests worker := hr worker (List.mem_of_getElem? hw)
  cases h with
  | steal h =>
    obtain ⟨rest, hw, hwait, -⟩ := steal?_eq_some h
    obtain hnil | hidle := hsp
    · rw [hnil] at hwait
      cases hwait
    · exact absurd (List.mem_of_getElem? hw) hidle
  | run h =>
    obtain ⟨job, hw, -⟩ := run?_eq_some h
    obtain h | h | h := hrests hw <;> cases h
  | finish hj _ => obtain h | h | h := hrests (jobOf?_eq_some_iff.1 hj) <;> cases h
  | die hj _ => obtain h | h | h := hrests (jobOf?_eq_some_iff.1 hj) <;> cases h
  | exit h => exact ⟨_, _, h, rfl⟩

theorem Works.goes_home {s s' : Shift} (h : Works s s') (hr : s.pool.IsResting)
    (hsp : s.pool.IsSpent) :
    s'.pool.IsResting ∧ s'.pool.IsSpent ∧ s'.started = s.started := by
  obtain ⟨w, p, hexit, rfl⟩ := h.exits hr hsp
  obtain ⟨-, -, rfl⟩ := exit?_eq_some hexit
  refine ⟨hr.set (.inr (.inr rfl)) rfl, hsp.imp id fun hidle hmem => ?_, rfl⟩
  exact hidle ((List.mem_or_eq_of_mem_set hmem).resolve_right nofun)

namespace Shift

/-- The embedder submits jobs until it stops the pool; workers move at any time. -/
inductive Reachable (threads : Nat) : Shift → Prop
  | opened : Reachable threads ⟨.ofThreads threads, [], []⟩
  | submit {s : Shift} (h : Reachable threads s) (hopen : s.pool.stopping = false)
      (outcome : JobEnd) : Reachable threads { s with
        pool := s.pool.submit (s.jobs.length, outcome), jobs := s.jobs ++ [outcome] }
  | work {s s' : Shift} (h : Reachable threads s) (hw : Works s s') : Reachable threads s'
  | stop {s : Shift} (h : Reachable threads s) :
      Reachable threads { s with pool := s.pool.stop }

def Settled (s : Shift) : Prop := ∀ s', ¬ Works s s'

theorem settled_of_rest {s : Shift} (hr : s.pool.IsResting) (hsp : s.pool.IsSpent)
    (hopen : s.pool.stopping = false) : s.Settled := by
  intro s' hw
  obtain ⟨w, p, hexit, -⟩ := hw.exits hr hsp
  obtain ⟨-, hstop, -⟩ := exit?_eq_some hexit
  rw [hopen] at hstop
  cases hstop

/-- What is true of a pool of `staff` workers at every moment. -/
structure Balanced (staff : Nat) (s : Shift) : Prop where
  staffed : s.pool.workers.length = staff
  queued : s.started ++ s.pool.waiting = numbered s.jobs
  counted : s.pool.active = s.pool.workers.countP isCounted
  doomed : s.started.countP crashes = s.pool.workers.countP isDoomed
  /-- whoever took the last job was not doomed before -/
  manned : s.started.dropLast.countP crashes < staff
  home : .stopped ∈ s.pool.workers → s.pool.stopping = true

variable {staff threads : Nat} {s s' : Shift}

theorem Balanced.steal {w : WorkerId} {job : Numbered} {p : WorkerPool Numbered}
    (hs : s.Balanced staff) (h : s.pool.steal? w = some (job, p)) :
    Balanced staff { s with pool := p, started := s.started ++ [job] } := by
  obtain ⟨rest, hidle, hwait, rfl⟩ := steal?_eq_some h
  have hcount := countP_set_add hidle (.holding job)
  obtain ⟨hw, hget⟩ := List.getElem?_eq_some_iff.1 hidle
  refine ⟨by simpa using hs.staffed, ?_, ?_, ?_, ?_, ?_⟩
  · simpa [hwait] using hs.queued
  · rw [hs.counted]
    simpa [isCounted] using (hcount isCounted).symm
  · rw [List.countP_append, hs.doomed, List.countP_singleton]
    exact (hcount isDoomed).symm
  · -- the worker itself is not among the doomed
    have hlt : s.pool.workers.countP isDoomed < s.pool.workers.length := by
      refine Nat.lt_of_le_of_ne List.countP_le_length fun heq => ?_
      have := List.countP_eq_length.1 heq _ (s.pool.workers.getElem_mem hw)
      rw [hget] at this
      cases this
    rw [List.dropLast_concat, hs.doomed]
    exact hs.staffed ▸ hlt
  · intro hmem
    refine hs.home ((List.mem_or_eq_of_mem_set hmem).resolve_right nofun)

theorem Balanced.replace {w : WorkerId} {a b : Worker Numbered} {active : Nat}
    (hs : s.Balanced staff) (ha : s.pool.workers[w]? = some a) (hdoom : isDoomed a = isDoomed b)
    (hcount : active + (if isCounted a then 1 else 0) =
      s.pool.active + (if isCounted b then 1 else 0))
    (hhome : b = .stopped → s.pool.stopping = true) :
    Balanced staff { s with pool := { s.pool with
      workers := s.pool.workers.set w b, active := active } } := by
  refine ⟨by simpa using hs.staffed, hs.queued, ?_, ?_, hs.manned, ?_⟩
  · have := countP_set_add ha b isCounted
    have := hs.counted
    dsimp only
    omega
  · have := countP_set_add ha b isDoomed
    have := hs.doomed
    rw [hdoom] at *
    dsimp only
    omega
  · intro hmem
    exact (List.mem_or_eq_of_mem_set hmem).elim hs.home fun h => hhome h.symm

theorem Balanced.works (hs : s.Balanced staff) (h : Works s s') : s'.Balanced staff := by
  cases h with
  | steal h => exact hs.steal h
  | run h =>
    obtain ⟨job, hw, rfl⟩ := run?_eq_some h
    exact hs.replace hw rfl rfl nofun
  | finish hj h =>
    obtain rfl := finish?_eq_some hj h
    have hw := jobOf?_eq_some_iff.1 hj
    have hpos : 0 < s.pool.active := by
      rw [hs.counted]
      exact List.countP_pos_iff.2 ⟨_, List.mem_of_getElem? hw, rfl⟩
    exact hs.replace hw rfl (by simp [isCounted]; omega) nofun
  | die hj h =>
    obtain rfl := die?_eq_some hj h
    exact hs.replace (jobOf?_eq_some_iff.1 hj) rfl rfl nofun
  | exit h =>
    obtain ⟨hw, hstop, rfl⟩ := exit?_eq_some h
    exact hs.replace hw rfl rfl fun _ => hstop

theorem Reachable.balanced (h : s.Reachable threads) : s.Balanced (max threads 1) := by
  induction h with
  | opened =>
    refine ⟨by simp [ofThreads], rfl, ?_, ?_, ?_, ?_⟩
    · simp [ofThreads, List.countP_replicate, isCounted]
    · simp [ofThreads, List.countP_replicate, isDoomed]
    · exact Nat.lt_of_lt_of_le Nat.zero_lt_one (Nat.le_max_right _ _)
    · simp [ofThreads, List.mem_replicate]
  | submit _ _ outcome ih =>
    refine ⟨ih.staffed, ?_, ih.counted, ih.doomed, ih.manned, ih.home⟩
    rw [numbered_append_singleton, ← ih.queued, List.append_assoc]
    rfl
  | work _ hw ih => exact ih.works hw
  | stop _ ih => exact ⟨ih.staffed, ih.queued, ih.counted, ih.doomed, ih.manned, fun _ => rfl⟩

end Shift

end WorkerPool

end ScriptPlayer
