import Mathlib.Data.List.Induction
import Mathlib.Logic.Relation
import ScriptPlayer.Proofs.Pool.Schedule

/-! One of the orders in which workers can move: the first idle worker takes a job and brings it to
its end before anyone else moves. -/
namespace ScriptPlayer

namespace WorkerPool

open Relation (ReflTransGen)

section Turns

variable {p p' : WorkerPool Numbered} {number : Nat}

theorem runOne_eq_some (h : p.runOne = some (number, p')) :
    ∃ w outcome q, p.start? w = some ((number, outcome), q) ∧
      (outcome = .returns ∧ q.finish? w = some p' ∨ outcome = .crashes ∧ q.die? w = some p') := by
  obtain ⟨w, -, h⟩ := Option.bind_eq_some_iff.1 h
  obtain ⟨⟨⟨number', outcome⟩, q⟩, hstart, h⟩ := Option.bind_eq_some_iff.1 h
  cases outcome with
  | returns =>
    obtain ⟨p'', hend, h⟩ := Option.bind_eq_some_iff.1 h
    obtain ⟨rfl, rfl⟩ := Prod.mk.inj (Option.some.inj h)
    exact ⟨w, .returns, q, hstart, .inl ⟨rfl, hend⟩⟩
  | crashes =>
    obtain ⟨p'', hend, h⟩ := Option.bind_eq_some_iff.1 h
    obtain ⟨rfl, rfl⟩ := Prod.mk.inj (Option.some.inj h)
    exact ⟨w, .crashes, q, hstart, .inr ⟨rfl, hend⟩⟩

theorem isSpent_of_runOne (hopen : p.stopping = false) (h : p.runOne = none) : p.IsSpent := by
  by_contra hne
  obtain ⟨hwait, hidle⟩ := not_or.1 hne
  obtain ⟨⟨number, outcome⟩, rest, hwait⟩ := List.exists_cons_of_ne_nil hwait
  cases hfind : p.workers.findIdx? isIdle with
  | none => exact absurd (List.findIdx?_eq_none_iff.1 hfind _ (not_not.1 hidle)) (by decide)
  | some w =>
    obtain ⟨hw, hget, -⟩ := List.findIdx?_eq_some_iff_getElem.1 hfind
    have hworker : p.workers[w] = .idle := by
      cases hworker : p.workers[w] <;> rw [hworker] at hget <;> first | rfl | cases hget
    cases outcome <;>
      simp [runOne, hfind, start?, steal?, run?, finish?, die?, jobOf?, hw, hworker, hwait,
        hopen] at h

end Turns

namespace Shift

variable {s : Shift} {p : WorkerPool Numbered} {number : Nat}

theorem exists_of_runOne (hr : s.pool.IsResting) (h : s.pool.runOne = some (number, p)) :
    ∃ outcome, s.pool.waiting = (number, outcome) :: p.waiting ∧ p.IsResting ∧
      p.stopping = false ∧
      ReflTransGen Works s { s with pool := p, started := s.started ++ [(number, outcome)] } := by
  obtain ⟨w, outcome, q, hstart, hend⟩ := runOne_eq_some h
  obtain ⟨hopen, q', rest, hsteal, hrunning, hidle, hwait, hq⟩ := start?_eq_some hstart
  have hj : q.jobOf? w = some (number, outcome) := by
    have hlt := (List.getElem?_eq_some_iff.1 hidle).1
    exact jobOf?_eq_some_iff.2 (by simp [hq, hlt])
  have hrun : ReflTransGen Works s
      { s with pool := q, started := s.started ++ [(number, outcome)] } :=
    .tail (.single (.steal hsteal)) (.run hrunning)
  have hset (worker : Worker Numbered) :
      q.workers.set w worker = s.pool.workers.set w worker := by
    rw [hq, List.set_set]
  obtain ⟨rfl, hend⟩ | ⟨rfl, hend⟩ := hend
  · have hp := finish?_eq_some hj hend
    refine ⟨.returns, ?_, hr.set (.inl rfl) (by rw [hp, hset]), ?_, hrun.tail (.finish hj hend)⟩
    · rw [hp, hwait, hq]
    · rw [hp, hq, hopen]
  · have hp := die?_eq_some hj hend
    refine ⟨.crashes, ?_, hr.set (.inr (.inl rfl)) (by rw [hp, hset]), ?_,
      hrun.tail (.die hj hend)⟩
    · rw [hp, hwait, hq]
    · rw [hp, hq, hopen]

theorem exists_of_runAll (fuel : Nat) (hr : s.pool.IsResting) (hopen : s.pool.stopping = false)
    (hfuel : s.pool.waiting.length ≤ fuel) :
    ∃ s', ReflTransGen Works s s' ∧ s'.Settled ∧ s'.pool.stopping = false ∧ s'.jobs = s.jobs ∧
      s'.pool = (s.pool.runAll fuel).2 ∧
      s'.started.map Prod.fst = s.started.map Prod.fst ++ (s.pool.runAll fuel).1 := by
  induction fuel generalizing s with
  | zero =>
    have hsp : s.pool.IsSpent := .inl (List.length_eq_zero_iff.1 (Nat.le_zero.1 hfuel))
    exact ⟨s, .refl, settled_of_rest hr hsp hopen, hopen, rfl, rfl, (List.append_nil _).symm⟩
  | succ fuel ih =>
    unfold runAll
    cases h : s.pool.runOne with
    | none =>
      have hsp := isSpent_of_runOne hopen h
      exact ⟨s, .refl, settled_of_rest hr hsp hopen, hopen, rfl, rfl, (List.append_nil _).symm⟩
    | some turn =>
      obtain ⟨number, p⟩ := turn
      obtain ⟨outcome, hwait, hr', hopen', hrun⟩ := exists_of_runOne hr h
      rw [hwait, List.length_cons] at hfuel
      obtain ⟨s', hrun', hset, hs', hjobs, hpool, hstarted⟩ :=
        ih (s := { s with pool := p, started := s.started ++ [(number, outcome)] }) hr' hopen'
          (Nat.le_of_succ_le_succ hfuel)
      refine ⟨s', hrun.trans hrun', hset, hs', hjobs, hpool, ?_⟩
      simpa using hstarted

theorem Reachable.works {threads : Nat} {s s' : Shift} (h : s.Reachable threads)
    (hrun : ReflTransGen Works s s') : s'.Reachable threads := by
  induction hrun with
  | refl => exact h
  | tail _ hw ih => exact ih.work hw

theorem reachable_ofJobs (threads : Nat) (jobs : List JobEnd) :
    Reachable threads ⟨ofJobs threads jobs, jobs, []⟩ ∧ (ofJobs threads jobs).IsResting ∧
      (ofJobs threads jobs).stopping = false ∧
      (ofJobs threads jobs).waiting.length = jobs.length := by
  induction jobs using List.reverseRecOn with
  | nil =>
    refine ⟨.opened, fun worker hmem => .inl ?_, rfl, rfl⟩
    exact List.eq_of_mem_replicate hmem
  | append_singleton jobs outcome ih =>
    obtain ⟨hreach, hr, hopen, hlen⟩ := ih
    have heq : ofJobs threads (jobs ++ [outcome]) =
        (ofJobs threads jobs).submit (jobs.length, outcome) := by
      simp [ofJobs, List.zipIdx_append]
    rw [heq]
    exact ⟨hreach.submit hopen outcome, hr, hopen, by simp [submit, hlen]⟩

/-- What running all jobs gives is what some order of the workers' moves gives. -/
theorem exists_settled_ofJobs (threads : Nat) (jobs : List JobEnd) :
    ∃ s : Shift, s.Reachable threads ∧ s.Settled ∧ s.pool.stopping = false ∧ s.jobs = jobs ∧
      s.pool = ((ofJobs threads jobs).runAll (jobs.length + 1)).2 ∧
      s.started.map Prod.fst = ((ofJobs threads jobs).runAll (jobs.length + 1)).1 := by
  obtain ⟨hreach, hr, hopen, hlen⟩ := reachable_ofJobs threads jobs
  obtain ⟨s, hrun, hset, hopen', hjobs, hpool, hstarted⟩ :=
    exists_of_runAll (s := ⟨ofJobs threads jobs, jobs, []⟩) (jobs.length + 1) hr hopen
      (hlen ▸ Nat.le_succ _)
  exact ⟨s, hreach.works hrun, hset, hopen', hjobs, hpool, hstarted⟩

end Shift

end WorkerPool

end ScriptPlayer
