import Mathlib.Logic.Relation
import ScriptPlayer.Proofs.Pool.Greedy

/-! Where a pool gets to does not depend on the order in which its workers move: which jobs have
started once nothing can move, how many stay active, and what stopping the pool counts. -/
namespace ScriptPlayer

namespace WorkerPool

open Relation (ReflTransGen)

def isHolding : Worker Numbered → Bool
  | .holding _ => true
  | _ => false

def isBusy : Worker Numbered → Bool
  | .busy _ => true
  | _ => false

def toil (p : WorkerPool Numbered) : Nat :=
  3 * p.waiting.length + 3 * p.workers.countP isHolding + 2 * p.workers.countP isBusy +
    p.workers.countP isIdle

def IsOver (p : WorkerPool Numbered) : Prop :=
  ∀ worker ∈ p.workers, worker = .dead ∨ worker = .stopped

theorem Works.toil_lt {s s' : Shift} (h : Works s s') : s'.pool.toil < s.pool.toil := by
  have key {w : WorkerId} {a b : Worker Numbered} (ha : s.pool.workers[w]? = some a) :=
    And.intro (countP_set_add ha b isHolding)
      (And.intro (countP_set_add ha b isBusy) (countP_set_add ha b isIdle))
  unfold toil
  cases h with
  | @steal w job p h =>
    obtain ⟨rest, hw, hwait, rfl⟩ := steal?_eq_some h
    have := key (b := .holding job) hw
    simp only [isHolding, isBusy, isIdle, Bool.false_eq_true, ↓reduceIte, hwait,
      List.length_cons] at this ⊢
    omega
  | run h =>
    obtain ⟨job, hw, rfl⟩ := run?_eq_some h
    have := key (b := .busy job) hw
    simp only [isHolding, isBusy, isIdle, Bool.false_eq_true, ↓reduceIte] at this ⊢
    omega
  | finish hj h =>
    obtain rfl := finish?_eq_some hj h
    have := key (b := .idle) (jobOf?_eq_some_iff.1 hj)
    simp only [isHolding, isBusy, isIdle, Bool.false_eq_true, ↓reduceIte] at this ⊢
    omega
  | die hj h =>
    obtain rfl := die?_eq_some hj h
    have := key (b := .dead) (jobOf?_eq_some_iff.1 hj)
    simp only [isHolding, isBusy, isIdle, Bool.false_eq_true, ↓reduceIte] at this ⊢
    omega
  | exit h =>
    obtain ⟨hw, -, rfl⟩ := exit?_eq_some h
    have := key (b := .stopped) hw
    simp only [isHolding, isBusy, isIdle, Bool.false_eq_true, ↓reduceIte] at this ⊢
    omega

theorem Works.stopping_eq {s s' : Shift} (h : Works s s') : s'.pool.stopping = s.pool.stopping := by
  cases h with
  | steal h =>
    obtain ⟨_, -, -, rfl⟩ := steal?_eq_some h
    rfl
  | run h =>
    obtain ⟨_, -, rfl⟩ := run?_eq_some h
    rfl
  | finish hj h =>
    obtain rfl := finish?_eq_some hj h
    rfl
  | die hj h =>
    obtain rfl := die?_eq_some hj h
    rfl
  | exit h =>
    obtain ⟨-, -, rfl⟩ := exit?_eq_some h
    rfl

namespace Shift

variable {staff threads : Nat} {s s' : Shift}

/-- Whatever the workers do, they come to where none of them can move. -/
theorem exists_settled (s : Shift) : ∃ s', ReflTransGen Works s s' ∧ s'.Settled := by
  induction hn : s.pool.toil using Nat.strongRecOn generalizing s with
  | _ n ih =>
    by_cases hs : s.Settled
    · exact ⟨s, .refl, hs⟩
    · obtain ⟨s₁, hw⟩ := not_forall_not.1 hs
      obtain ⟨s', hrun, hset⟩ := ih _ (hn ▸ hw.toil_lt) s₁ rfl
      exact ⟨s', .head hw hrun, hset⟩

theorem Settled.rests {w : WorkerId} {worker : Worker Numbered} (hs : s.Settled)
    (hw : s.pool.workers[w]? = some worker) :
    (worker = .idle ∧ s.pool.waiting = [] ∧ s.pool.stopping = false) ∨
      worker = .dead ∨ worker = .stopped := by
  cases worker with
  | idle =>
    refine .inl ⟨rfl, ?_, ?_⟩
    · cases hwait : s.pool.waiting with
      | nil => rfl
      | cons job rest => exact absurd (Works.steal (by rw [steal?, hw, hwait])) (hs _)
    · cases hstop : s.pool.stopping with
      | false => rfl
      | true => exact absurd (Works.exit (by rw [exit?, hw, hstop])) (hs _)
  | holding job => exact absurd (Works.run (by rw [run?, hw])) (hs _)
  | busy job =>
    obtain ⟨number, outcome⟩ := job
    have hj := jobOf?_eq_some_iff.2 hw
    cases outcome with
    | returns => exact absurd (Works.finish hj (by rw [finish?, hj]; rfl)) (hs _)
    | crashes => exact absurd (Works.die hj (by rw [die?, hj]; rfl)) (hs _)
  | dead => exact .inr (.inl rfl)
  | stopped => exact .inr (.inr rfl)

theorem Settled.isResting (hs : s.Settled) : s.pool.IsResting := by
  intro worker hmem
  obtain ⟨w, hw⟩ := List.mem_iff_getElem?.1 hmem
  exact (hs.rests hw).imp And.left id

theorem Settled.isSpent (hs : s.Settled) : s.pool.IsSpent := by
  by_cases hidle : Worker.idle ∈ s.pool.workers
  · obtain ⟨w, hw⟩ := List.mem_iff_getElem?.1 hidle
    obtain ⟨-, hwait, -⟩ | h | h := hs.rests hw
    · exact .inl hwait
    · cases h
    · cases h
  · exact .inr hidle

theorem Settled.isOver (hs : s.Settled) (hstop : s.pool.stopping = true) : s.pool.IsOver := by
  intro worker hmem
  obtain ⟨w, hw⟩ := List.mem_iff_getElem?.1 hmem
  refine (hs.rests hw).resolve_left fun h => ?_
  rw [hstop] at h
  cases h.2.2

theorem Balanced.crashed_eq (hs : s.Balanced staff) (hr : s.pool.IsResting) :
    s.pool.crashed = s.started.countP crashes := by
  rw [hs.doomed]
  refine List.countP_congr fun worker hmem => ?_
  obtain rfl | rfl | rfl := hr worker hmem <;> rfl

theorem Balanced.active_eq (hs : s.Balanced staff) (hr : s.pool.IsResting) :
    s.pool.active = s.pool.crashed := by
  rw [hs.counted]
  refine List.countP_congr fun worker hmem => ?_
  obtain rfl | rfl | rfl := hr worker hmem <;> rfl

theorem Balanced.in_order (hs : s.Balanced staff) : s.started <+: numbered s.jobs :=
  ⟨_, hs.queued⟩

theorem Balanced.crashes_le (hs : s.Balanced staff) : s.started.countP crashes ≤ staff := by
  rw [hs.doomed, ← hs.staffed]
  exact List.countP_le_length

theorem Balanced.exhausted (hs : s.Balanced staff) (hset : s.Settled)
    (hopen : s.pool.stopping = false) :
    s.started = numbered s.jobs ∨ s.started.countP crashes = staff := by
  refine hset.isSpent.imp (fun hwait => ?_) (fun hidle => ?_)
  · rw [← hs.queued, hwait, List.append_nil]
  · have hdead : ∀ worker ∈ s.pool.workers, isDead worker = true := by
      intro worker hmem
      obtain rfl | rfl | rfl := hset.isResting worker hmem
      · exact absurd hmem hidle
      · rfl
      · rw [hs.home hmem] at hopen
        cases hopen
    rw [← hs.crashed_eq hset.isResting, ← hs.staffed]
    exact List.countP_eq_length.2 hdead

/-- What is left of a pool of `staff` workers that none of them can move on in, before it is
stopped and after. -/
structure Concludes (staff : Nat) (s : Shift) : Prop where
  whole : (numbered s.jobs).countP crashes < staff → s.started = numbered s.jobs
  cut : staff ≤ (numbered s.jobs).countP crashes → ∃ before job after,
    numbered s.jobs = before ++ job :: after ∧ crashes job = true ∧
      before.countP crashes + 1 = staff ∧ s.started = before ++ [job]
  active : s.pool.active = s.started.countP crashes
  bounded : s.started.countP crashes ≤ staff
  stops : ∃ s', ReflTransGen Works { s with pool := s.pool.stop } s' ∧ s'.pool.IsOver
  /-- what joining the workers counts -/
  shutdown : ∀ s', ReflTransGen Works { s with pool := s.pool.stop } s' → s'.pool.IsOver →
    s'.started = s.started ∧ s'.pool.crashed = s.started.countP crashes

theorem Balanced.cut (hs : s.Balanced staff) (hset : s.Settled) (hopen : s.pool.stopping = false)
    (hmany : staff ≤ (numbered s.jobs).countP crashes) : ∃ before job after,
      numbered s.jobs = before ++ job :: after ∧ crashes job = true ∧
        before.countP crashes + 1 = staff ∧ s.started = before ++ [job] := by
  have hcount : s.started.countP crashes = staff := by
    obtain h | h := hs.exhausted hset hopen
    · exact Nat.le_antisymm hs.crashes_le (h ▸ hmany)
    · exact h
  have hmanned := hs.manned
  obtain hnil | ⟨before, job, hstarted⟩ := s.started.eq_nil_or_concat'
  · rw [hnil] at hcount hmanned
    exact absurd hcount (Nat.ne_of_lt hmanned)
  · rw [hstarted, List.dropLast_concat] at hmanned
    rw [hstarted, List.countP_append, List.countP_singleton] at hcount
    -- the last job has to be the one that makes up the number
    have hjob : crashes job = true := by
      by_contra hne
      rw [if_neg hne] at hcount
      omega
    rw [if_pos hjob] at hcount
    refine ⟨before, job, s.pool.waiting, ?_, hjob, hcount, hstarted⟩
    rw [← hs.queued, hstarted, List.append_assoc]
    rfl

theorem stopping_of_works (h : ReflTransGen Works s s') :
    s'.pool.stopping = s.pool.stopping := by
  induction h with
  | refl => rfl
  | tail _ hw ih => exact hw.stopping_eq.trans ih

theorem exists_over (s : Shift) :
    ∃ s', ReflTransGen Works { s with pool := s.pool.stop } s' ∧ s'.pool.IsOver := by
  obtain ⟨s', hrun, hset⟩ := exists_settled { s with pool := s.pool.stop }
  exact ⟨s', hrun, hset.isOver (stopping_of_works hrun)⟩

theorem Balanced.shutdown (hs : s.Balanced staff) (hset : s.Settled)
    (hrun : ReflTransGen Works { s with pool := s.pool.stop } s') :
    s'.started = s.started ∧ s'.pool.crashed = s.started.countP crashes := by
  have key : s'.Balanced staff ∧ s'.pool.IsResting ∧ s'.pool.IsSpent ∧
      s'.started = s.started := by
    induction hrun with
    | refl =>
      exact ⟨⟨hs.staffed, hs.queued, hs.counted, hs.doomed, hs.manned, fun _ => rfl⟩,
        hset.isResting, hset.isSpent, rfl⟩
    | tail _ hw ih =>
      obtain ⟨hacc, hr, hsp, hstarted⟩ := ih
      obtain ⟨hr', hsp', hstarted'⟩ := hw.goes_home hr hsp
      exact ⟨hacc.works hw, hr', hsp', hstarted'.trans hstarted⟩
  obtain ⟨hacc, hr, -, hstarted⟩ := key
  exact ⟨hstarted, hstarted ▸ hacc.crashed_eq hr⟩

theorem Balanced.concludes (hs : s.Balanced staff) (hset : s.Settled)
    (hopen : s.pool.stopping = false) : s.Concludes staff := by
  refine ⟨fun hfew => ?_, hs.cut hset hopen, ?_, hs.crashes_le, s.exists_over,
    fun s' hrun _ => hs.shutdown hset hrun⟩
  · refine (hs.exhausted hset hopen).resolve_right fun h => ?_
    have := hs.in_order.sublist.countP_le (p := crashes)
    omega
  · rw [hs.active_eq hset.isResting, hs.crashed_eq hset.isResting]

theorem length_le_of_cut {before after before' after' : List Numbered} {job job' : Numbered}
    (heq : before ++ job :: after = before' ++ job' :: after') (hjob : crashes job = true)
    (hcount : before.countP crashes = before'.countP crashes) : before'.length ≤ before.length := by
  by_contra hlt
  have hpre : before ++ [job] <+: before' := by
    have hfirst : before ++ [job] <+: before ++ job :: after := ⟨after, List.append_cons .. |>.symm⟩
    refine List.prefix_of_prefix_length_le hfirst ⟨_, heq.symm⟩ ?_
    rw [List.length_append, List.length_singleton]
    omega
  have := hpre.sublist.countP_le (p := crashes)
  rw [List.countP_append, List.countP_singleton, if_pos hjob] at this
  omega

/-- Two orders of the same jobs end with the same jobs started. -/
theorem Concludes.started_eq {s₁ s₂ : Shift} (h₁ : s₁.Concludes staff) (h₂ : s₂.Concludes staff)
    (hjobs : s₁.jobs = s₂.jobs) : s₁.started = s₂.started := by
  obtain hfew | hmany := Nat.lt_or_ge ((numbered s₁.jobs).countP crashes) staff
  · rw [h₁.whole hfew, h₂.whole (hjobs ▸ hfew), hjobs]
  · obtain ⟨b₁, j₁, a₁, heq₁, hj₁, hc₁, hst₁⟩ := h₁.cut hmany
    obtain ⟨b₂, j₂, a₂, heq₂, hj₂, hc₂, hst₂⟩ := h₂.cut (hjobs ▸ hmany)
    have heq : b₁ ++ j₁ :: a₁ = b₂ ++ j₂ :: a₂ := by rw [← heq₁, ← heq₂, hjobs]
    have hlen : b₁.length = b₂.length :=
      Nat.le_antisymm (length_le_of_cut heq.symm hj₂ (by omega))
        (length_le_of_cut heq hj₁ (by omega))
    obtain ⟨rfl, hrest⟩ := List.append_inj heq hlen
    obtain ⟨rfl, -⟩ := List.cons.inj hrest
    rw [hst₁, hst₂]

/-- A pool opened with so many threads at any moment. -/
structure Outcome (threads : Nat) (s : Shift) : Prop where
  in_order : s.started <+: numbered s.jobs
  once : s.started.Nodup
  settles : ∃ s', ReflTransGen Works s s' ∧ s'.Settled
  concludes : s.pool.stopping = false → s.Settled → s.Concludes (max threads 1)
  /-- another order with the same jobs -/
  same : s.pool.stopping = false → s.Settled → ∀ s' : Shift, s'.Reachable threads →
    s'.jobs = s.jobs → s'.pool.stopping = false → s'.Settled →
    s'.started = s.started ∧ s'.pool.active = s.pool.active

theorem Reachable.outcome (h : s.Reachable threads) : s.Outcome threads := by
  have hs := h.balanced
  refine ⟨hs.in_order, hs.in_order.sublist.nodup (nodup_numbered s.jobs), s.exists_settled,
    fun hopen hset => hs.concludes hset hopen,
    fun hopen hset s' h' hjobs hopen' hset' => ?_⟩
  have hc := hs.concludes hset hopen
  have hc' := h'.balanced.concludes hset' hopen'
  have hstarted := hc'.started_eq hc hjobs
  exact ⟨hstarted, by rw [hc'.active, hc.active, hstarted]⟩

theorem outcome_two_crashes : ∃ s : Shift, s.Reachable 2 ∧
    s.jobs = [.crashes, .returns, .crashes, .returns] ∧ s.pool.stopping = false ∧ s.Settled ∧
    s.started.map Prod.fst = [0, 1, 2] ∧ s.pool.active = 2 ∧ s.Outcome 2 := by
  obtain ⟨s, hreach, hset, hopen, hjobs, hpool, hstarted⟩ :=
    exists_settled_ofJobs 2 [.crashes, .returns, .crashes, .returns]
  exact ⟨s, hreach, hjobs, hopen, hset, hstarted.trans (by decide), by rw [hpool]; decide,
    hreach.outcome⟩

end Shift

end WorkerPool

end ScriptPlayer
