import ScriptPlayer.Proofs.Timer.Pace

/-! The count of a timer. All its runs share one counter, and a worker counts in a step of its own,
after it has looked at its stop flag. -/
namespace ScriptPlayer

open Occurrence

namespace Clockwork

theorem count_of_counters {c c' : Clockwork} (h : c'.counters = c.counters) (k : CounterId) :
    c'.count k = c.count k := by
  rw [count, h]
  rfl

theorem count_newCounter (c : Clockwork) (k : CounterId) : c.newCounter.2.count k = c.count k := by
  unfold count newCounter
  rw [List.getElem?_append]
  split
  · rfl
  · rename_i hge
    rw [List.getElem?_eq_none (Nat.not_lt.1 hge)]
    cases hk : [(0 : UInt32)][k - c.counters.length]? with
    | none => rfl
    | some n => exact List.mem_singleton.1 (List.mem_of_getElem? hk)

theorem count_setCount (c : Clockwork) (k k' : CounterId) (n : UInt32) :
    (c.setCount k n).count k' = c.count k' ∨ k = k' ∧ (c.setCount k n).count k' = n := by
  unfold count setCount
  rw [List.getElem?_set]
  split
  · rename_i hk
    split
    · exact Or.inr ⟨hk, rfl⟩
    · rename_i hlen
      rw [← hk, List.getElem?_eq_none (Nat.not_lt.1 hlen)]
      exact Or.inl rfl
  · exact Or.inl rfl

theorem count_setCount_zero (c : Clockwork) (k : CounterId) : (c.setCount k 0).count k = 0 := by
  unfold count setCount
  rw [List.getElem?_set]
  split
  · split <;> rfl
  · rename_i hk
    exact absurd rfl hk

theorem Stepped.count_cases {c c' : Clockwork} {r : RunId} {run run' : TimerRun}
    {posted : List Event} (h : c.Stepped r run run' posted c') (k : CounterId) :
    c'.count k = c.count k ∨
      run.phase = .counting ∧ run.counter = k ∧ c'.count k = c.count k + 1 := by
  have hcounters := h.counters
  unfold counted at hcounters
  split at hcounters
  · rename_i hcounting
    have hset : c'.count k = (c.setCount run.counter (c.count run.counter + 1)).count k :=
      count_of_counters hcounters k
    rcases c.count_setCount run.counter k (c.count run.counter + 1) with hcount | ⟨rfl, hcount⟩
    · exact Or.inl (hset.trans hcount)
    · exact Or.inr ⟨hcounting, rfl, hset.trans hcount⟩
  · exact Or.inl (count_of_counters hcounters k)

end Clockwork

theorem World.Resets.count_cases {w w' : World} {o : ObjectId} {t : TimerState}
    (h : w.Resets o t w') (k : CounterId) : w'.clockwork.count k = w.clockwork.count k ∨
      t.counter = k ∧ w'.clockwork.count k = 0 := by
  rw [h.clockwork]
  refine (Clockwork.count_setCount _ _ _ _).imp_left fun hcount => hcount.trans ?_
  exact Clockwork.count_of_counters (Clockwork.counters_giveUp _ _) k

/-- A count changes when a worker counts or the timer is reset, and else not. -/
theorem Happens.count {m m' : Moment} {a : Occurrence} (h : Happens m a m') (k : CounterId) :
    m'.world.clockwork.count k = m.world.clockwork.count k ∨
    (∃ r run posted, a = .worked r .counting posted ∧ m.world.clockwork.run? r = some run ∧
      run.counter = k ∧ m'.world.clockwork.count k = m.world.clockwork.count k + 1) ∨
    ∃ o t caught, a = .reset o caught ∧ m.world.timer? o = some t ∧ t.counter = k ∧
      m'.world.clockwork.count k = 0 := by
  have hsame : ∀ {c : Clockwork}, c.counters = m.world.clockwork.counters →
      c.count k = m.world.clockwork.count k := fun hc => Clockwork.count_of_counters hc k
  cases h with
  | elsewhere h => exact Or.inl (hsame h.counters)
  | create cls =>
    have hnew : (m.world.spawn cls .timer).2.clockwork = m.world.clockwork.newCounter.2 :=
      (World.reframes_newInstance _ _).clockwork
    refine Or.inl ?_
    change (m.world.spawn cls .timer).2.clockwork.count k = _
    rw [hnew, Clockwork.count_newCounter]
  | init hs h => exact Or.inl (hsame (by rw [(Run.initTimer_ok h).clockwork, hs]))
  | setDelay hs h => exact Or.inl (hsame (by rw [(Run.setTimerDelay_ok h).clockwork, hs]))
  | start hs hrun hnew =>
    obtain ⟨-, -, t, hstarts⟩ := Happens.starts (.start hs hrun hnew)
    obtain ⟨delay, hafter⟩ := hstarts.clockwork
    refine Or.inl (hsame ?_)
    rw [hafter]
    exact Clockwork.counters_giveUp _ _
  | stop hs hrun =>
    obtain ⟨-, -, t, hstop⟩ := Happens.stops (.stop hs hrun)
    refine Or.inl (hsame ?_)
    rw [hstop.clockwork, Clockwork.counters_giveUp]
  | reset hs hrun =>
    obtain ⟨-, -, t, hreset⟩ := Happens.resets (.reset hs hrun)
    rcases hreset.count_cases k with hcount | ⟨hk, hcount⟩
    · exact Or.inl hcount
    · exact Or.inr (Or.inr ⟨_, t, _, rfl, hreset.timer, hk, hcount⟩)
  | @work r run c posted hr hstep hp =>
    obtain ⟨run₁, run', c', -, hstepped, hm⟩ := Happens.stepped (.work hr hstep hp)
    obtain rfl : run = run₁ := Option.some.inj (hr.symm.trans hstepped.found)
    rw [hm]
    rcases hstepped.count_cases k with hcount | ⟨hcounting, hk, hcount⟩
    · exact Or.inl hcount
    · exact Or.inr (Or.inl ⟨r, run, posted, by rw [hcounting], hr, hk, hcount⟩)
  | take hl hs hrun =>
    obtain ⟨rest, -, hw⟩ := Run.takeEvent_ok hrun
    exact Or.inl (hsame (by rw [hw, hs]))
  | handle hl he hs hrun =>
    rcases Run.handle_ok hrun he with ⟨q, -, hw⟩ | ⟨r, -, hw⟩
    · exact Or.inl (hsame (by rw [hw, hs]))
    · exact Or.inl (hsame (by rw [hw, hs]; rfl))
  | finish hl | shutDown hl | close hl => exact Or.inl (hsame (by rfl))

theorem Happens.retimes {m m' : Moment} {a : Occurrence} (h : Happens m a m')
    (ha : ∀ o, a ≠ .created o) :
    ∃ f, m.world.Retimes f m'.world ∧ ∀ o t, (f o t).counter = t.counter := by
  have hchange : ∀ {p : ObjectId} {run : Option RunId}, m.world.Retimes
      (TimerState.changeAt p fun t => { t with run := run }) m'.world →
      ∃ f, m.world.Retimes f m'.world ∧ ∀ o t, (f o t).counter = t.counter := by
    intro p run hf
    refine ⟨_, hf, fun o t => ?_⟩
    unfold TimerState.changeAt
    split <;> rfl
  cases hp : a.isPlain with
  | true =>
    obtain ⟨f, hf, hkeep⟩ := (h.plain hp).timers
    exact ⟨f, hf, fun o t => (hkeep o t).2⟩
  | false =>
    cases a with
    | created o => exact absurd rfl (ha o)
    | started o r =>
      obtain ⟨-, -, t, hstarts⟩ := h.starts
      exact hchange hstarts.retimes
    | stopped o caught =>
      obtain ⟨-, -, t, hstop⟩ := h.stops
      exact hchange hstop.retimes
    | reset o caught =>
      obtain ⟨-, -, t, hreset⟩ := h.resets
      exact hchange hreset.retimes
    | _ => cases hp

theorem Happens.length_cells {m m' : Moment} {a : Occurrence} (h : Happens m a m') :
    m.world.heap.cells.length ≤ m'.world.heap.cells.length := by
  by_cases ha : ∃ o, a = .created o
  · obtain ⟨o, rfl⟩ := ha
    cases h with
    | create cls => exact World.length_cells_newInstance (m.world.newBacking .timer).2 _
  · obtain ⟨f, hf, -⟩ := h.retimes fun o ho => ha ⟨o, ho⟩
    exact hf.length

theorem Course.length_cells {m m' : Moment} {l : List Occurrence} (h : Course m l m') :
    m.world.heap.cells.length ≤ m'.world.heap.cells.length := by
  induction h with
  | nil => exact Nat.le_refl _
  | snoc _ hs ih => exact Nat.le_trans ih hs.length_cells

theorem Happens.timer?_of_later {m m' : Moment} {a : Occurrence} (h : Happens m a m')
    {o : ObjectId} {t' : TimerState} (ho : o < m.world.heap.cells.length)
    (ht : m'.world.timer? o = some t') :
    ∃ t, m.world.timer? o = some t ∧ t'.counter = t.counter := by
  by_cases ha : ∃ o, a = .created o
  · obtain ⟨o', rfl⟩ := ha
    cases h with
    | create cls =>
      obtain ⟨j, hj, htimer⟩ := Option.bind_eq_some_iff.1 ht
      rcases World.instance?_spawn_timer hj with hj | ⟨rfl, -⟩
      · exact ⟨t', Option.bind_eq_some_iff.2 ⟨j, hj, htimer⟩, rfl⟩
      · exact absurd ho (Nat.lt_irrefl _)
  · obtain ⟨f, hf, hkeep⟩ := h.retimes fun o ho => ha ⟨o, ho⟩
    obtain ⟨t, htimer, rfl⟩ := hf.timer? ht
    exact ⟨t, htimer, hkeep o t⟩

/-! Late counts -/

namespace Occurrence

def isCount (r : RunId) : Occurrence → Bool
  | worked r' .counting _ => r' == r
  | _ => false

/-- A stop or a reset of a timer falls between the test and the count of the worker it stops. -/
def catches (o : ObjectId) : Occurrence → Bool
  | stopped p caught | reset p caught => p == o && caught == some .counting
  | _ => false

theorem isCount_worked (r r' : RunId) (place : RunPhase) (posted : List Event) :
    (worked r' place posted).isCount r = (decide (place = .counting) && r' == r) := by
  cases place <;> rfl

theorem isCount_of_ne {a : Occurrence} {r : RunId}
    (ha : ∀ place posted, a ≠ .worked r place posted) : a.isCount r = false := by
  cases a with
  | worked r' place posted =>
    rw [isCount_worked, Bool.and_eq_false_iff, beq_eq_false_iff_ne]
    refine Or.inr ?_
    rintro rfl
    exact ha _ _ rfl
  | _ => rfl

end Occurrence

def counts (r : RunId) (l : List Occurrence) : Nat := l.countP (isCount r)

@[simp] theorem counts_snoc (r : RunId) (l : List Occurrence) (a : Occurrence) :
    counts r (l ++ [a]) = counts r l + if a.isCount r then 1 else 0 := by
  simp [counts, List.countP_append, List.countP_cons]

namespace RunPhase

def isLate : RunPhase → Bool
  | announcing | closing | retiring | done => true
  | _ => false

end RunPhase

theorem Clockwork.Advance.isLate {c : Clockwork} {r : RunId} {run : TimerRun} {p : RunPhase}
    {posted : List Event} (h : c.Advance r run p posted)
    (hp : run.phase.isLate = true ∨ run.phase.marks = true) : p.isLate = true := by
  cases h with
  | finish | announce | announceGone | close | retire | retireGone => rfl
  | lieDown hp' | wake hp' | pass hp' | leave hp' | count hp' | fire hp' | fireGone hp' | meet hp'
  | meetGone hp' | dropped hp' | exhaust hp' | again hp' =>
    rw [hp'] at hp
    rcases hp with hp | hp <;> cases hp

theorem History.late_of_finished {l : List Occurrence} {m : Moment} {r : RunId} {run : TimerRun}
    (h : History l m) (hr : m.world.clockwork.run? r = some run) (hf : run.finished = true) :
    run.phase.isLate = true := by
  induction h generalizing run with
  | fresh h =>
    rw [Clockwork.run?, h.runs] at hr
    cases hr
  | @snoc l a m m' h hs ih =>
    by_cases ha : ∃ place posted, a = worked r place posted
    · obtain ⟨place, posted, rfl⟩ := ha
      obtain ⟨run₀, run', c, -, hstep, rfl⟩ := hs.stepped
      have hrun' : c.run? r = some run := hr
      rw [hstep.run?, if_pos rfl] at hrun'
      obtain rfl := Option.some.inj hrun'
      rw [hstep.finished, Bool.or_eq_true] at hf
      exact hstep.advance.isLate (hf.imp_left (ih hstep.found))
    · cases hs.unmoved fun place posted hw => ha ⟨place, posted, hw⟩ with
      | kept f hrun =>
        rw [hrun] at hr
        obtain ⟨run₀, hr₀, rfl⟩ := Option.map_eq_some_iff.1 hr
        have hlate : run₀.phase.isLate = true := ih hr₀ hf
        exact hlate
      | submitted _ hrun =>
        rw [hrun] at hr
        obtain rfl := Option.some.inj hr
        cases hf

variable {l before after : List Occurrence} {m m' : Moment} {a : Occurrence} {o : ObjectId}
  {r : RunId}

/-- A run that does not stand any longer passes no test, so it counts once more at most. -/
theorem History.counts_le (h : History l m) (hr : started o r ∈ l) (hstop : standing o l ≠ some r)
    (hc : Course m after m') :
    counts r after + (if m'.world.phase? r = some .counting then 1 else 0) ≤
      if m.world.phase? r = some .counting then 1 else 0 := by
  induction hc with
  | nil => simp [counts]
  | @snoc after a m' m'' hc hs ih =>
    have h' := h.append hc
    by_cases ha : ∃ place posted, a = worked r place posted
    · obtain ⟨place, posted, rfl⟩ := ha
      obtain ⟨run, run', c, rfl, hstep, rfl⟩ := hs.stepped
      have hcancelled : run.cancelled = true := by
        refine (h'.roster.runs o r run (mem_starts_iff.2 (List.mem_append_left _ hr))
          hstep.found).2.2 fun hstanding => ?_
        exact hstop (h'.standing_of_later hr hstanding)
      have hphase : m'.world.phase? r = some run.phase := by
        rw [World.phase?, hstep.found]
        rfl
      have hnext : run'.phase ≠ .counting := by
        intro hcounting
        have hadvance := hstep.advance
        rw [hcounting] at hadvance
        cases hadvance with
        | pass _ hpass => cases hcancelled.symm.trans hpass
      rw [World.phase?_of_stepped hstep, if_pos rfl, counts_snoc, isCount_worked]
      rw [hphase] at ih
      simpa [hnext] using ih
    · have ha : ∀ place posted, a ≠ .worked r place posted :=
        fun place posted hw => ha ⟨place, posted, hw⟩
      rw [counts_snoc, isCount_of_ne ha]
      rcases (hs.unmoved ha).phase? with hsame | ⟨-, hqueued⟩
      · rw [hsame]
        exact ih
      · rw [hqueued]
        exact Nat.le_trans (Nat.add_le_add_left (Nat.zero_le _) _) ih

theorem History.count_eq_zero (h : History l m) (ho : o < m.world.heap.cells.length)
    (hzero : ∀ t, m.world.timer? o = some t → m.world.clockwork.count t.counter = 0)
    (hc : Course m after m') (hidle : ∀ r, started o r ∈ l ++ after → counts r after = 0) :
    ∀ t, m'.world.timer? o = some t → m'.world.clockwork.count t.counter = 0 := by
  induction hc with
  | nil => exact hzero
  | @snoc after a m' m'' hc hs ih =>
    intro t'' ht''
    obtain ⟨t, ht, hcounter⟩ := hs.timer?_of_later (Nat.lt_of_lt_of_le ho hc.length_cells) ht''
    have hidle' : ∀ r, started o r ∈ l ++ after → counts r after = 0 ∧ a.isCount r = false := by
      intro r hr
      have hnone := hidle r (by rw [← List.append_assoc]; exact List.mem_append_left _ hr)
      rw [counts_snoc] at hnone
      exact ⟨Nat.eq_zero_of_add_eq_zero_right hnone,
        by simpa using Nat.eq_zero_of_add_eq_zero_left hnone⟩
    rw [hcounter]
    rcases hs.count t.counter with hsame | ⟨r, run, posted, rfl, hrun, hk, -⟩ |
      ⟨_, _, _, -, -, -, hk⟩
    · rw [hsame]
      exact ih (fun r hr => (hidle' r hr).1) t ht
    · have hroster := (h.append hc).roster
      have hstarted := hroster.started_of_counter hrun (hk ▸ (hroster.timers o t ht).2)
      have hcount := (hidle' r hstarted).2
      rw [isCount_worked] at hcount
      simp at hcount
    · exact hk

end ScriptPlayer
