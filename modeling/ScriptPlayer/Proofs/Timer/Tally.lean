import ScriptPlayer.Proofs.Timer.Counts
import ScriptPlayer.Proofs.Timer.Cues

/-! The count and the fires of a run. A run that starts at zero and is not disturbed counts exactly
its own fires; it is disturbed by a worker of the timer that was stopped between its test and its
count, and then counts once more. -/
namespace ScriptPlayer

open Occurrence

variable {l before after : List Occurrence} {m m' m₁ m₂ : Moment} {a : Occurrence}
  {o : ObjectId} {r : RunId}

def fires (r : RunId) (l : List Occurrence) : Nat := (events l).count (fire r)

/-- What a count that was zero at the start of a run has to do with the fires that the run has
posted, while the run stands, and what becomes of its limit `n`. -/
def Tally (n fires count : Nat) (stands : Prop) : RunPhase → Prop
  | .queued | .asleep _ | .testing => fires < n ∧ (stands → count = fires)
  | .counting => stands ∧ fires < n ∧ count = fires
  | .posting k => k.toNat = fires + 1 ∧ fires < n ∧ (stands → count = fires + 1)
  | .syncing k | .awaiting k _ => k.toNat = fires ∧ fires ≤ n ∧ (stands → count = fires)
  | .completing | .announcing => fires = n
  | .closing | .retiring | .done => True

namespace Tally

variable {n fires count count' : Nat} {stands stands' : Prop} {p : RunPhase}

theorem mono (h : Tally n fires count stands p) (hs : stands' → stands ∧ count' = count)
    (hp : p = .counting → stands') : Tally n fires count' stands' p := by
  cases p with
  | queued | asleep t | testing => exact ⟨h.1, fun hs' => (hs hs').2.trans (h.2 (hs hs').1)⟩
  | counting => exact ⟨hp rfl, h.2.1, (hs (hp rfl)).2.trans h.2.2⟩
  | posting k => exact ⟨h.1, h.2.1, fun hs' => (hs hs').2.trans (h.2.2 (hs hs').1)⟩
  | syncing k | awaiting k q =>
    exact ⟨h.1, h.2.1, fun hs' => (hs hs').2.trans (h.2.2 (hs hs').1)⟩
  | completing | announcing => exact h
  | closing | retiring | done => trivial

theorem advance {c : Clockwork} {run : TimerRun} {posted : List Event} {next : UInt32}
    (h : Tally run.repeatCount.toNat fires (c.count run.counter).toNat stands run.phase)
    (ha : c.Advance r run p posted) (hlimit : run.repeatCount ≠ 0)
    (hstands : run.cancelled = false → stands)
    (hnext : next = if run.phase = .counting then c.count run.counter + 1
      else c.count run.counter) :
    Tally run.repeatCount.toNat (fires + posted.count (fire r)) next.toNat stands p := by
  have hsame : ∀ {q : RunPhase}, run.phase = q → q ≠ .counting → next = c.count run.counter := by
    rintro q rfl hq
    exact hnext.trans (if_neg hq)
  cases ha with
  | lieDown hp | wake hp | finish hp =>
    rw [hp] at h
    rw [hsame hp (by simp)]
    exact h
  | pass hp hc =>
    rw [hp] at h
    rw [hsame hp (by simp)]
    exact ⟨hstands hc, h.1, h.2 (hstands hc)⟩
  | count hp =>
    rw [hp] at h
    obtain ⟨hs, hlt, hcount⟩ := h
    rw [if_pos hp] at hnext
    -- the limit fits into a counter, so the counter does not overflow below it
    have hsucc : (c.count run.counter + 1).toNat = fires + 1 := by
      rw [UInt32.toNat_add, hcount]
      exact Nat.mod_eq_of_lt (Nat.lt_of_le_of_lt hlt run.repeatCount.toNat_lt)
    exact ⟨hsucc, hlt, fun _ => hnext ▸ hsucc⟩
  | fire hp =>
    rw [hp] at h
    rw [hsame hp (by simp), ScriptPlayer.fire]
    simp only [List.count_singleton_self]
    exact h
  | meet hp =>
    rw [hp] at h
    rw [hsame hp (by simp)]
    simpa [Tally, ScriptPlayer.fire] using h
  | @exhaust k q hp hq hn =>
    rw [hp] at h
    refine Nat.le_antisymm h.2.1 (Nat.le_trans (UInt32.le_iff_toNat_le.1 hn.2) ?_)
    exact Nat.le_of_eq h.1
  | @again k q t hp hq hn =>
    rw [hp] at h
    rw [hsame hp (by simp)]
    refine ⟨Nat.lt_of_not_le fun hle => hn ⟨hlimit, UInt32.le_iff_toNat_le.2 ?_⟩, h.2.2⟩
    exact Nat.le_trans hle (Nat.le_of_eq h.1.symm)
  | leave | fireGone | meetGone | dropped | announce | announceGone | close | retire | retireGone =>
    trivial

end Tally

theorem fires_snoc (r : RunId) (l : List Occurrence) (a : Occurrence) :
    fires r (l ++ [a]) = fires r l + (a.posts.map Prod.snd).count (fire r) := by
  rw [fires, events_snoc, List.count_append]
  rfl

theorem History.fires_of_ne (h : History (l ++ [a]) m)
    (ha : ∀ place posted, a ≠ worked r place posted) : fires r (l ++ [a]) = fires r l := by
  rw [fires_snoc, List.count_eq_zero_of_not_mem]
  · rfl
  · intro hmem
    obtain ⟨⟨r', e⟩, hp, rfl : e = fire r⟩ := List.mem_map.1 hmem
    have hposts : (r', fire r) ∈ posts (l ++ [a]) := by
      rw [posts_snoc]
      exact List.mem_append_right _ hp
    obtain rfl := h.eq_of_posts_dispatch hposts
    have hown := mem_eventsOf.2 hp
    rw [eventsOf_posts ha] at hown
    cases hown

theorem Roster.workerOf?_eq (h : Roster l m) {t : TimerState} (ht : m.world.timer? o = some t)
    (hstanding : standing o l = some r) : m.world.workerOf? o = m.world.phase? r := by
  rw [World.workerOf?, ht, Option.bind_some, (h.timers o t ht).1, hstanding]
  rfl

theorem History.catches_of_counting (h : History l m) (hs : Happens m a m')
    (hstanding : standing o l = some r) (hended : standing o (l ++ [a]) ≠ some r)
    (hp : m.world.phase? r = some .counting) : a.catches o = true := by
  have hroster := h.roster
  rw [standing_snoc] at hended
  have hself : ∀ {p : ObjectId} {ended : Option RunId},
      (if p = o then ended else standing o l) ≠ some r → p = o := by
    intro p ended hne
    by_contra hpo
    exact hne ((if_neg hpo).trans hstanding)
  cases a with
  | started p r' =>
    obtain rfl := hself hended
    obtain ⟨-, -, t, hstarts⟩ := hs.starts
    have hidle := hstarts.idle r ((hroster.timers p t hstarts.timer).1.trans hstanding)
    obtain ⟨run, hfound, hphase⟩ := Option.map_eq_some_iff.1 hp
    have hlive := (hroster.runs p r run (mem_starts_iff.2 (started_of_standing hstanding))
      hfound).2
    unfold Clockwork.isRunning at hidle
    rw [hfound] at hidle
    rcases Bool.and_eq_false_iff.1 hidle with hcancelled | hfinished
    · rw [Bool.not_eq_false'] at hcancelled
      exact absurd hstanding (hlive.1 hcancelled)
    · have hlate := h.late_of_finished hfound (by simpa using hfinished)
      rw [hphase] at hlate
      cases hlate
  | stopped p caught =>
    obtain rfl := hself hended
    obtain ⟨rfl, -, t, hstop⟩ := hs.stops
    rw [hroster.workerOf?_eq hstop.timer hstanding, hp]
    simp [catches]
  | reset p caught =>
    obtain rfl := hself hended
    obtain ⟨rfl, -, t, hreset⟩ := hs.resets
    rw [hroster.workerOf?_eq hreset.timer hstanding, hp]
    simp [catches]
  | _ => exact absurd hstanding hended

section Standing

/-! From a moment on at which a run stands and no other worker of the timer is about to count. -/

variable {k : List Occurrence}

/-- While the run stands, nobody else changes its count. -/
theorem History.count_of_standing {counter : CounterId} (h : History l m)
    (hstanding : standing o l = some r)
    (hothers : ∀ r', started o r' ∈ l → r' ≠ r → m.world.phase? r' ≠ some .counting)
    (hc : Course m k m₁) (hs : Happens m₁ a m₂) (ha : ∀ place posted, a ≠ .worked r place posted)
    (hstands : standing o (l ++ k ++ [a]) = some r)
    (hcounter : (creations (l ++ k))[counter]? = some o) :
    m₂.world.clockwork.count counter = m₁.world.clockwork.count counter := by
  have h₁ := h.append hc
  rcases hs.count counter with hsame | ⟨r', run, posted, rfl, hrun, rfl, -⟩ |
    ⟨p, t, caught, rfl, ht, rfl, -⟩
  · exact hsame
  · -- a worker that counts here is that of an earlier run, or of a later one
    exfalso
    have hne : r' ≠ r := by
      rintro rfl
      exact ha _ _ rfl
    rcases List.mem_append.1 (h₁.roster.started_of_counter hrun hcounter) with hold | hnew
    · have hnever := h.counts_le hold (by rw [hstanding]; simpa using Ne.symm hne) (hc.snoc hs)
      rw [if_neg (hothers r' hold hne), counts_snoc, isCount_worked] at hnever
      simp at hnever
    · obtain ⟨k₁, k₂, rfl⟩ := List.append_of_mem hnew
      have hlatest : standing o (l ++ k₁ ++ [started o r']) = some r' := by
        rw [standing_snoc]
        exact if_pos rfl
      have hsplit : l ++ (k₁ ++ started o r' :: k₂) ++ [worked r' .counting posted] =
          l ++ k₁ ++ [started o r'] ++ (k₂ ++ [worked r' .counting posted]) := by simp
      have h₂ := h₁.snoc hs
      rw [hsplit] at h₂ hstands
      have hstood := h₂.standing_of_later (by simp [started_of_standing hstanding]) hstands
      exact hne (Option.some.inj (hlatest.symm.trans hstood))
  · -- a reset of the timer ends the stand
    exfalso
    obtain rfl := Option.some.inj ((h₁.roster.timers p t ht).2.symm.trans hcounter)
    rw [standing_snoc] at hstands
    cases (if_pos rfl).symm.trans hstands

theorem History.tally_worked {run run' : TimerRun} {c : Clockwork} {posted : List Event}
    (h : History l m) (hr : started o r ∈ l)
    (hstep : m.world.clockwork.Stepped r run run' posted c) (hlimit : run.repeatCount ≠ 0)
    (htally : Tally run.repeatCount.toNat (fires r l) (m.world.clockwork.count run.counter).toNat
      (standing o l = some r) run.phase) (place : RunPhase) :
    Tally run.repeatCount.toNat (fires r (l ++ [worked r place posted]))
      (c.count run.counter).toNat (standing o (l ++ [worked r place posted]) = some r)
      run'.phase := by
  have howner := h.roster.runs o r run (mem_starts_iff.2 hr) hstep.found
  have hposted : (Occurrence.posts (.worked r place posted)).map Prod.snd = posted := by
    simp [Occurrence.posts, Function.comp_def]
  rw [standing_snoc, fires_snoc, hposted]
  refine htally.advance hstep.advance hlimit (fun hlive => ?_) (hstep.count ?_)
  · by_contra hended
    cases hlive.symm.trans (howner.2.2 hended)
  · exact h.roster.creations_length ▸ (List.getElem?_eq_some_iff.1 howner.1).1

theorem History.tally_unmoved {run : TimerRun} (h : History l m) (hr : started o r ∈ l)
    (hrun : m.world.clockwork.run? r = some run) (hs : Happens m a m')
    (ha : ∀ place posted, a ≠ .worked r place posted)
    (hcount : standing o (l ++ [a]) = some r →
      m'.world.clockwork.count run.counter = m.world.clockwork.count run.counter)
    (hfree : standing o l = some r → a.catches o = false)
    (htally : Tally run.repeatCount.toNat (fires r l) (m.world.clockwork.count run.counter).toNat
      (standing o l = some r) run.phase) :
    Tally run.repeatCount.toNat (fires r (l ++ [a])) (m'.world.clockwork.count run.counter).toNat
      (standing o (l ++ [a]) = some r) run.phase := by
  have h' := h.snoc hs
  rw [h'.fires_of_ne ha]
  refine htally.mono (fun hstands => ⟨h'.standing_of_later hr hstands, ?_⟩) fun hcounting => ?_
  · rw [hcount hstands]
  · have hstands : standing o l = some r := by
      rw [hcounting] at htally
      exact htally.1
    have hphase : m.world.phase? r = some .counting := by
      rw [World.phase?, hrun, ← hcounting]
      rfl
    by_contra hended
    cases (hfree hstands).symm.trans (h.catches_of_counting hs hstands hended hphase)

/-- The tally of the run holds as long as nothing catches its worker between test and count. -/
theorem History.tally {run : TimerRun} (h : History l m) (hstanding : standing o l = some r)
    (hothers : ∀ r', started o r' ∈ l → r' ≠ r → m.world.phase? r' ≠ some .counting)
    (hrun : m.world.clockwork.run? r = some run) (hlimit : run.repeatCount ≠ 0)
    (htally : Tally run.repeatCount.toNat (fires r l) (m.world.clockwork.count run.counter).toNat
      (standing o l = some r) run.phase)
    (hc : Course m after m')
    (hfree : ∀ k a k', after = k ++ a :: k' → standing o (l ++ k) = some r → a.catches o = false) :
    ∃ run', m'.world.clockwork.run? r = some run' ∧ run'.counter = run.counter ∧
      run'.repeatCount = run.repeatCount ∧
      Tally run.repeatCount.toNat (fires r (l ++ after))
        (m'.world.clockwork.count run.counter).toNat (standing o (l ++ after) = some r)
        run'.phase := by
  induction hc with
  | nil => exact ⟨run, hrun, rfl, rfl, by simpa using htally⟩
  | @snoc k a m₁ m₂ hc hs ih =>
    obtain ⟨run₁, hrun₁, hcounter, hrepeat, ih⟩ := ih fun k₁ a' k₂ hk => hfree k₁ a' (k₂ ++ [a])
      (by rw [hk]; simp)
    have h₁ := h.append hc
    have hr : started o r ∈ l ++ k := List.mem_append_left k (started_of_standing hstanding)
    rw [← List.append_assoc]
    rw [← hcounter, ← hrepeat] at ih ⊢
    by_cases ha : ∃ place posted, a = worked r place posted
    · obtain ⟨place, posted, rfl⟩ := ha
      obtain ⟨run₀, run₂, c, -, hstep, rfl⟩ := hs.stepped
      obtain rfl : run₁ = run₀ := Option.some.inj (hrun₁.symm.trans hstep.found)
      exact ⟨run₂, (hstep.run? r).trans (if_pos rfl), hstep.counter, hstep.repeatCount,
        h₁.tally_worked hr hstep (hrepeat ▸ hlimit) ih place⟩
    · have ha : ∀ place posted, a ≠ worked r place posted :=
        fun place posted hw => ha ⟨place, posted, hw⟩
      obtain ⟨run₂, hrun₂, hsame⟩ := (hs.unmoved ha).run? hrun₁
      refine ⟨run₂, hrun₂, hsame.counter, hsame.repeatCount, ?_⟩
      rw [hsame.phase]
      exact h₁.tally_unmoved hr hrun₁ hs ha (fun hstands => h.count_of_standing hstanding hothers
        hc hs ha hstands (h₁.roster.runs o r run₁ (mem_starts_iff.2 hr) hrun₁).1)
        (hfree k a [] rfl) ih

end Standing

theorem History.fires_eq_zero (h : History l m) (hp : m.world.phase? r = none) :
    fires r l = 0 := by
  refine List.count_eq_zero_of_not_mem fun hmem => ?_
  have hown := mem_eventsOf.2 (h.posts_of_dispatch hmem)
  rw [h.paced.absent r hp] at hown
  cases hown

/-- A run that was started at zero has posted as many fires as its limit when it announces its
completion, unless a stop came between a test and a count. -/
theorem History.fires_of_announcing {t : TimerState} {posted : List Event}
    (h : History before m₁) (hs : Happens m₁ (started o r) m₂) (hc : Course m₂ after m)
    (ht : m₁.world.timer? o = some t) (hlimit : t.repeatCount ≠ 0)
    (hzero : m₁.world.clockwork.count t.counter = 0)
    (hothers : ∀ r', started o r' ∈ before → m₁.world.phase? r' ≠ some .counting)
    (hfree : ∀ k b k', after = k ++ b :: k' →
      standing o (before ++ started o r :: k) = some r → b.catches o = false)
    (hend : Happens m (worked r .announcing posted) m') :
    fires r (before ++ started o r :: after) = t.repeatCount.toNat := by
  have hstanding : standing o (before ++ [started o r]) = some r := by
    rw [standing_snoc]
    exact if_pos rfl
  have hsame := (hs.count t.counter).resolve_right (by simp)
  obtain ⟨hr, -, t', hstarts⟩ := hs.starts
  obtain rfl := Option.some.inj (hstarts.timer.symm.trans ht)
  have hnone : m₁.world.phase? r = none := by
    rw [hr, World.phase?, Clockwork.run?, List.getElem?_eq_none (Nat.le_refl _)]
    rfl
  obtain ⟨delay, hrun⟩ := hstarts.run?_new
  rw [← hr] at hrun
  have htally := (h.snoc hs).tally hstanding (fun r' hr' hne => ?_) hrun hlimit ?_ hc ?_
  · obtain ⟨run, hrun, -, -, htally⟩ := htally
    obtain ⟨run₀, run', c, hphase, hstep, -⟩ := hend.stepped
    obtain rfl := Option.some.inj (hrun.symm.trans hstep.found)
    rw [hphase] at htally
    rw [List.append_cons]
    exact htally
  · have hold : started o r' ∈ before := by simpa [hne] using hr'
    rcases (hs.unmoved (r := r') (by simp)).phase? with hphase | ⟨-, hqueued⟩
    · rw [hphase]
      exact hothers r' hold
    · rw [hqueued]
      simp
  · refine ⟨?_, fun _ => ?_⟩
    · rw [fires_snoc, h.fires_eq_zero hnone]
      exact Nat.pos_of_ne_zero fun hn => hlimit (UInt32.toNat_inj.1 hn)
    · rw [fires_snoc, h.fires_eq_zero hnone, hsame, hzero]
      rfl
  · intro k b k' hk hstands
    refine hfree k b k' hk ?_
    rwa [List.append_cons]

/-! What a stop or a reset ends -/

theorem standing_of_ended {caught : Option RunPhase}
    (ha : a = stopped o caught ∨ a = .reset o caught) (l : List Occurrence) :
    standing o (l ++ [a]) = none := by
  rcases ha with rfl | rfl <;> rw [standing_snoc] <;> exact if_pos rfl

theorem History.caught_eq (h : History l m) (hs : Happens m a m') {caught : Option RunPhase}
    (ha : a = stopped o caught ∨ a = .reset o caught) (hstanding : standing o l = some r) :
    caught = m.world.phase? r := by
  rcases ha with rfl | rfl
  · obtain ⟨hcaught, -, t, hstop⟩ := hs.stops
    exact hcaught.trans (h.roster.workerOf?_eq hstop.timer hstanding)
  · obtain ⟨hcaught, -, t, hreset⟩ := hs.resets
    exact hcaught.trans (h.roster.workerOf?_eq hreset.timer hstanding)

theorem History.counts_of_ended (h : History before m₁) (hs : Happens m₁ a m₂)
    (hc : Course m₂ after m) {caught : Option RunPhase}
    (ha : a = stopped o caught ∨ a = .reset o caught) (hstanding : standing o before = some r) :
    counts r after ≤ 1 ∧ (caught ≠ some .counting → counts r after = 0) := by
  have hr : started o r ∈ before ++ [a] := List.mem_append_left _ (started_of_standing hstanding)
  have hle := (h.snoc hs).counts_le hr (by simp [standing_of_ended ha]) hc
  refine ⟨Nat.le_trans (Nat.le_add_right _ _) (Nat.le_trans hle (by split <;> simp)), ?_⟩
  intro hcaught
  have hphase : m₂.world.phase? r ≠ some .counting := by
    rw [h.caught_eq hs ha hstanding] at hcaught
    rcases (hs.unmoved (r := r) (by rcases ha with rfl | rfl <;> simp)).phase? with
      hsame | ⟨-, hqueued⟩
    · rwa [hsame]
    · rw [hqueued]
      simp
  rw [if_neg hphase] at hle
  exact Nat.eq_zero_of_add_eq_zero_right (Nat.le_zero.1 hle)

theorem History.count_of_reset {caught : Option RunPhase} (h : History before m₁)
    (hs : Happens m₁ (.reset o caught) m₂) (hc : Course m₂ after m)
    (hcalm : ∀ r, started o r ∈ before → m₂.world.phase? r ≠ some .counting)
    (hidle : ∀ r, started o r ∈ after → counts r after = 0) {t : TimerState}
    (ht : m.world.timer? o = some t) : m.world.clockwork.count t.counter = 0 := by
  have h₂ := h.snoc hs
  obtain ⟨-, -, t₁, hreset⟩ := hs.resets
  have halive := World.length_of_timer? hreset.timer
  refine h₂.count_eq_zero (Nat.lt_of_lt_of_le halive hs.length_cells) ?_ hc ?_ t ht
  · intro t₂ ht₂
    obtain ⟨t₀, ht₀, hcounter⟩ := hs.timer?_of_later halive ht₂
    obtain rfl := Option.some.inj (hreset.timer.symm.trans ht₀)
    rw [hcounter, hreset.clockwork]
    exact Clockwork.count_setCount_zero _ _
  · intro r hr
    rcases List.mem_append.1 hr with hold | hnew
    · have hle := h₂.counts_le hold (by simp [standing_of_ended (Or.inr rfl)]) hc
      rw [if_neg (hcalm r (by simpa using hold))] at hle
      exact Nat.eq_zero_of_add_eq_zero_right (Nat.le_zero.1 hle)
    · exact hidle r hnew

theorem History.cause_of_count (h : History before m₁) (hs : Happens m₁ a m₂) {t t' : TimerState}
    (ht : m₁.world.timer? o = some t) (ht' : m₂.world.timer? o = some t')
    (hne : m₂.world.clockwork.count t'.counter ≠ m₁.world.clockwork.count t.counter) :
    (∃ r posted, started o r ∈ before ∧ a = worked r .counting posted) ∨
      ∃ caught, a = .reset o caught := by
  obtain ⟨t₀, ht₀, hcounter⟩ := hs.timer?_of_later (World.length_of_timer? ht) ht'
  obtain rfl := Option.some.inj (ht.symm.trans ht₀)
  rw [hcounter] at hne
  rcases hs.count t.counter with hsame | ⟨r, run, posted, rfl, hrun, hk, -⟩ |
    ⟨p, t₁, caught, rfl, ht₁, hk, -⟩
  · exact absurd hsame hne
  · refine Or.inl ⟨r, posted, ?_, rfl⟩
    exact h.roster.started_of_counter hrun (hk ▸ (h.roster.timers o t ht).2)
  · have hp := (h.roster.timers p t₁ ht₁).2
    rw [hk, (h.roster.timers o t ht).2] at hp
    obtain rfl := Option.some.inj hp
    exact Or.inr ⟨caught, rfl⟩

/-- The worker of a run that a stop or a reset ends counts once more at most, and only if it was
caught between its test and its count. If no worker of the timer stands there after a reset, the
count is zero until a later run counts. And if none stands there when a run is started at zero, nor
is its own caught there, the run has posted as many fires as its limit when it announces its
completion. Nothing else changes the count. -/
theorem History.counting {m₁ m₂ : Moment} (h : History before m₁) (hs : Happens m₁ a m₂)
    (hc : Course m₂ after m) (o : ObjectId) :
    (∀ caught r, a = stopped o caught ∨ a = .reset o caught → standing o before = some r →
      counts r after ≤ 1 ∧ (caught ≠ some .counting → counts r after = 0)) ∧
    (∀ caught, a = .reset o caught →
      (∀ r, started o r ∈ before → m₂.world.phase? r ≠ some .counting) →
      (∀ r, started o r ∈ after → counts r after = 0) →
      ∀ t, m.world.timer? o = some t → m.world.clockwork.count t.counter = 0) ∧
    (∀ r t posted m', a = started o r → m₁.world.timer? o = some t → t.repeatCount ≠ 0 →
      m₁.world.clockwork.count t.counter = 0 →
      (∀ r', started o r' ∈ before → m₁.world.phase? r' ≠ some .counting) →
      (∀ k b k', after = k ++ b :: k' → standing o (before ++ a :: k) = some r →
        b.catches o = false) →
      Happens m (worked r .announcing posted) m' →
      (events (before ++ a :: after)).count (fire r) = t.repeatCount.toNat) ∧
    ∀ t t', m₁.world.timer? o = some t → m₂.world.timer? o = some t' →
      m₂.world.clockwork.count t'.counter ≠ m₁.world.clockwork.count t.counter →
      (∃ r posted, started o r ∈ before ∧ a = worked r .counting posted) ∨
        ∃ caught, a = .reset o caught := by
  refine ⟨fun caught r ha hstanding => h.counts_of_ended hs hc ha hstanding, ?_, ?_,
    fun t t' ht ht' hne => h.cause_of_count hs ht ht' hne⟩
  · rintro caught rfl hcalm hidle t ht
    exact h.count_of_reset hs hc hcalm hidle ht
  · rintro r t posted m' rfl ht hlimit hzero hothers hfree hend
    exact h.fires_of_announcing hs hc ht hlimit hzero hothers hfree hend

theorem History.counting_twice : ∃ before after m₁ m₂ m m',
    History before m₁ ∧ Happens m₁ (started 0 0) m₂ ∧ Course m₂ after m ∧
      Happens m (worked 0 .announcing [completion 0]) m' ∧
      (events (before ++ started 0 0 :: after)).count (fire 0) = 2 := by
  let before := [created 0, configured 0]
  let after := [elsewhere, worked 0 .queued []] ++ lap 0 1 0 ++ round 0 0 (some 0) ++
    [worked 0 (.awaiting 1 0) []] ++ lap 0 2 1 ++ round 0 1 (some 0) ++
    [worked 0 (.awaiting 2 1) [], worked 0 .completing []]
  obtain ⟨m₁, m₂, m, h, hs, hc, hseen⟩ := History.exists_of_plays
    (Cue.timer 2) [.start 0]
    ([.move (.start 0)] ++ Cue.steps 0 6 ++ Cue.handles 2 ++ Cue.steps 0 6 ++
      Cue.handles 2 ++ Cue.steps 0 2)
    before [started 0 0] after
    (fun m₁ _ m => ((m₁.world.timer? 0).map fun t =>
      (t.repeatCount, m₁.world.clockwork.count t.counter),
      (m.cue (.move (.step 0))).map Prod.fst))
    (some (2, 0), some (worked 0 .announcing [completion 0])) (by decide +kernel)
  obtain ⟨htimer, hlast⟩ := Prod.mk.inj hseen
  obtain ⟨t, ht, hzero⟩ := Option.map_eq_some_iff.1 htimer
  obtain ⟨hlimit, hzero⟩ := Prod.mk.inj hzero
  obtain ⟨⟨a, m'⟩, hcue, rfl : a = worked 0 .announcing [completion 0]⟩ :=
    Option.map_eq_some_iff.1 hlast
  have hend := Moment.happens_of_cue hcue
  refine ⟨before, after, m₁, m₂, m, m', h, hs.happens, hc, hend, ?_⟩
  have hcalm : ∀ b ∈ after, b.catches 0 = false := by decide
  have hfires := (h.counting hs.happens hc 0).2.2.1 0 t [completion 0] m' rfl ht (by simp [hlimit])
    hzero (by simp [before]) (fun k b k' hk _ => hcalm b (by simp [hk])) hend
  rw [hfires, hlimit]
  rfl

/-- The worker of a run may be about to count when the timer is reset and started again. Then it
counts for the run that stands, which completes after one fire of the two that it was to make. -/
theorem History.late_count : ∃ before late after m₁ m₂ m₃,
    History before m₁ ∧ Course m₁ late m₂ ∧ Course m₂ after m₃ ∧
      before.getLast? = some (.reset 0 (some .counting)) ∧ started 0 0 ∈ before ∧
      late = [started 0 1, worked 0 .counting []] ∧
      ((m₁.world.timer? 0).map fun t => (t.repeatCount, m₁.world.clockwork.count t.counter)) =
        some (2, 0) ∧
      ((m₂.world.timer? 0).map fun t => m₂.world.clockwork.count t.counter) = some 1 ∧
      after.getLast? = some (worked 1 .announcing [completion 1]) ∧
      (events (before ++ late ++ after)).count (fire 1) = 1 := by
  let before := [created 0, configured 0, started 0 0, elsewhere, worked 0 .queued [],
    worked 0 (.asleep 0) [], worked 0 .testing [], .reset 0 (some .counting)]
  let late := [started 0 1, worked 0 .counting []]
  let after := [elsewhere, worked 1 .queued []] ++ lap 1 2 0 ++ round 1 0 (some 0) ++
    [worked 1 (.awaiting 2 0) [], worked 1 .completing [], worked 1 .announcing [completion 1]]
  obtain ⟨m₁, m₂, m₃, h, hlate, hafter, hseen⟩ := History.exists_of_plays
    (Cue.timer 2 ++ [.start 0, .move (.start 0)] ++ Cue.steps 0 3 ++ [.reset 0])
    [.start 0, .move (.step 0)]
    ([.move (.start 1)] ++ Cue.steps 1 6 ++ Cue.handles 2 ++ Cue.steps 1 3)
    before late after
    (fun m₁ m₂ _ => ((m₁.world.timer? 0).map fun t =>
      (t.repeatCount, m₁.world.clockwork.count t.counter),
      (m₂.world.timer? 0).map fun t => m₂.world.clockwork.count t.counter))
    (some (2, 0), some 1) (by decide +kernel)
  obtain ⟨htimer, hcount⟩ := Prod.mk.inj hseen
  exact ⟨before, late, after, m₁, m₂, m₃, h, hlate, hafter, rfl, by decide, rfl, htimer, hcount,
    rfl, by decide⟩

end ScriptPlayer
