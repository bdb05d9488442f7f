import Mathlib.Data.Finset.Card
import ScriptPlayer.Proofs.Timer.Completion
import ScriptPlayer.Proofs.Timer.Tally

/-! The limit of a timer. The worker of a run compares the count with the limit after a fire of its
own and at no other time. So the count gets past the limit, by one, each time the timer is started
when the count is there already, or a worker is stopped between its test and its count; and there is
no other way. -/
namespace ScriptPlayer

open Occurrence

variable {l k before after : List Occurrence} {m m' : Moment} {a : Occurrence} {o : ObjectId}
  {r : RunId} {limit count : UInt32} {counter : CounterId}

/-! What the entries of a history say -/

def runsOf (o : ObjectId) (l : List Occurrence) : List RunId :=
  ((starts l).filter fun e => e.1 = o).map Prod.snd

/-- A start at the limit, or a stop between the test and the count of a worker. -/
def Occurrence.lapses (o : ObjectId) (limit count : UInt32) : Occurrence → Bool
  | started p _ => p = o && limit ≤ count
  | a => a.catches o

def Occurrence.isCountOf (rs : List RunId) (a : Occurrence) : Bool := rs.any (isCount · a)

/-- What has come of a timer since its count was zero. -/
structure Meter where
  runs : List RunId
  /-- how often its workers have counted -/
  counts : Nat
  /-- how many fires they have posted -/
  fires : Nat
  lapses : Nat

namespace Meter

def next (o : ObjectId) (limit : UInt32) (g : Meter) (a : Occurrence) : Meter where
  runs := g.runs ++ runsOf o [a]
  counts := g.counts + if a.isCountOf g.runs then 1 else 0
  fires := g.fires + a.posts.countP fun e => decide (e.1 ∈ g.runs ∧ e.2 = fire e.1)
  lapses := g.lapses + if a.lapses o limit (.ofNat g.counts) then 1 else 0

def read (o : ObjectId) (limit : UInt32) (before after : List Occurrence) : Meter :=
  after.foldl (next o limit) ⟨runsOf o before, 0, 0, 0⟩

@[simp] theorem read_snoc (o : ObjectId) (limit : UInt32) (before after : List Occurrence)
    (a : Occurrence) :
    read o limit before (after ++ [a]) = (read o limit before after).next o limit a :=
  List.foldl_concat ..

end Meter

theorem mem_runsOf : r ∈ runsOf o l ↔ started o r ∈ l := by
  simp [runsOf, ← mem_starts_iff]

theorem runsOf_append (o : ObjectId) (l k : List Occurrence) :
    runsOf o (l ++ k) = runsOf o l ++ runsOf o k := by
  simp [runsOf, starts]

theorem Occurrence.isCountOf_worked (rs : List RunId) (r : RunId) (place : RunPhase)
    (posted : List Event) : (worked r place posted).isCountOf rs =
      (decide (place = .counting) && decide (r ∈ rs)) := by
  rw [Bool.eq_iff_iff]
  simp [isCountOf, isCount_worked, and_comm]

theorem Occurrence.isCountOf_eq_true {rs : List RunId} : a.isCountOf rs = true ↔
    ∃ r posted, a = worked r .counting posted ∧ r ∈ rs := by
  cases a with
  | worked r place posted => simp [isCountOf_worked, and_comm]
  | _ => simp [isCountOf, isCount]

theorem Occurrence.isCountOf_of_ne (ha : ∀ r place posted, a ≠ worked r place posted)
    (rs : List RunId) : a.isCountOf rs = false := by
  rw [← Bool.not_eq_true, isCountOf_eq_true]
  rintro ⟨r, posted, hw, -⟩
  exact ha r .counting posted hw

theorem Occurrence.worked_or_ne (a : Occurrence) :
    (∃ r place posted, a = worked r place posted) ∨
      ∀ r place posted, a ≠ worked r place posted := by
  cases a <;> simp

/-! Which runs count for a timer -/

structure CountsFor (o : ObjectId) (counter : CounterId) (l : List Occurrence) (m : Moment) :
    Prop where
  lt : o < m.world.heap.cells.length
  timer : ∀ t, m.world.timer? o = some t → t.counter = counter
  creation : (creations l)[counter]? = some o
  runs : ∀ r run, started o r ∈ l → m.world.clockwork.run? r = some run → run.counter = counter

theorem Happens.run?_of_earlier (hs : Happens m a m') {run : TimerRun}
    (hrun : m.world.clockwork.run? r = some run) :
    ∃ run', m'.world.clockwork.run? r = some run' ∧ run'.counter = run.counter ∧
      run'.repeatCount = run.repeatCount := by
  by_cases ha : ∃ place posted, a = worked r place posted
  · obtain ⟨place, posted, rfl⟩ := ha
    obtain ⟨run₀, run', c, -, hstep, rfl⟩ := hs.stepped
    obtain rfl := Option.some.inj (hrun.symm.trans hstep.found)
    exact ⟨run', (hstep.run? r).trans (if_pos rfl), hstep.counter, hstep.repeatCount⟩
  · obtain ⟨run', hrun', hstill⟩ :=
      (hs.unmoved fun place posted hw => ha ⟨place, posted, hw⟩).run? hrun
    exact ⟨run', hrun', hstill.counter, hstill.repeatCount⟩

theorem History.exists_run (h : History l m) (hr : started o r ∈ l) :
    ∃ run, m.world.clockwork.run? r = some run :=
  ⟨_, List.getElem?_eq_getElem (h.roster.lt_of_start (mem_starts_iff.2 hr))⟩

theorem Happens.counter_of_started (hs : Happens m (started o r) m') {run : TimerRun}
    (hrun : m'.world.clockwork.run? r = some run) :
    ∃ t, m.world.timer? o = some t ∧ run.counter = t.counter := by
  obtain ⟨rfl, -, t, hstarts⟩ := hs.starts
  obtain ⟨delay, hnew⟩ := hstarts.run?_new
  obtain rfl := Option.some.inj (hnew.symm.trans hrun)
  exact ⟨t, hstarts.timer, rfl⟩

theorem History.counter_of_started (h : History l m) (hr : started o r ∈ l) {run : TimerRun}
    (hrun : m.world.clockwork.run? r = some run) {t : TimerState}
    (ht : m.world.timer? o = some t) : run.counter = t.counter := by
  induction h generalizing run t with
  | fresh => cases hr
  | @snoc l a m m' h hs ih =>
    rcases List.mem_append.1 hr with hr | hr
    · have hlt := (h.roster.owners o r (mem_starts_iff.2 hr)).1
      obtain ⟨t₀, ht₀, hsame⟩ := hs.timer?_of_later hlt ht
      obtain ⟨run₀, hrun₀⟩ := h.exists_run hr
      obtain ⟨run', hrun', hcounter, -⟩ := hs.run?_of_earlier hrun₀
      obtain rfl := Option.some.inj (hrun.symm.trans hrun')
      rw [hcounter, hsame]
      exact ih hr hrun₀ ht₀
    · obtain rfl := List.mem_singleton.1 hr
      obtain ⟨t₀, ht₀, hcounter⟩ := hs.counter_of_started hrun
      obtain ⟨t₁, ht₁, hsame⟩ := hs.timer?_of_later (World.length_of_timer? ht₀) ht
      rw [hcounter, hsame, Option.some.inj (ht₀.symm.trans ht₁)]

namespace CountsFor

theorem of_timer (h : History l m) {t : TimerState} (ht : m.world.timer? o = some t) :
    CountsFor o t.counter l m where
  lt := World.length_of_timer? ht
  timer t' ht' := by rw [Option.some.inj (ht.symm.trans ht')]
  creation := (h.roster.timers o t ht).2
  runs r run hr hrun := h.counter_of_started hr hrun ht

theorem happens (hc : CountsFor o counter l m) (h : History l m) (hs : Happens m a m') :
    CountsFor o counter (l ++ [a]) m' where
  lt := Nat.lt_of_lt_of_le hc.lt hs.length_cells
  timer t ht := by
    obtain ⟨t₀, ht₀, hsame⟩ := hs.timer?_of_later hc.lt ht
    exact hsame.trans (hc.timer t₀ ht₀)
  creation := by
    rw [creations_snoc, List.getElem?_append_left (List.getElem?_eq_some_iff.1 hc.creation).1]
    exact hc.creation
  runs r run hr hrun := by
    rcases List.mem_append.1 hr with hr | hr
    · obtain ⟨run₀, hrun₀⟩ := h.exists_run hr
      obtain ⟨run', hrun', hcounter, -⟩ := hs.run?_of_earlier hrun₀
      obtain rfl := Option.some.inj (hrun.symm.trans hrun')
      exact hcounter.trans (hc.runs r run₀ hr hrun₀)
    · obtain rfl := List.mem_singleton.1 hr
      obtain ⟨t, ht, hcounter⟩ := hs.counter_of_started hrun
      exact hcounter.trans (hc.timer t ht)

/-- Without resets the count of the timer is what its workers count. -/
theorem count_eq (hc : CountsFor o counter l m) (h : History l m) (hs : Happens m a m')
    (hreset : ∀ caught, a ≠ .reset o caught) : m'.world.clockwork.count counter =
      m.world.clockwork.count counter + if a.isCountOf (runsOf o l) then 1 else 0 := by
  by_cases hown : a.isCountOf (runsOf o l) = true
  · rw [if_pos hown]
    obtain ⟨r, posted, rfl, hr⟩ := isCountOf_eq_true.1 hown
    rw [mem_runsOf] at hr
    obtain ⟨run, run', c, hphase, hstep, rfl⟩ := hs.stepped
    have hcounter := hc.runs r run hr hstep.found
    have hlt : run.counter < m.world.clockwork.counters.length := by
      rw [hcounter, ← h.roster.creations_length]
      exact (List.getElem?_eq_some_iff.1 hc.creation).1
    have hcount := hstep.count hlt
    rw [if_pos hphase, hcounter] at hcount
    exact hcount
  · rw [if_neg hown, UInt32.add_zero]
    rcases hs.count counter with hsame | ⟨r, run, posted, rfl, hrun, hk, -⟩ |
      ⟨p, t, caught, rfl, ht, hk, -⟩
    · exact hsame
    · have hr := h.roster.started_of_counter hrun (hk ▸ hc.creation)
      exact absurd (isCountOf_eq_true.2 ⟨r, posted, rfl, mem_runsOf.2 hr⟩) hown
    · have hp := (h.roster.timers p t ht).2
      rw [hk, hc.creation] at hp
      obtain rfl := Option.some.inj hp
      exact absurd rfl (hreset caught)

end CountsFor

theorem Happens.phase?_of_unmoved (hs : Happens m a m')
    (ha : ∀ r place posted, a ≠ worked r place posted) (hr : started o r ∈ l ++ [a])
    {p : RunPhase} (hp : m'.world.phase? r = some p) (hnew : p ≠ .queued) :
    started o r ∈ l ∧ m.world.phase? r = some p := by
  rcases (hs.unmoved (ha r)).phase? with hsame | ⟨-, hqueued⟩
  · rw [hsame] at hp
    refine ⟨(List.mem_append.1 hr).resolve_right fun hlast => ?_, hp⟩
    obtain rfl := List.mem_singleton.1 hlast
    obtain ⟨rfl, -⟩ := hs.starts
    rw [World.phase?, Clockwork.run?, List.getElem?_eq_none (Nat.le_refl _)] at hp
    cases hp
  · exact absurd (Option.some.inj (hp.symm.trans hqueued)) hnew

/-! How far a count can get -/

namespace RunPhase

def mayCount (limit : UInt32) : RunPhase → Bool
  | queued | asleep _ | testing | counting => true
  | posting n | syncing n | awaiting n _ => n < limit
  | completing | announcing | closing | retiring | done => false

end RunPhase

theorem Clockwork.Advance.mayCount {c : Clockwork} {run : TimerRun} {p : RunPhase}
    {posted : List Event} (h : c.Advance r run p posted) (hlimit : run.repeatCount ≠ 0)
    (hp : p.mayCount run.repeatCount) (hcount : run.phase ≠ .counting) :
    run.phase.mayCount run.repeatCount := by
  cases h with
  | count hphase => exact absurd hphase hcount
  | fire hphase | meet hphase =>
    rw [hphase]
    exact hp
  | again hphase hq hn =>
    rw [hphase]
    exact decide_eq_true (UInt32.not_le.1 fun hle => hn ⟨hlimit, hle⟩)
  | lieDown hphase | wake hphase | pass hphase =>
    rw [hphase]
    rfl
  | leave | fireGone | meetGone | dropped | exhaust | finish | announce | announceGone | close
  | retire | retireGone => cases hp

theorem Clockwork.Advance.of_counting {c : Clockwork} {run : TimerRun} {p : RunPhase}
    {posted : List Event} (h : c.Advance r run p posted) (hp : run.phase = .counting) :
    p = .posting (c.count run.counter + 1) := by
  cases h with
  | count => rfl
  | lieDown hp' | wake hp' | pass hp' | leave hp' | fire hp' | fireGone hp' | meet hp'
  | meetGone hp' | dropped hp' | exhaust hp' | again hp' | finish hp' | announce hp'
  | announceGone hp' | close hp' | retire hp' | retireGone hp' => cases hp.symm.trans hp'

/-- Only the worker of a run that nobody stopped gets past its test. -/
theorem Clockwork.Advance.not_cancelled {c : Clockwork} {run : TimerRun} {p : RunPhase}
    {posted : List Event} (h : c.Advance r run p posted) (hp : p = .counting) :
    run.cancelled = false := by
  subst hp
  cases h with
  | pass _ hc => exact hc

/-- What a limit means for the count of a timer that has lapsed so often: `late` are the workers
that will still count although their runs do not stand. -/
structure Capped (o : ObjectId) (limit count : UInt32) (lapses : Nat) (l : List Occurrence)
    (w : World) (late : Finset RunId) : Prop where
  covers : ∀ r, started o r ∈ l → standing o l ≠ some r → w.phase? r = some .counting → r ∈ late
  below : count < limit → late.card ≤ lapses
  above : limit ≤ count → count.toNat + late.card ≤ limit.toNat + lapses
  /-- a run that stands and may count again was started at the limit -/
  spare : limit ≤ count → ∀ r p, standing o l = some r → w.phase? r = some p →
    p.mayCount limit → count.toNat + late.card < limit.toNat + lapses

theorem Capped.lt_of_counting {lapses : Nat} {w : World} {late : Finset RunId}
    (h : Capped o limit count lapses l w late) (hr : started o r ∈ l)
    (hp : w.phase? r = some .counting) (hle : limit ≤ count) :
    count.toNat < limit.toNat + lapses := by
  by_cases hstands : standing o l = some r
  · exact Nat.lt_of_le_of_lt (Nat.le_add_right _ _) (h.spare hle r _ hstands hp rfl)
  · have hpos : 0 < late.card := Finset.card_pos.2 ⟨r, h.covers r hr hstands hp⟩
    have habove := h.above hle
    omega

namespace Capped

variable {lapses : Nat} {late : Finset RunId}

theorem caught (hcap : Capped o limit count lapses l m.world late) (hs : Happens m a m')
    (ha : ∀ r place posted, a ≠ worked r place posted) (hstanding : standing o l = some r)
    (hends : standing o (l ++ [a]) = none) :
    Capped o limit count (lapses + 1) (l ++ [a]) m'.world (insert r late) where
  covers q hq _ hp := by
    obtain ⟨hq, hp⟩ := hs.phase?_of_unmoved ha hq hp (by simp)
    by_cases hstands : standing o l = some q
    · rw [Option.some.inj (hstanding.symm.trans hstands)]
      exact Finset.mem_insert_self q late
    · exact Finset.mem_insert_of_mem (hcap.covers q hq hstands hp)
  below hlt := Nat.le_trans (Finset.card_insert_le r late) (Nat.succ_le_succ (hcap.below hlt))
  above hle := by
    have hcard := Finset.card_insert_le r late
    have := hcap.above hle
    omega
  spare hle q p hstands := by cases hends.symm.trans hstands

theorem uncaught (hcap : Capped o limit count lapses l m.world late) (h : History l m)
    (hs : Happens m a m') (ha : ∀ r place posted, a ≠ worked r place posted)
    (hcatch : ¬(a.catches o = true ∧
      ∃ r, standing o l = some r ∧ m.world.phase? r = some .counting)) :
    Capped o limit count (lapses + if a.lapses o limit count then 1 else 0) (l ++ [a])
      m'.world late where
  covers r hr hends hp := by
    obtain ⟨hr, hp⟩ := hs.phase?_of_unmoved ha hr hp (by simp)
    by_cases hstands : standing o l = some r
    · exact absurd ⟨h.catches_of_counting hs hstands hends hp, r, hstands, hp⟩ hcatch
    · exact hcap.covers r hr hstands hp
  below hlt := Nat.le_add_right_of_le (hcap.below hlt)
  above hle := Nat.le_trans (hcap.above hle) (by omega)
  spare hle r p hstands hp hmay := by
    rw [standing_snoc] at hstands
    rcases stands_eq_some hstands with rfl | hstood
    · have hlapses : (started o r).lapses o limit count = true := by simp [Occurrence.lapses, hle]
      rw [if_pos hlapses]
      exact Nat.lt_succ_of_le (hcap.above hle)
    · refine Nat.lt_of_lt_of_le (hcap.spare hle r p hstood ?_ hmay) (by omega)
      obtain ⟨run, hrun⟩ := h.exists_run (started_of_standing hstood)
      rcases (hs.unmoved (ha r)).phase? with hsame | ⟨hnone, -⟩
      · exact hsame.symm.trans hp
      · rw [World.phase?, hrun] at hnone
        cases hnone

theorem unmoved (hcap : Capped o limit count lapses l m.world late) (h : History l m)
    (hs : Happens m a m') (ha : ∀ r place posted, a ≠ worked r place posted) :
    ∃ late, Capped o limit count (lapses + if a.lapses o limit count then 1 else 0) (l ++ [a])
      m'.world late := by
  by_cases hcatch : a.catches o = true ∧
      ∃ r, standing o l = some r ∧ m.world.phase? r = some .counting
  · obtain ⟨hcatches, r, hstanding, -⟩ := hcatch
    obtain ⟨caught, hstop⟩ : ∃ caught, a = stopped o caught ∨ a = .reset o caught := by
      cases a with
      | stopped p caught | reset p caught =>
        have hp : p = o ∧ caught = some .counting := by simpa [catches] using hcatches
        exact ⟨caught, by simp [hp.1]⟩
      | _ => cases hcatches
    have hlapses : a.lapses o limit count = true := by
      rcases hstop with rfl | rfl <;> exact hcatches
    rw [if_pos hlapses]
    exact ⟨insert r late, hcap.caught hs ha hstanding (standing_of_ended hstop l)⟩
  · exact ⟨late, hcap.uncaught h hs ha hcatch⟩

/-! The steps of workers -/

theorem kept (hcap : Capped o limit count lapses l m.world late)
    (hstanding : standing o (l ++ [a]) = standing o l)
    (hstarted : ∀ r, started o r ∈ l ++ [a] → started o r ∈ l)
    (hlate : ∀ r, started o r ∈ l → standing o l ≠ some r →
      m'.world.phase? r = some .counting → m.world.phase? r = some .counting)
    (hspare : ∀ r p, standing o l = some r → m'.world.phase? r = some p → p.mayCount limit →
      ∃ p, m.world.phase? r = some p ∧ p.mayCount limit) :
    Capped o limit count lapses (l ++ [a]) m'.world late where
  covers r hr hends hp := by
    rw [hstanding] at hends
    exact hcap.covers r (hstarted r hr) hends (hlate r (hstarted r hr) hends hp)
  below := hcap.below
  above := hcap.above
  spare hle r p hstands hp hmay := by
    rw [hstanding] at hstands
    obtain ⟨p₀, hp₀, hmay₀⟩ := hspare r p hstands hp hmay
    exact hcap.spare hle r p₀ hstands hp₀ hmay₀

theorem toNat_succ_le (n : UInt32) : (n + 1).toNat ≤ n.toNat + 1 := by
  rw [UInt32.toNat_add]
  exact Nat.mod_le _ _

theorem toNat_succ_le_of_lt (hlt : count < limit) : (count + 1).toNat ≤ limit.toNat :=
  Nat.le_trans (toNat_succ_le count) (UInt32.lt_iff_toNat_lt.1 hlt)

theorem counted_standing (hcap : Capped o limit count lapses l m.world late)
    (hstanding : standing o (l ++ [a]) = standing o l)
    (hstarted : ∀ q, started o q ∈ l ++ [a] → started o q ∈ l) (hstands : standing o l = some r)
    (hp : m.world.phase? r = some .counting)
    (hnext : m'.world.phase? r = some (.posting (count + 1)))
    (hothers : ∀ q, q ≠ r → m'.world.phase? q = m.world.phase? q) :
    Capped o limit (count + 1) lapses (l ++ [a]) m'.world late where
  covers q hq hends hcounting := by
    rw [hstanding] at hends
    have hne : q ≠ r := fun heq => hends (heq ▸ hstands)
    exact hcap.covers q (hstarted q hq) hends (hothers q hne ▸ hcounting)
  below _ := by
    rcases UInt32.lt_or_le count limit with hlt | hle
    · exact hcap.below hlt
    · have := hcap.above hle
      have := UInt32.le_iff_toNat_le.1 hle
      omega
  above _ := by
    rcases UInt32.lt_or_le count limit with hlt | hle
    · exact Nat.add_le_add (toNat_succ_le_of_lt hlt) (hcap.below hlt)
    · have := hcap.spare hle r _ hstands hp rfl
      have := toNat_succ_le count
      omega
  spare hle q p hq hphase hmay := by
    rw [hstanding, hstands] at hq
    obtain rfl := Option.some.inj hq
    obtain rfl := Option.some.inj (hnext.symm.trans hphase)
    exact absurd (of_decide_eq_true hmay) (UInt32.not_lt.2 hle)

theorem counted_late (hcap : Capped o limit count lapses l m.world late)
    (hstanding : standing o (l ++ [a]) = standing o l)
    (hstarted : ∀ q, started o q ∈ l ++ [a] → started o q ∈ l) (hr : r ∈ late)
    (hstands : standing o l ≠ some r) (hnext : m'.world.phase? r = some (.posting (count + 1)))
    (hothers : ∀ q, q ≠ r → m'.world.phase? q = m.world.phase? q) :
    Capped o limit (count + 1) lapses (l ++ [a]) m'.world (late.erase r) where
  covers q hq hends hcounting := by
    have hne : q ≠ r := by
      rintro rfl
      cases hnext.symm.trans hcounting
    rw [hstanding] at hends
    exact Finset.mem_erase.2
      ⟨hne, hcap.covers q (hstarted q hq) hends (hothers q hne ▸ hcounting)⟩
  below _ := by
    have hcard := Finset.card_erase_add_one hr
    rcases UInt32.lt_or_le count limit with hlt | hle
    · have := hcap.below hlt
      omega
    · have := hcap.above hle
      have := UInt32.le_iff_toNat_le.1 hle
      omega
  above _ := by
    have hcard := Finset.card_erase_add_one hr
    rcases UInt32.lt_or_le count limit with hlt | hle
    · have := hcap.below hlt
      have := toNat_succ_le_of_lt hlt
      omega
    · have := hcap.above hle
      have := toNat_succ_le count
      omega
  spare _ q p hq hphase hmay := by
    have hcard := Finset.card_erase_add_one hr
    rw [hstanding] at hq
    have hne : q ≠ r := fun heq => hstands (heq ▸ hq)
    rcases UInt32.lt_or_le count limit with hlt | hle
    · have := hcap.below hlt
      have := toNat_succ_le_of_lt hlt
      omega
    · have := hcap.spare hle q p hq (hothers q hne ▸ hphase) hmay
      have := toNat_succ_le count
      omega

theorem counted (hcap : Capped o limit count lapses l m.world late)
    (hstanding : standing o (l ++ [a]) = standing o l)
    (hstarted : ∀ q, started o q ∈ l ++ [a] → started o q ∈ l)
    (hr : started o r ∈ l) (hp : m.world.phase? r = some .counting)
    (hnext : m'.world.phase? r = some (.posting (count + 1)))
    (hothers : ∀ q, q ≠ r → m'.world.phase? q = m.world.phase? q) :
    ∃ late, Capped o limit (count + 1) lapses (l ++ [a]) m'.world late := by
  by_cases hstands : standing o l = some r
  · exact ⟨late, hcap.counted_standing hstanding hstarted hstands hp hnext hothers⟩
  · have hlate := hcap.covers r hr hstands hp
    exact ⟨late.erase r, hcap.counted_late hstanding hstarted hlate hstands hnext hothers⟩

theorem stepped {place : RunPhase} {posted : List Event} (hc : CountsFor o counter l m)
    (h : History l m) (hlimit : ∀ r run, started o r ∈ l →
      m.world.clockwork.run? r = some run → run.repeatCount = limit) (hpos : limit ≠ 0)
    (hcap : Capped o limit (m.world.clockwork.count counter) lapses l m.world late)
    (hs : Happens m (worked r place posted) m') :
    ∃ late, Capped o limit (m'.world.clockwork.count counter) lapses
      (l ++ [worked r place posted]) m'.world late := by
  rw [hc.count_eq h hs (by simp)]
  obtain ⟨run, run', c, rfl, hstep, rfl⟩ := hs.stepped
  have hphase := World.phase?_of_stepped hstep
  have hstanding : standing o (l ++ [worked r run.phase posted]) = standing o l := standing_snoc ..
  have hstarted : ∀ q, started o q ∈ l ++ [worked r run.phase posted] → started o q ∈ l := by
    simp
  by_cases hr : started o r ∈ l
  · have hrepeat := hlimit r run hr hstep.found
    have hcounter := hc.runs r run hr hstep.found
    have hplace : m.world.phase? r = some run.phase := by
      rw [World.phase?, hstep.found]
      rfl
    by_cases hcounting : run.phase = .counting
    · rw [isCountOf_worked, if_pos (by simp [hcounting, mem_runsOf, hr])]
      have hnext : run'.phase = .posting (m.world.clockwork.count counter + 1) := by
        rw [← hcounter]
        exact hstep.advance.of_counting hcounting
      refine hcap.counted hstanding hstarted hr (hcounting ▸ hplace) ?_ fun q hq => ?_
      · rw [hphase, if_pos rfl, hnext]
      · rw [hphase, if_neg hq]
    · rw [isCountOf_worked, if_neg (by simp [hcounting]), UInt32.add_zero]
      refine ⟨late, hcap.kept hstanding hstarted (fun q hq hends hp => ?_)
        fun q p hstands hp hmay => ?_⟩
      · rw [hphase] at hp
        split at hp
        · rename_i heq
          have hlive := hstep.advance.not_cancelled (Option.some.inj hp)
          have hended := (h.roster.runs o r run (mem_starts_iff.2 hr) hstep.found).2.2 (heq ▸ hends)
          cases hlive.symm.trans hended
        · exact hp
      · rw [hphase] at hp
        split at hp
        · rename_i heq
          obtain rfl := Option.some.inj hp
          refine ⟨run.phase, heq ▸ hplace, ?_⟩
          rw [← hrepeat] at hmay ⊢
          exact hstep.advance.mayCount (hrepeat ▸ hpos) hmay hcounting
        · exact ⟨p, hp, hmay⟩
  · have hother : ∀ q, started o q ∈ l → q ≠ r := fun q hq heq => hr (heq ▸ hq)
    rw [isCountOf_worked, if_neg (by simp [mem_runsOf, hr]), UInt32.add_zero]
    refine ⟨late, hcap.kept hstanding hstarted (fun q hq _ hp => ?_) fun q p hstands hp hmay => ?_⟩
    · rwa [hphase, if_neg (hother q hq)] at hp
    · rw [hphase, if_neg (hother q (started_of_standing hstands))] at hp
      exact ⟨p, hp, hmay⟩

end Capped

/-! Fires -/

theorem countP_posts (place : RunPhase) (posted : List Event) (rs : List RunId) :
    (Occurrence.posts (worked r place posted)).countP
      (fun e => decide (e.1 ∈ rs ∧ e.2 = fire e.1)) =
      if r ∈ rs then posted.count (fire r) else 0 := by
  rw [Occurrence.posts, List.countP_map]
  split
  · rename_i hr
    refine List.countP_congr fun e _ => ?_
    simp [hr]
  · rename_i hr
    exact List.countP_eq_zero.2 fun e _ => by simp [hr]

/-- A worker counts, then posts its fire, and posts it once. -/
theorem Clockwork.Advance.fire_cases {c : Clockwork} {run : TimerRun} {p : RunPhase}
    {posted : List Event} (h : c.Advance r run p posted) :
    (run.phase = .counting ∧ posted = []) ∨
    ((∃ n, run.phase = .posting n) ∧ posted = [ScriptPlayer.fire r] ∧ ∀ n, p ≠ .posting n) ∨
    (run.phase ≠ .counting ∧ posted.count (ScriptPlayer.fire r) = 0 ∧
      ∀ n, p ≠ .posting n) := by
  cases h with
  | count hp => exact .inl ⟨hp, rfl⟩
  | fire hp => exact .inr (.inl ⟨⟨_, hp⟩, rfl, by simp⟩)
  | lieDown hp | wake hp | pass hp | leave hp | fireGone hp | meet hp | meetGone hp | dropped hp
  | exhaust hp | again hp | finish hp | announceGone hp | close hp | retire hp | retireGone hp =>
    exact .inr (.inr ⟨by simp [hp], by simp [ScriptPlayer.fire], by simp⟩)
  | announce hp =>
    refine .inr (.inr ⟨by simp [hp], ?_, by simp⟩)
    exact List.count_eq_zero.2 fun hmem => completion_ne_fire r (List.mem_singleton.1 hmem).symm

/-- The workers that have yet to post a fire that they have counted are among `due`. -/
structure Posted (o : ObjectId) (g : Meter) (earlier : Nat) (l : List Occurrence) (w : World)
    (due : Finset RunId) : Prop where
  covers : ∀ r n, started o r ∈ l → w.phase? r = some (.posting n) → r ∈ due
  le : g.fires + due.card ≤ g.counts + earlier

theorem Posted.stepped {g : Meter} {earlier : Nat} {due : Finset RunId} {place : RunPhase}
    {posted : List Event} (hdue : Posted o g earlier l m.world due) (hruns : g.runs = runsOf o l)
    (hs : Happens m (worked r place posted) m') (limit : UInt32) :
    ∃ due, Posted o (g.next o limit (worked r place posted)) earlier
      (l ++ [worked r place posted]) m'.world due := by
  obtain ⟨run, run', c, rfl, hstep, rfl⟩ := hs.stepped
  have hphase := World.phase?_of_stepped hstep
  have hplace : m.world.phase? r = some run.phase := by
    rw [World.phase?, hstep.found]
    rfl
  have hstarted : ∀ q, started o q ∈ l ++ [worked r run.phase posted] → started o q ∈ l := by
    simp
  have hle := hdue.le
  unfold Meter.next
  rw [countP_posts, hruns, isCountOf_worked]
  by_cases hr : started o r ∈ l
  · rw [if_pos (mem_runsOf.2 hr)]
    rcases hstep.advance.fire_cases with ⟨hcounting, rfl⟩ | ⟨⟨n, hposting⟩, rfl, hnext⟩ |
      ⟨hcounting, hnone, hnext⟩
    · refine ⟨insert r due, fun q n hq hp => ?_, ?_⟩
      · rw [hphase] at hp
        split at hp
        · rename_i heq
          exact heq ▸ Finset.mem_insert_self r due
        · exact Finset.mem_insert_of_mem (hdue.covers q n (hstarted q hq) hp)
      · have := Finset.card_insert_le r due
        simp [mem_runsOf, hr, hcounting]
        omega
    · have hcard := Finset.card_erase_add_one (hdue.covers r n hr (hposting ▸ hplace))
      refine ⟨due.erase r, fun q n hq hp => ?_, ?_⟩
      · rw [hphase] at hp
        split at hp
        · exact absurd (Option.some.inj hp) (hnext n)
        · rename_i hne
          exact Finset.mem_erase.2 ⟨hne, hdue.covers q n (hstarted q hq) hp⟩
      · simp [hposting]
        omega
    · refine ⟨due, fun q n hq hp => ?_, ?_⟩
      · rw [hphase] at hp
        split at hp
        · exact absurd (Option.some.inj hp) (hnext n)
        · exact hdue.covers q n (hstarted q hq) hp
      · simpa [hnone, hcounting] using hle
  · refine ⟨due, fun q n hq hp => ?_, ?_⟩
    · have hne : q ≠ r := fun heq => hr (heq ▸ hstarted q hq)
      rw [hphase, if_neg hne] at hp
      exact hdue.covers q n (hstarted q hq) hp
    · simpa [mem_runsOf, hr] using hle

theorem Posted.happens {g : Meter} {earlier : Nat} {due : Finset RunId}
    (hdue : Posted o g earlier l m.world due) (hruns : g.runs = runsOf o l) (hs : Happens m a m')
    (limit : UInt32) :
    ∃ due, Posted o (g.next o limit a) earlier (l ++ [a]) m'.world due := by
  rcases a.worked_or_ne with ⟨r, place, posted, rfl⟩ | ha
  · exact hdue.stepped hruns hs limit
  · have hposts : a.posts = [] := by
      cases a with
      | worked r place posted => exact absurd rfl (ha r place posted)
      | _ => rfl
    refine ⟨due, fun r n hr hp => ?_, ?_⟩
    · obtain ⟨hr, hp⟩ := hs.phase?_of_unmoved ha hr hp (by simp)
      exact hdue.covers r n hr hp
    · simpa [Meter.next, hposts, isCountOf_of_ne ha] using hdue.le

structure Metered (o : ObjectId) (limit : UInt32) (counter : CounterId) (lapses earlier : Nat)
    (l : List Occurrence) (m : Moment) (g : Meter) : Prop where
  runs : g.runs = runsOf o l
  count : m.world.clockwork.count counter = .ofNat g.counts
  capped : ∃ late,
    Capped o limit (m.world.clockwork.count counter) (lapses + g.lapses) l m.world late
  posted : ∃ due, Posted o g earlier l m.world due
  counts : limit.toNat + (lapses + g.lapses) < UInt32.size →
    g.counts ≤ limit.toNat + (lapses + g.lapses)

theorem Metered.happens {lapses earlier : Nat} {g : Meter}
    (hg : Metered o limit counter lapses earlier l m g) (h : History l m) (hs : Happens m a m')
    (hc : CountsFor o counter l m) (hreset : ∀ caught, a ≠ .reset o caught) (hpos : limit ≠ 0)
    (hlimit : ∀ r run, started o r ∈ l → m.world.clockwork.run? r = some run →
      run.repeatCount = limit) :
    Metered o limit counter lapses earlier (l ++ [a]) m' (g.next o limit a) := by
  obtain ⟨late, hcap⟩ := hg.capped
  obtain ⟨due, hdue⟩ := hg.posted
  have hcount := hc.count_eq h hs hreset
  refine ⟨?_, ?_, ?_, hdue.happens hg.runs hs limit, ?_⟩
  · rw [runsOf_append, ← hg.runs]
    rfl
  · rw [hcount, hg.count, ← hg.runs]
    change _ = UInt32.ofNat (g.counts + if _ then 1 else 0)
    split
    · exact (UInt32.ofNat_add _ _).symm
    · exact UInt32.add_zero _
  · rcases a.worked_or_ne with ⟨r, place, posted, rfl⟩ | ha
    · exact hcap.stepped hc h hlimit hpos hs
    · rw [hcount, isCountOf_of_ne ha, if_neg Bool.false_ne_true, UInt32.add_zero]
      have hnext := hcap.unmoved h hs ha
      rw [hg.count] at hnext ⊢
      rw [Nat.add_assoc] at hnext
      exact hnext
  · intro hbound
    have hgrows : g.lapses ≤ (g.next o limit a).lapses := Nat.le_add_right _ _
    have hle := hg.counts (by omega)
    change g.counts + (if _ then 1 else 0) ≤ _
    split
    · rename_i hcounts
      obtain ⟨r, posted, rfl, hr⟩ := isCountOf_eq_true.1 hcounts
      rw [hg.runs, mem_runsOf] at hr
      obtain ⟨run, run', c, hphase, hstep, -⟩ := hs.stepped
      have hp : m.world.phase? r = some .counting := by
        rw [World.phase?, hstep.found, ← hphase]
        rfl
      have hexact : (m.world.clockwork.count counter).toNat = g.counts := by
        rw [hg.count]
        exact UInt32.toNat_ofNat_of_lt' (by omega)
      rcases UInt32.lt_or_le (m.world.clockwork.count counter) limit with hlt | hge
      · have := UInt32.lt_iff_toNat_lt.1 hlt
        omega
      · have := hcap.lt_of_counting hr hp hge
        omega
    · omega

/-- From zero on, as long as the timer is not reset. -/
theorem History.metered (h : History before m) (hcounts : CountsFor o counter before m)
    (hzero : m.world.clockwork.count counter = 0) {late due : Finset RunId}
    (hlate : ∀ r, started o r ∈ before → m.world.phase? r = some .counting → r ∈ late)
    (hdue : ∀ r n, started o r ∈ before → m.world.phase? r = some (.posting n) → r ∈ due)
    (hc : Course m after m') (hreset : ∀ caught, .reset o caught ∉ after) (hpos : limit ≠ 0)
    (hlimit : ∀ r run, started o r ∈ before ++ after → m'.world.clockwork.run? r = some run →
      run.repeatCount = limit) :
    CountsFor o counter (before ++ after) m' ∧
      Metered o limit counter late.card due.card (before ++ after) m'
        (.read o limit before after) := by
  induction hc with
  | nil =>
    have hbelow : ¬ limit ≤ m.world.clockwork.count counter := by
      rw [hzero]
      exact fun hle => hpos (UInt32.le_zero_iff.1 hle)
    rw [List.append_nil]
    refine ⟨hcounts, rfl, hzero, ⟨late, fun r hr _ => hlate r hr, fun _ => Nat.le_refl _,
      fun hle => absurd hle hbelow, fun hle => absurd hle hbelow⟩,
      ⟨due, hdue, Nat.add_comm .. ▸ Nat.le_refl _⟩, fun _ => Nat.zero_le _⟩
  | @snoc after a m₁ m₂ hc hs ih =>
    have h₁ := h.append hc
    have hlimit₁ : ∀ r run, started o r ∈ before ++ after → m₁.world.clockwork.run? r = some run →
        run.repeatCount = limit := by
      intro r run hr hrun
      obtain ⟨run', hrun', -, hsame⟩ := hs.run?_of_earlier hrun
      rw [← hsame]
      exact hlimit r run' (by rw [← List.append_assoc]; exact List.mem_append_left _ hr) hrun'
    obtain ⟨hcounts₁, hg⟩ :=
      ih (fun caught hmem => hreset caught (List.mem_append_left _ hmem)) hlimit₁
    have hlast : ∀ caught, a ≠ .reset o caught := by
      rintro caught rfl
      exact hreset caught (by simp)
    rw [← List.append_assoc, Meter.read_snoc]
    exact ⟨hcounts₁.happens h₁ hs, hg.happens h₁ hs hcounts₁ hlast hpos hlimit₁⟩

/-- Let the count of a timer be zero, let `late` be the runs of the timer whose workers are about to
count and `due` those whose workers are about to post a fire, and let the timer not be reset after
that. If its runs have a limit, the count never gets further past it than by the lapses and the late
workers; nor do its fires, those due at the beginning apart, unless that is beyond what a count can
hold. -/
theorem History.count_le_limit {t : TimerState} (h : History before m)
    (ht : m.world.timer? o = some t) (hzero : m.world.clockwork.count t.counter = 0)
    (late due : Finset RunId)
    (hlate : ∀ r, started o r ∈ before → m.world.phase? r = some .counting → r ∈ late)
    (hdue : ∀ r n, started o r ∈ before → m.world.phase? r = some (.posting n) → r ∈ due)
    (hc : Course m after m') (hreset : ∀ caught, .reset o caught ∉ after) (hpos : limit ≠ 0)
    (hlimit : ∀ r run, started o r ∈ before ++ after → m'.world.clockwork.run? r = some run →
      run.repeatCount = limit) :
    let g := Meter.read o limit before after
    let most := limit.toNat + (late.card + g.lapses)
    m'.world.clockwork.count t.counter = .ofNat g.counts ∧
      (m'.world.clockwork.count t.counter).toNat ≤ most ∧
      (most < UInt32.size → g.counts ≤ most ∧ g.fires ≤ most + due.card) := by
  intro g most
  obtain ⟨-, hg⟩ := h.metered (.of_timer h ht) hzero hlate hdue hc hreset hpos hlimit
  obtain ⟨late, hcap⟩ := hg.capped
  obtain ⟨due', hposted⟩ := hg.posted
  refine ⟨hg.count, ?_, fun hmost => ?_⟩
  · rcases UInt32.lt_or_le (m'.world.clockwork.count t.counter) limit with hlt | hge
    · exact Nat.le_trans (Nat.le_of_lt (UInt32.lt_iff_toNat_lt.1 hlt)) (Nat.le_add_right _ _)
    · exact Nat.le_trans (Nat.le_add_right _ _) (hcap.above hge)
  · have hcounted : g.counts ≤ most := hg.counts hmost
    have hfires : g.fires + due'.card ≤ g.counts + due.card := hposted.le
    exact ⟨hcounted, by omega⟩

def firstRun : List Occurrence :=
  [started 0 0, elsewhere, worked 0 .queued []] ++ lap 0 1 0 ++ round 0 0 (some 0) ++
    [worked 0 (.awaiting 1 0) [], worked 0 .completing [], worked 0 .announcing [completion 0],
      worked 0 .closing [], worked 0 .retiring [.retire 0]]

def secondRun : List Occurrence :=
  [started 0 1, elsewhere, worked 1 .queued [], worked 1 (.asleep 0) [], worked 1 .testing [],
    worked 1 .counting [], worked 1 (.posting 2) [fire 1]]

theorem History.exists_secondRun : ∃ m m' t, History [created 0, configured 0] m ∧
    Course m (firstRun ++ secondRun) m' ∧ m.world.timer? 0 = some t ∧ t.repeatCount = 1 ∧
    m.world.clockwork.count t.counter = 0 ∧
    (∀ run ∈ m'.world.clockwork.runs, run.repeatCount = 1) ∧
    (m'.world.timer? 0).map (fun t => m'.world.clockwork.count t.counter) = some 2 := by
  obtain ⟨m, m₁, m', h, hfirst, hsecond, hseen⟩ := History.exists_of_plays (Cue.timer 1)
    ([.start 0, .move (.start 0)] ++ Cue.steps 0 6 ++ Cue.handles 2 ++ Cue.steps 0 5)
    ([.start 0, .move (.start 1)] ++ Cue.steps 1 5)
    [created 0, configured 0] firstRun secondRun
    (fun m _ m' => ((m.world.timer? 0).map fun t =>
      (t.repeatCount, m.world.clockwork.count t.counter),
      decide (∀ run ∈ m'.world.clockwork.runs, run.repeatCount = 1),
      (m'.world.timer? 0).map fun t => m'.world.clockwork.count t.counter))
    (some (1, 0), true, some 2) (by decide +kernel)
  simp only [Prod.mk.injEq, decide_eq_true_iff, Option.map_eq_some_iff] at hseen
  obtain ⟨⟨t, ht, hlimit, hzero⟩, hruns, t', ht', htwo⟩ := hseen
  exact ⟨m, m', t, h, hfirst.append hsecond, ht, hlimit, hzero, hruns,
    Option.map_eq_some_iff.2 ⟨t', ht', htwo⟩⟩

theorem History.count_le_limit_secondRun : ∃ m m' t, History [created 0, configured 0] m ∧
    Course m (firstRun ++ secondRun) m' ∧ m.world.timer? 0 = some t ∧ t.repeatCount = 1 ∧
    (Meter.read 0 1 [created 0, configured 0] (firstRun ++ secondRun)).lapses = 1 ∧
    (Meter.read 0 1 [created 0, configured 0] (firstRun ++ secondRun)).fires = 2 ∧
    m'.world.clockwork.count t.counter = 2 ∧
    (m'.world.clockwork.count t.counter).toNat ≤ 1 + (0 + 1) := by
  obtain ⟨m, m', t, h, hc, ht, hlimit, hzero, hruns, -⟩ := History.exists_secondRun
  have hreset : ∀ caught, .reset 0 caught ∉ firstRun ++ secondRun := by
    simp [firstRun, secondRun, lap, Occurrence.round]
  have hone : ∀ r run, started 0 r ∈ [created 0, configured 0] ++ (firstRun ++ secondRun) →
      m'.world.clockwork.run? r = some run → run.repeatCount = 1 :=
    fun r run _ hrun => hruns run (List.mem_of_getElem? hrun)
  obtain ⟨hcount, hmost, -⟩ := h.count_le_limit ht hzero ∅ ∅ (by simp) (by simp) hc hreset
    (by decide) hone
  exact ⟨m, m', t, h, hc, ht, hlimit, by decide, by decide, hcount, hmost⟩

/-- A timer that fires once has fired twice without a stop or a reset. -/
theorem History.count_exceeds_limit : ∃ m m' t t', History [created 0, configured 0] m ∧
    Course m (firstRun ++ secondRun) m' ∧ m.world.timer? 0 = some t ∧ t.repeatCount = 1 ∧
    m.world.clockwork.count t.counter = 0 ∧
    (∀ caught, stopped 0 caught ∉ firstRun ++ secondRun ∧ .reset 0 caught ∉ firstRun ++ secondRun) ∧
    m'.world.timer? 0 = some t' ∧ t.repeatCount < m'.world.clockwork.count t'.counter ∧
    (events (firstRun ++ secondRun)).countP (fun e => e = fire 0 ∨ e = fire 1) = 2 := by
  obtain ⟨m, m', t, h, hc, ht, hlimit, hzero, -, htwo⟩ := History.exists_secondRun
  obtain ⟨t', ht', htwo⟩ := Option.map_eq_some_iff.1 htwo
  refine ⟨m, m', t, t', h, hc, ht, hlimit, hzero, fun caught => ?_, ht', ?_, by decide⟩
  · simp [firstRun, secondRun, lap, Occurrence.round]
  · rw [hlimit, htwo]
    decide

end ScriptPlayer
