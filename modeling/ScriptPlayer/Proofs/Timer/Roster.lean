import Mathlib.Data.List.Nodup
import ScriptPlayer.Proofs.Timer.History

/-! Who stands in the target table. Of the runs that a timer has started at most one stands: the
last, unless it has been stopped since. The table has an entry only for runs that stand, and the
timer records its standing run for as long as it lives. -/
namespace ScriptPlayer

namespace Occurrence

/-- The run of a timer that stands after this, given the one before. -/
def stands (o : ObjectId) (before : Option RunId) : Occurrence → Option RunId
  | started p r => if p = o then some r else before
  | stopped p _ | reset p _ => if p = o then none else before
  | _ => before

def start? : Occurrence → Option (ObjectId × RunId)
  | started o r => some (o, r)
  | _ => none

def creation? : Occurrence → Option ObjectId
  | created o => some o
  | _ => none

def isPlain : Occurrence → Bool
  | created _ | started .. | stopped .. | reset .. => false
  | _ => true

end Occurrence

open Occurrence

def standing (o : ObjectId) (l : List Occurrence) : Option RunId :=
  l.foldl (fun before a => a.stands o before) none

def starts (l : List Occurrence) : List (ObjectId × RunId) := l.filterMap start?

def creations (l : List Occurrence) : List ObjectId := l.filterMap creation?

section Entries

variable {l k : List Occurrence} {a : Occurrence} {o p : ObjectId} {r : RunId}

@[simp] theorem standing_snoc (o : ObjectId) (l : List Occurrence) (a : Occurrence) :
    standing o (l ++ [a]) = a.stands o (standing o l) := by
  simp [standing]

@[simp] theorem starts_snoc (l : List Occurrence) (a : Occurrence) :
    starts (l ++ [a]) = starts l ++ a.start?.toList := by
  cases h : a.start? <;> simp [starts, h]

@[simp] theorem creations_snoc (l : List Occurrence) (a : Occurrence) :
    creations (l ++ [a]) = creations l ++ a.creation?.toList := by
  cases h : a.creation? <;> simp [creations, h]

theorem mem_starts_iff : (o, r) ∈ starts l ↔ started o r ∈ l := by
  unfold starts
  rw [List.mem_filterMap]
  constructor
  · rintro ⟨a, ha, h⟩
    cases a with
    | started p q =>
      obtain ⟨rfl, rfl⟩ := Prod.mk.inj (Option.some.inj h)
      exact ha
    | _ => cases h
  · exact fun h => ⟨_, h, rfl⟩

theorem Occurrence.stands_eq_some {before : Option RunId} (h : a.stands o before = some r) :
    a = started o r ∨ before = some r := by
  cases a with
  | started p q =>
    change (if p = o then some q else before) = some r at h
    split at h
    · rename_i hp
      exact Or.inl (by rw [hp, Option.some.inj h])
    · exact Or.inr h
  | stopped p caught | reset p caught =>
    change (if p = o then none else before) = some r at h
    split at h
    · cases h
    · exact Or.inr h
  | _ => exact Or.inr h

theorem started_of_standing (h : standing o l = some r) : started o r ∈ l := by
  induction l using List.reverseRecOn with
  | nil => cases h
  | append_singleton l a ih =>
    rw [standing_snoc] at h
    rcases stands_eq_some h with rfl | h
    · exact List.mem_append_right l (List.mem_singleton_self _)
    · exact List.mem_append_left _ (ih h)

end Entries

/-- A world after something plain: timers keep their runs and counters, runs their counters and
stop flags, and targets can only be given up. -/
structure World.Plain (w w' : World) : Prop where
  timers : ∃ f, w.Retimes f w' ∧ ∀ o t, (f o t).run = t.run ∧ (f o t).counter = t.counter
  targets : ∀ e ∈ w'.targets, e ∈ w.targets
  counters : w'.clockwork.counters.length = w.clockwork.counters.length
  length : w'.clockwork.runs.length = w.clockwork.runs.length
  runs : ∀ r run', w'.clockwork.run? r = some run' → ∃ run, w.clockwork.run? r = some run ∧
    run'.counter = run.counter ∧ run'.cancelled = run.cancelled

namespace World

variable {w w' : World}

theorem plain_of_quiet (ht : w.KeepsTimers w') (htargets : ∀ e ∈ w'.targets, e ∈ w.targets)
    (hc : w'.clockwork.counters = w.clockwork.counters)
    (hr : w'.clockwork.runs = w.clockwork.runs) : w.Plain w' where
  timers := ⟨_, ht, fun _ _ => ⟨rfl, rfl⟩⟩
  targets := htargets
  counters := congrArg List.length hc
  length := congrArg List.length hr
  runs r run' h := ⟨run', by rwa [Clockwork.run?, ← hr], rfl, rfl⟩

theorem Configures.plain {o : ObjectId} (h : w.Configures o w') : w.Plain w' where
  timers := by
    obtain ⟨delay, repeatCount, ht⟩ := h.retimes
    refine ⟨_, ht, fun p t => ?_⟩
    unfold TimerState.changeAt
    split <;> exact ⟨rfl, rfl⟩
  targets e he := h.targets ▸ he
  counters := by rw [h.clockwork]
  length := by rw [h.clockwork]
  runs r run' hr := ⟨run', h.clockwork ▸ hr, rfl, rfl⟩

theorem plain_of_stepped {c : Clockwork} {r : RunId} {run run' : TimerRun} {posted : List Event}
    (h : w.clockwork.Stepped r run run' posted c) : w.Plain { w with clockwork := c } where
  timers := ⟨_, keepsTimers_of_heap rfl, fun _ _ => ⟨rfl, rfl⟩⟩
  targets _ he := he
  counters := by
    change c.counters.length = _
    rw [h.counters, Clockwork.counted]
    split
    · exact List.length_set
    · rfl
  length := by
    change c.runs.length = _
    rw [h.runs, List.length_set]
  runs q run₂ hq := by
    change c.run? q = _ at hq
    rw [h.run?] at hq
    split at hq
    · rename_i hqr
      obtain rfl := Option.some.inj hq
      exact ⟨run, hqr ▸ h.found, h.counter, h.cancelled⟩
    · exact ⟨run₂, hq, rfl, rfl⟩

end World

theorem Happens.plain {m m' : Moment} {a : Occurrence} (h : Happens m a m')
    (ha : a.isPlain = true) : m.world.Plain m'.world := by
  cases h with
  | elsewhere h =>
    exact World.plain_of_quiet h.timers (fun e he => h.targets ▸ he) h.counters h.runs
  | create | start | stop | reset => cases ha
  | init hs h => exact hs ▸ (Run.initTimer_ok h).plain
  | setDelay hs h => exact hs ▸ (Run.setTimerDelay_ok h).plain
  | work hr h hp =>
    obtain ⟨run, run', posted, hstep⟩ := Clockwork.stepRun_cases h
    exact World.plain_of_stepped hstep
  | take hl hs h =>
    obtain ⟨rest, -, hw⟩ := Run.takeEvent_ok h
    rw [hs] at hw
    rw [hw]
    exact World.plain_of_quiet (World.keepsTimers_of_heap rfl) (fun _ he => he) rfl rfl
  | handle hl he hs h =>
    rcases Run.handle_ok h he with ⟨q, -, hw⟩ | ⟨r, -, hw⟩
    · rw [hs] at hw
      rw [hw]
      exact World.plain_of_quiet (World.keepsTimers_of_heap rfl) (fun _ he => he) rfl rfl
    · rw [hs] at hw
      rw [hw]
      exact World.plain_of_quiet (World.keepsTimers_of_fades (World.fades_putTargets _ _))
        (fun _ he => List.mem_of_mem_filter he) rfl rfl
  | finish hl =>
    exact World.plain_of_quiet (World.KeepsTimers.refl _) (fun _ he => he) rfl rfl
  | shutDown hl =>
    exact World.plain_of_quiet (World.keepsTimers_of_fades (World.fades_putTargets m.world []))
      (fun _ he => absurd he List.not_mem_nil) rfl rfl
  | close hl => exact World.plain_of_quiet (World.keepsTimers_of_heap rfl) (fun _ he => he) rfl rfl

/-- What the target table, the timers and the runs have to do with what has happened. -/
structure Roster (l : List Occurrence) (m : Moment) : Prop where
  starts_eq : (starts l).map Prod.snd = List.range m.world.clockwork.runs.length
  creations_length : (creations l).length = m.world.clockwork.counters.length
  targets : ∀ o r, (r, o) ∈ m.world.targets → standing o l = some r
  timers : ∀ o t, m.world.timer? o = some t →
    t.run = standing o l ∧ (creations l)[t.counter]? = some o
  owners : ∀ o r, (o, r) ∈ starts l → o < m.world.heap.cells.length ∧
    ∀ i, m.world.instance? o = some i → i.timer?.isSome
  runs : ∀ o r run, (o, r) ∈ starts l → m.world.clockwork.run? r = some run →
    (creations l)[run.counter]? = some o ∧ (run.cancelled = true ↔ standing o l ≠ some r)

namespace Roster

variable {l : List Occurrence} {m m' : Moment} {a : Occurrence} {o p : ObjectId} {r : RunId}

theorem lt_of_start (h : Roster l m) (hr : (o, r) ∈ starts l) :
    r < m.world.clockwork.runs.length := by
  have hmem : r ∈ (starts l).map Prod.snd := List.mem_map_of_mem hr
  rw [h.starts_eq] at hmem
  exact List.mem_range.1 hmem

theorem owner_unique (h : Roster l m) (ho : (o, r) ∈ starts l) (hp : (p, r) ∈ starts l) :
    o = p := by
  have hnodup : ((starts l).map Prod.snd).Nodup := h.starts_eq ▸ List.nodup_range
  exact congrArg Prod.fst (List.inj_on_of_nodup_map hnodup ho hp rfl)

theorem started_of_counter (h : Roster l m) {run : TimerRun}
    (hrun : m.world.clockwork.run? r = some run) (ho : (creations l)[run.counter]? = some o) :
    started o r ∈ l := by
  have hmem : r ∈ (starts l).map Prod.snd := by
    rw [h.starts_eq, List.mem_range]
    exact (List.getElem?_eq_some_iff.1 hrun).1
  obtain ⟨⟨p, q⟩, hp, rfl⟩ := List.mem_map.1 hmem
  obtain rfl := Option.some.inj ((h.runs p q run hp hrun).1.symm.trans ho)
  exact mem_starts_iff.1 hp

theorem owners_mono (h : Roster l m) {f : ObjectId → TimerState → TimerState}
    (hf : m.world.Retimes f m'.world) (hr : (o, r) ∈ starts l) :
    o < m'.world.heap.cells.length ∧ ∀ j, m'.world.instance? o = some j → j.timer?.isSome := by
  obtain ⟨hlt, halive⟩ := h.owners o r hr
  refine ⟨Nat.lt_of_lt_of_le hlt hf.length, fun j hj => ?_⟩
  rcases hf.timer o j hj with ⟨i, hi, hij⟩ | ⟨hle, -⟩
  · rw [hij, Option.isSome_map]
    exact halive i hi
  · exact absurd hlt (Nat.not_lt.2 hle)

theorem plain (h : Roster l m) (hw : m.world.Plain m'.world) (ha : a.isPlain = true) :
    Roster (l ++ [a]) m' := by
  have hstart : a.start? = none := by cases a <;> first | rfl | cases ha
  have hcreation : a.creation? = none := by cases a <;> first | rfl | cases ha
  have hstands : ∀ o, standing o (l ++ [a]) = standing o l := by
    intro o
    rw [standing_snoc]
    cases a <;> first | rfl | cases ha
  obtain ⟨f, hf, hkeep⟩ := hw.timers
  constructor
  case starts_eq =>
    rw [starts_snoc, hstart, hw.length]
    simpa using h.starts_eq
  case creations_length =>
    rw [creations_snoc, hcreation, hw.counters]
    simpa using h.creations_length
  case targets =>
    intro o r hr
    rw [hstands]
    exact h.targets o r (hw.targets _ hr)
  case timers =>
    intro o t ht
    obtain ⟨t₀, ht₀, rfl⟩ := hf.timer? ht
    rw [hstands, creations_snoc, hcreation, (hkeep o t₀).1, (hkeep o t₀).2]
    simpa using h.timers o t₀ ht₀
  case owners =>
    intro o r hr
    rw [starts_snoc, hstart] at hr
    exact h.owners_mono hf (by simpa using hr)
  case runs =>
    intro o r run' hr hrun'
    rw [starts_snoc, hstart] at hr
    obtain ⟨run, hrun, hcounter, hcancelled⟩ := hw.runs r run' hrun'
    rw [hstands, creations_snoc, hcreation, hcounter, hcancelled]
    simpa using h.runs o r run (by simpa using hr) hrun

theorem create (h : Roster l m) (cls : ClassId) :
    Roster (l ++ [.created m.world.heap.cells.length])
      { m with world := (m.world.spawn cls .timer).2 } := by
  have hclockwork : (m.world.spawn cls .timer).2.clockwork = m.world.clockwork.newCounter.2 :=
    (World.reframes_newInstance _ _).clockwork
  have htargets : (m.world.spawn cls .timer).2.targets = m.world.targets :=
    (World.reframes_newInstance _ _).targets
  have hlength : m.world.heap.cells.length ≤ (m.world.spawn cls .timer).2.heap.cells.length :=
    World.length_cells_newInstance (m.world.newBacking .timer).2 _
  have hcounters : (m.world.clockwork.newCounter.2).counters.length =
      m.world.clockwork.counters.length + 1 := List.length_append
  have hcreated : ∀ {k : CounterId} {p : ObjectId}, (creations l)[k]? = some p →
      (creations l ++ [m.world.heap.cells.length])[k]? = some p := by
    intro k p hk
    rw [List.getElem?_append_left (List.getElem?_eq_some_iff.1 hk).1]
    exact hk
  constructor
  case starts_eq =>
    rw [hclockwork, starts_snoc]
    exact (congrArg _ (List.append_nil _)).trans h.starts_eq
  case creations_length =>
    rw [hclockwork, creations_snoc]
    rw [hcounters, ← h.creations_length]
    exact List.length_append
  case targets =>
    intro o r hr
    rw [htargets] at hr
    rw [standing_snoc]
    exact h.targets o r hr
  case timers =>
    intro o t ht
    rw [standing_snoc, creations_snoc]
    obtain ⟨j, hj, htimer⟩ := Option.bind_eq_some_iff.1 ht
    rcases World.instance?_spawn_timer hj with hj | ⟨rfl, hnew⟩
    · obtain ⟨hrun, hcounter⟩ := h.timers o t (Option.bind_eq_some_iff.2 ⟨j, hj, htimer⟩)
      exact ⟨hrun, hcreated hcounter⟩
    · obtain rfl := Option.some.inj (hnew.symm.trans htimer)
      constructor
      · -- no run was ever started on a cell that was not there
        symm
        refine Option.eq_none_iff_forall_ne_some.2 fun r hr => ?_
        have hstart := mem_starts_iff.2 (started_of_standing hr)
        exact absurd (h.owners _ r hstart).1 (Nat.lt_irrefl _)
      · change (creations l ++ [m.world.heap.cells.length])[m.world.clockwork.counters.length]? = _
        rw [← h.creations_length]
        simp
  case owners =>
    intro o r hr
    rw [starts_snoc] at hr
    obtain ⟨hlt, halive⟩ := h.owners o r (by simpa [start?] using hr)
    refine ⟨Nat.lt_of_lt_of_le hlt hlength, fun j hj => ?_⟩
    rcases World.instance?_spawn_timer hj with hj | ⟨rfl, -⟩
    · exact halive j hj
    · exact absurd hlt (Nat.lt_irrefl _)
  case runs =>
    intro o r run hr hrun
    rw [hclockwork] at hrun
    rw [starts_snoc] at hr
    obtain ⟨hcounter, hcancelled⟩ := h.runs o r run (by simpa [start?] using hr) hrun
    rw [standing_snoc, creations_snoc]
    exact ⟨hcreated hcounter, hcancelled⟩

/-! When a timer gives up its run, `new` is the run that it goes on with, if any. -/

variable {new : Option RunId}

theorem ne_of_target (h : Roster l m) {t : TimerState} (ht : m.world.timer? o = some t)
    (hr : (r, p) ∈ m.world.targets) (hne : t.run ≠ some r) : o ≠ p := by
  rintro rfl
  exact hne ((h.timers o t ht).1.trans (h.targets o r hr))

theorem timer?_of_changeAt (h : Roster l m)
    (hf : m.world.Retimes (TimerState.changeAt o fun t => { t with run := new }) m'.world)
    {t : TimerState} (ht : m'.world.timer? p = some t) :
    t.run = (if o = p then new else standing p l) ∧ (creations l)[t.counter]? = some p := by
  obtain ⟨t₀, ht₀, rfl⟩ := hf.timer? ht
  obtain ⟨hrun₀, hcounter₀⟩ := h.timers p t₀ ht₀
  unfold TimerState.changeAt
  by_cases hp : p = o
  · rw [if_pos hp, if_pos hp.symm]
    exact ⟨rfl, hcounter₀⟩
  · rw [if_neg hp, if_neg (Ne.symm hp)]
    exact ⟨hrun₀, hcounter₀⟩

theorem run?_of_giveUp (h : Roster l m) {t : TimerState} (ht : m.world.timer? o = some t)
    (hr : (p, r) ∈ starts l) (hnew : new ≠ some r) {run' : TimerRun}
    (hrun' : (m.world.clockwork.giveUp t.run).run? r = some run') :
    (creations l)[run'.counter]? = some p ∧
      (run'.cancelled = true ↔ (if o = p then new else standing p l) ≠ some r) := by
  rw [Clockwork.run?_giveUp] at hrun'
  obtain ⟨run, hrun, rfl⟩ := Option.map_eq_some_iff.1 hrun'
  obtain ⟨hcounter, hcancelled⟩ := h.runs p r run hr hrun
  refine ⟨hcounter, ?_⟩
  rw [Bool.or_eq_true, hcancelled, decide_eq_true_iff, (h.timers o t ht).1]
  by_cases hp : o = p
  · subst hp
    simp [em', hnew]
  · rw [if_neg hp, or_iff_left]
    intro hstanding
    have hstarted := mem_starts_iff.2 (started_of_standing hstanding)
    exact hp (h.owner_unique hstarted hr)

theorem giveUp (h : Roster l m) {t : TimerState} (ht : m.world.timer? o = some t)
    (hf : m.world.Retimes (TimerState.changeAt o fun t => { t with run := none }) m'.world)
    (htargets : ∀ e, e ∈ m'.world.targets ↔ e ∈ m.world.targets ∧ t.run ≠ some e.1)
    (hruns : m'.world.clockwork.runs = (m.world.clockwork.giveUp t.run).runs)
    (hcounters : m'.world.clockwork.counters.length = m.world.clockwork.counters.length)
    (hstands : ∀ p before, a.stands p before = if o = p then none else before)
    (hplain : a.start? = none ∧ a.creation? = none) : Roster (l ++ [a]) m' := by
  have hstart : starts (l ++ [a]) = starts l := by simp [hplain.1]
  have hcreation : creations (l ++ [a]) = creations l := by simp [hplain.2]
  constructor
  case starts_eq =>
    rw [hstart, hruns, Clockwork.length_runs_giveUp]
    exact h.starts_eq
  case creations_length =>
    rw [hcreation, hcounters]
    exact h.creations_length
  case targets =>
    intro p r hr
    obtain ⟨hr, hne⟩ := (htargets _).1 hr
    rw [standing_snoc, hstands, if_neg (h.ne_of_target ht hr hne)]
    exact h.targets p r hr
  case timers =>
    intro p t' ht'
    rw [standing_snoc, hstands, hcreation]
    exact h.timer?_of_changeAt hf ht'
  case owners =>
    intro p r hr
    exact h.owners_mono hf (hstart ▸ hr)
  case runs =>
    intro p r run' hr hrun'
    rw [hstart] at hr
    rw [Clockwork.run?, hruns, ← Clockwork.run?] at hrun'
    rw [standing_snoc, hstands, hcreation]
    exact h.run?_of_giveUp ht hr (by simp) hrun'

theorem start (h : Roster l m) {t : TimerState} (hs : m.world.Starts o t m'.world) :
    Roster (l ++ [.started o m.world.clockwork.runs.length]) m' := by
  obtain ⟨ht, -, hf, htargets, delay, hclockwork⟩ := hs
  have hlen := World.length_of_timer? ht
  have hruns : m'.world.clockwork.runs = (m.world.clockwork.giveUp t.run).runs ++
      [⟨t.counter, delay, t.repeatCount, false, false, .queued⟩] :=
    congrArg Clockwork.runs hclockwork
  have hstart : starts (l ++ [.started o m.world.clockwork.runs.length]) =
      starts l ++ [(o, m.world.clockwork.runs.length)] := by simp [start?]
  have hcreation : creations (l ++ [.started o m.world.clockwork.runs.length]) = creations l := by
    simp [creation?]
  have hstands : ∀ p, standing p (l ++ [.started o m.world.clockwork.runs.length]) =
      if o = p then some m.world.clockwork.runs.length else standing p l :=
    fun p => standing_snoc p l _
  constructor
  case starts_eq =>
    rw [hstart, hruns, List.map_append, h.starts_eq, List.length_append,
      Clockwork.length_runs_giveUp]
    exact List.range_succ.symm
  case creations_length =>
    rw [hcreation, h.creations_length, hclockwork]
    exact congrArg List.length (Clockwork.counters_giveUp _ _).symm
  case targets =>
    intro p r hr
    rw [hstands]
    rcases (htargets _).1 hr with ⟨hr, hne⟩ | hr
    · rw [if_neg (h.ne_of_target ht hr hne)]
      exact h.targets p r hr
    · obtain ⟨rfl, rfl⟩ := Prod.mk.inj hr
      rw [if_pos rfl]
  case timers =>
    intro p t' ht'
    rw [hstands, hcreation]
    exact h.timer?_of_changeAt hf ht'
  case owners =>
    intro p r hr
    rw [hstart] at hr
    rcases List.mem_append.1 hr with hr | hr
    · exact h.owners_mono hf hr
    · obtain ⟨rfl, -⟩ := Prod.mk.inj (List.mem_singleton.1 hr)
      refine ⟨Nat.lt_of_lt_of_le hlen hf.length, fun j hj => ?_⟩
      rcases hf.timer p j hj with ⟨i, hi, hij⟩ | ⟨hle, -⟩
      · obtain ⟨i', hi', hti⟩ := Option.bind_eq_some_iff.1 ht
        obtain rfl := Option.some.inj (hi.symm.trans hi')
        rw [hij, hti]
        rfl
      · exact absurd hlen (Nat.not_lt.2 hle)
  case runs =>
    intro p r run' hr hrun'
    rw [hstart] at hr
    rw [hstands, hcreation]
    rw [Clockwork.run?, hruns] at hrun'
    rcases List.mem_append.1 hr with hr | hr
    · have hlt := h.lt_of_start hr
      rw [List.getElem?_append_left (by rwa [Clockwork.length_runs_giveUp]),
        ← Clockwork.run?] at hrun'
      exact h.run?_of_giveUp ht hr (by simpa using Nat.ne_of_gt hlt) hrun'
    · obtain ⟨rfl, rfl⟩ := Prod.mk.inj (List.mem_singleton.1 hr)
      rw [← Clockwork.length_runs_giveUp m.world.clockwork t.run, List.getElem?_concat_length]
        at hrun'
      obtain rfl := Option.some.inj hrun'
      simp [(h.timers p t ht).2]

theorem happens (h : Roster l m) (hs : Happens m a m') : Roster (l ++ [a]) m' := by
  cases hp : a.isPlain with
  | true => exact h.plain (hs.plain hp) hp
  | false =>
    cases a with
    | created o =>
      cases hs with
      | create cls => exact h.create cls
    | started o r =>
      obtain ⟨rfl, -, t, hstarts⟩ := hs.starts
      exact h.start hstarts
    | stopped o caught =>
      obtain ⟨-, -, t, hstop⟩ := hs.stops
      exact h.giveUp hstop.timer hstop.retimes hstop.targets
        (congrArg Clockwork.runs hstop.clockwork)
        (by rw [hstop.clockwork, Clockwork.counters_giveUp]) (fun _ _ => rfl) ⟨rfl, rfl⟩
    | reset o caught =>
      obtain ⟨-, -, t, hreset⟩ := hs.resets
      refine h.giveUp hreset.timer hreset.retimes hreset.targets
        (by rw [hreset.clockwork]; rfl) ?_ (fun _ _ => rfl) ⟨rfl, rfl⟩
      rw [hreset.clockwork]
      exact List.length_set.trans (congrArg List.length (Clockwork.counters_giveUp _ _))
    | _ => cases hp

end Roster

theorem History.roster {l : List Occurrence} {m : Moment} (h : History l m) : Roster l m := by
  induction h with
  | fresh h =>
    constructor
    case starts_eq =>
      rw [h.runs]
      rfl
    case creations_length =>
      rw [h.counters]
      rfl
    case targets =>
      intro o r hr
      rw [h.targets] at hr
      cases hr
    case timers =>
      intro o t ht
      rw [h.timers o] at ht
      cases ht
    case owners =>
      intro o r hr
      cases hr
    case runs =>
      intro o r run hr
      cases hr
  | snoc _ hs ih => exact ih.happens hs

theorem Roster.ne_of_started {l : List Occurrence} {m : Moment} {o p : ObjectId} {r r' : RunId}
    (h : Roster (l ++ [started p r']) m) (hr : started o r ∈ l) : r' ≠ r := by
  rintro rfl
  have hnodup : ((starts (l ++ [started p r'])).map Prod.snd).Nodup :=
    h.starts_eq ▸ List.nodup_range
  rw [starts_snoc, List.map_append] at hnodup
  exact (List.nodup_append.1 hnodup).2.2 r' (List.mem_map_of_mem (mem_starts_iff.2 hr)) r'
    (by simp [start?]) rfl

theorem History.standing_of_later {l k : List Occurrence} {m : Moment} {o : ObjectId} {r : RunId}
    (h : History (l ++ k) m) (hr : started o r ∈ l) (hs : standing o (l ++ k) = some r) :
    standing o l = some r := by
  induction k using List.reverseRecOn generalizing m with
  | nil => rwa [List.append_nil] at hs
  | append_singleton k a ih =>
    rw [← List.append_assoc] at h hs
    obtain ⟨m₁, h₁, -⟩ := h.split
    rw [standing_snoc] at hs
    rcases stands_eq_some hs with rfl | hs
    · exact absurd rfl (h.roster.ne_of_started (List.mem_append_left k hr))
    · exact ih h₁ hs

end ScriptPlayer
