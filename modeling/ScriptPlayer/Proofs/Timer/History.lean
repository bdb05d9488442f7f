import Mathlib.Data.List.Induction
import ScriptPlayer.Player.Shutdown
import ScriptPlayer.Proofs.Timer.Actions
import ScriptPlayer.Proofs.Timer.Clockwork

/-! Histories of a player: what scripts, the event loop and the workers of timers do, one atomic
action after the other and in any order. Each entry is an action of the player itself; what neither
timers nor the queue notice is one kind of entry. -/
namespace ScriptPlayer

inductive Loop
  | idle
  /-- an event has been taken, and whatever runs now runs on account of it -/
  | handling (e : Event)
  /-- the player is gone -/
  | gone
deriving DecidableEq

structure Moment where
  world : World
  loop : Loop

inductive Occurrence
  | elsewhere
  | created (o : ObjectId)
  | configured (o : ObjectId)
  /-- a start that found no live run and made this one -/
  | started (o : ObjectId) (r : RunId)
  /-- a stop, and where the worker of the run stood that the timer gave up -/
  | stopped (o : ObjectId) (caught : Option RunPhase)
  | reset (o : ObjectId) (caught : Option RunPhase)
  /-- a step of a worker, from where it took the step, and the events that the queue took -/
  | worked (r : RunId) (place : RunPhase) (posted : List Event)
  /-- the loop takes an event; a dispatch is for the timer that its target stands for -/
  | taken (e : Event) (receiver : Option ObjectId)
  /-- the handling of an event ends, that of a dispatch perhaps by a fault of a listener -/
  | handled (e : Event)
  | shutDown (discarded : Nat)
  | closed (discarded : Nat)
deriving DecidableEq

namespace World

def phase? (w : World) (r : RunId) : Option RunPhase := (w.clockwork.run? r).map TimerRun.phase

def workerOf? (w : World) (o : ObjectId) : Option RunPhase :=
  ((w.timer? o).bind TimerState.run).bind w.phase?

def receiver? (w : World) : Event → Option ObjectId
  | .dispatch r _ => w.targets.lookup r
  | _ => none

/-- A change that concerns neither timers nor the queue. -/
structure Quiet (w w' : World) : Prop where
  timers : w.KeepsTimers w'
  targets : w'.targets = w.targets
  queue : w'.clockwork.queue = w.clockwork.queue
  counters : w'.clockwork.counters = w.clockwork.counters
  runs : w'.clockwork.runs = w.clockwork.runs

structure Untimed (w : World) : Prop where
  timers : ∀ o, w.timer? o = none
  targets : w.targets = []
  queue : w.clockwork.queue = .empty
  counters : w.clockwork.counters = []
  runs : w.clockwork.runs = []

end World

inductive Happens (m : Moment) : Occurrence → Moment → Prop
  | elsewhere {w : World} (h : m.world.Quiet w) : Happens m .elsewhere { m with world := w }
  | create (cls : ClassId) : Happens m (.created m.world.heap.cells.length)
      { m with world := (m.world.spawn cls .timer).2 }
  | init {o : ObjectId} {args : List Value} {s s' : State} (hs : s.world = m.world)
      (h : Run.initTimer o args s = .ok () s') :
      Happens m (.configured o) { m with world := s'.world }
  | setDelay {o : ObjectId} {args : List Value} {s s' : State} (hs : s.world = m.world)
      (h : Run.setTimerDelay o args s = .ok () s') :
      Happens m (.configured o) { m with world := s'.world }
  | start {o : ObjectId} {s s' : State} (hs : s.world = m.world)
      (h : Run.startTimer o s = .ok () s')
      (hnew : m.world.clockwork.runs.length < s'.world.clockwork.runs.length) :
      Happens m (.started o m.world.clockwork.runs.length) { m with world := s'.world }
  | stop {o : ObjectId} {s s' : State} (hs : s.world = m.world)
      (h : Run.stopTimer o s = .ok () s') :
      Happens m (.stopped o (m.world.workerOf? o)) { m with world := s'.world }
  | reset {o : ObjectId} {s s' : State} (hs : s.world = m.world)
      (h : Run.resetTimer o s = .ok () s') :
      Happens m (.reset o (m.world.workerOf? o)) { m with world := s'.world }
  | work {r : RunId} {run : TimerRun} {c : Clockwork} {posted : List Event}
      (hr : m.world.clockwork.run? r = some run) (h : m.world.clockwork.stepRun r = some c)
      (hp : c.queue.pending = m.world.clockwork.queue.pending ++ posted) :
      Happens m (.worked r run.phase posted) { m with world := { m.world with clockwork := c } }
  | take {e : Event} {s s' : State} (hl : m.loop = .idle) (hs : s.world = m.world)
      (h : Run.takeEvent s = .ok (some e) s') :
      Happens m (.taken e (m.world.receiver? e)) ⟨s'.world, .handling e⟩
  | handle {e : Event} {call : Caller} {s s' : State} (hl : m.loop = .handling e)
      (he : ∀ r kind, e ≠ .dispatch r kind) (hs : s.world = m.world)
      (h : Run.handle call e s = .ok () s') : Happens m (.handled e) ⟨s'.world, .idle⟩
  | finish {r : RunId} {kind : String} (hl : m.loop = .handling (.dispatch r kind)) :
      Happens m (.handled (.dispatch r kind)) { m with loop := .idle }
  | shutDown (hl : m.loop = .idle) :
      Happens m (.shutDown m.world.clockwork.queue.size) ⟨m.world.shutDown, .gone⟩
  | close (hl : m.loop = .gone) :
      Happens m (.closed m.world.clockwork.queue.size) { m with world := m.world.closeQueue }

/-- What has happened so far to a player that began without timers, oldest first, and the moment
that it has led to. -/
inductive History : List Occurrence → Moment → Prop
  | fresh {w : World} (h : w.Untimed) : History [] ⟨w, .idle⟩
  | snoc {l : List Occurrence} {a : Occurrence} {m m' : Moment} (h : History l m)
      (hs : Happens m a m') : History (l ++ [a]) m'

inductive Course (m : Moment) : List Occurrence → Moment → Prop
  | nil : Course m [] m
  | snoc {l : List Occurrence} {a : Occurrence} {m' m'' : Moment} (h : Course m l m')
      (hs : Happens m' a m'') : Course m (l ++ [a]) m''

theorem Run.takeEvent_ok {s s' : State} {e : Event} (h : takeEvent s = .ok (some e) s') :
    ∃ rest, s.world.clockwork.queue.pending = e :: rest ∧ s'.world = { s.world with
      clockwork := { s.world.clockwork with
        queue := { s.world.clockwork.queue with pending := rest } } } := by
  unfold takeEvent updateWorld EventQueue.take at h
  cases hp : s.world.clockwork.queue.pending with
  | nil =>
    simp only [hp] at h
    cases h
  | cons e' rest =>
    simp only [hp] at h
    obtain ⟨he, rfl⟩ := EStateM.Result.ok.inj h
    exact ⟨rest, congrArg (· :: rest) (Option.some.inj he), rfl⟩

theorem Run.handle_ok {call : Caller} {s s' : State} {e : Event}
    (h : handle call e s = .ok () s') (he : ∀ r kind, e ≠ .dispatch r kind) :
    (∃ q, e = .sync q ∧ s'.world = { s.world with
      clockwork := { s.world.clockwork with queue := s.world.clockwork.queue.signal q } }) ∨
    ∃ r, e = .retire r ∧
      s'.world = s.world.putTargets (s.world.targets.filter fun e => e.1 != r) := by
  cases e with
  | dispatch r kind => exact absurd rfl (he r kind)
  | sync q => exact Or.inl ⟨q, rfl, congrArg State.world (EStateM.Result.ok.inj h).2.symm⟩
  | retire r => exact Or.inr ⟨r, rfl, congrArg State.world (EStateM.Result.ok.inj h).2.symm⟩

variable {l k : List Occurrence} {m m' : Moment} {a : Occurrence}

theorem History.append (h : History l m) (hk : Course m k m') : History (l ++ k) m' := by
  induction hk with
  | nil => rwa [List.append_nil]
  | snoc _ hs ih => rw [← List.append_assoc]; exact ih.snoc hs

theorem History.split (h : History (l ++ k) m') : ∃ m, History l m ∧ Course m k m' := by
  induction k using List.reverseRecOn generalizing m' with
  | nil => exact ⟨m', by rwa [List.append_nil] at h, .nil⟩
  | append_singleton k a ih =>
    rw [← List.append_assoc] at h
    generalize hl : l ++ k ++ [a] = l' at h
    cases h with
    | fresh => simp at hl
    | snoc h hs =>
      obtain ⟨rfl, hlast⟩ := List.append_inj' hl rfl
      obtain rfl := List.singleton_inj.1 hlast
      obtain ⟨m, hm, hk⟩ := ih h
      exact ⟨m, hm, hk.snoc hs⟩

theorem History.split_at (h : History (l ++ a :: k) m') :
    ∃ m₁ m₂, History l m₁ ∧ Happens m₁ a m₂ ∧ Course m₂ k m' := by
  rw [List.append_cons] at h
  obtain ⟨m₂, hl, hk⟩ := h.split
  generalize hla : l ++ [a] = l' at hl
  cases hl with
  | fresh => simp at hla
  | @snoc l₁ a₁ m₁ _ hl hs =>
    obtain ⟨rfl, hlast⟩ := List.append_inj' hla rfl
    obtain rfl := List.singleton_inj.1 hlast
    exact ⟨m₁, m₂, hl, hs, hk⟩

theorem Happens.stepped {r : RunId} {place : RunPhase} {posted : List Event}
    (h : Happens m (.worked r place posted) m') :
    ∃ run run' c, run.phase = place ∧ m.world.clockwork.Stepped r run run' posted c ∧
      m' = { m with world := { m.world with clockwork := c } } := by
  cases h with
  | @work r run c posted hr h hp =>
    obtain ⟨run₁, run', posted', hstep⟩ := Clockwork.stepRun_cases h
    obtain rfl : run = run₁ := Option.some.inj (hr.symm.trans hstep.found)
    obtain rfl : posted = posted' := List.append_cancel_left (hp.symm.trans hstep.pending)
    exact ⟨run, run', c, rfl, hstep, rfl⟩

/-! What the calls of scripts that concern runs do -/

theorem Happens.starts {o : ObjectId} {r : RunId} (h : Happens m (.started o r) m') :
    r = m.world.clockwork.runs.length ∧ m'.loop = m.loop ∧
      ∃ t, m.world.Starts o t m'.world := by
  cases h with
  | start hs h hnew =>
    refine ⟨rfl, rfl, ?_⟩
    rcases Run.startTimer_ok h with rfl | ⟨t, hstarts⟩
    · rw [hs] at hnew
      exact absurd hnew (Nat.lt_irrefl _)
    · exact ⟨t, hs ▸ hstarts⟩

theorem Happens.stops {o : ObjectId} {caught : Option RunPhase}
    (h : Happens m (.stopped o caught) m') : caught = m.world.workerOf? o ∧ m'.loop = m.loop ∧
      ∃ t, m.world.Stops o t m'.world := by
  cases h with
  | stop hs h =>
    obtain ⟨-, t, hstop⟩ := Run.stopTimer_ok h
    exact ⟨rfl, rfl, t, hs ▸ hstop⟩

theorem Happens.resets {o : ObjectId} {caught : Option RunPhase}
    (h : Happens m (.reset o caught) m') : caught = m.world.workerOf? o ∧ m'.loop = m.loop ∧
      ∃ t, m.world.Resets o t m'.world := by
  cases h with
  | reset hs h =>
    obtain ⟨t, hreset⟩ := Run.resetTimer_ok h
    exact ⟨rfl, rfl, t, hs ▸ hreset⟩

/-! Where workers stand, and what one entry does to the queue -/

namespace Occurrence

def isScript : Occurrence → Bool
  | elsewhere | created _ | configured _ | started .. | stopped .. | reset .. => true
  | _ => false

end Occurrence

structure TimerRun.Still (run run' : TimerRun) : Prop where
  counter : run'.counter = run.counter
  repeatCount : run'.repeatCount = run.repeatCount
  phase : run'.phase = run.phase

namespace World

/-- The worker of a run has not moved: its run has at most been asked to stop, or is new. -/
inductive Unmoved (w w' : World) (r : RunId) : Prop
  | kept (f : Bool → Bool) (h : w'.clockwork.run? r =
      (w.clockwork.run? r).map fun run => { run with cancelled := f run.cancelled })
  | submitted (hr : w.clockwork.run? r = none) {counter : CounterId} {delay : Nanos}
      {repeatCount : UInt32}
      (h : w'.clockwork.run? r = some ⟨counter, delay, repeatCount, false, false, .queued⟩)

variable {w w' : World} {r : RunId}

theorem unmoved_of_runs (h : w'.clockwork.runs = w.clockwork.runs) (r : RunId) :
    w.Unmoved w' r := by
  refine .kept id ?_
  rw [Clockwork.run?, h]
  exact Option.map_id'.symm

theorem unmoved_of_giveUp {asked : Option RunId}
    (h : w'.clockwork.runs = (w.clockwork.giveUp asked).runs) (r : RunId) : w.Unmoved w' r := by
  refine .kept (· || decide (asked = some r)) ?_
  rw [Clockwork.run?, h, ← Clockwork.run?, Clockwork.run?_giveUp]

theorem Starts.runs_eq {o : ObjectId} {t : TimerState} (h : w.Starts o t w') :
    ∃ delay, w'.clockwork.runs = (w.clockwork.giveUp t.run).runs ++
      [⟨t.counter, delay, t.repeatCount, false, false, .queued⟩] := by
  obtain ⟨delay, hclockwork⟩ := h.clockwork
  exact ⟨delay, congrArg Clockwork.runs hclockwork⟩

theorem Starts.run?_new {o : ObjectId} {t : TimerState} (h : w.Starts o t w') :
    ∃ delay, w'.clockwork.run? w.clockwork.runs.length =
      some ⟨t.counter, delay, t.repeatCount, false, false, .queued⟩ := by
  obtain ⟨delay, hruns⟩ := h.runs_eq
  refine ⟨delay, ?_⟩
  rw [Clockwork.run?, hruns, ← Clockwork.length_runs_giveUp w.clockwork t.run,
    List.getElem?_concat_length]

theorem Starts.unmoved {o : ObjectId} {t : TimerState} (h : w.Starts o t w') (r : RunId) :
    w.Unmoved w' r := by
  obtain ⟨delay, hruns⟩ := h.runs_eq
  have hlen := Clockwork.length_runs_giveUp w.clockwork t.run
  rcases Nat.lt_trichotomy r w.clockwork.runs.length with hlt | rfl | hgt
  · refine .kept (· || decide (t.run = some r)) ?_
    rw [Clockwork.run?, hruns, List.getElem?_append_left (hlen ▸ hlt), ← Clockwork.run?,
      Clockwork.run?_giveUp]
  · obtain ⟨delay, hnew⟩ := h.run?_new
    exact .submitted (List.getElem?_eq_none (Nat.le_refl _)) hnew
  · refine .kept id ?_
    rw [Clockwork.run?, List.getElem?_eq_none, Clockwork.run?, List.getElem?_eq_none]
    · rfl
    · exact Nat.le_of_lt hgt
    · rw [hruns, List.length_append, hlen]
      exact hgt

theorem Unmoved.run? (h : w.Unmoved w' r) {run : TimerRun} (hr : w.clockwork.run? r = some run) :
    ∃ run', w'.clockwork.run? r = some run' ∧ run.Still run' := by
  cases h with
  | kept f h =>
    rw [hr] at h
    exact ⟨_, h, rfl, rfl, rfl⟩
  | submitted hnone => cases hr.symm.trans hnone

theorem Unmoved.phase? (h : w.Unmoved w' r) :
    w'.phase? r = w.phase? r ∨ w.phase? r = none ∧ w'.phase? r = some .queued := by
  unfold World.phase?
  cases h with
  | kept f h =>
    rw [h, Option.map_map]
    exact Or.inl rfl
  | submitted hr h =>
    rw [hr, h]
    exact Or.inr ⟨rfl, rfl⟩

theorem phase?_of_stepped {c : Clockwork} {run run' : TimerRun} {posted : List Event}
    (h : w.clockwork.Stepped r run run' posted c) (p : RunId) :
    World.phase? { w with clockwork := c } p = if p = r then some run'.phase else w.phase? p := by
  unfold World.phase?
  rw [h.run?]
  split <;> rfl

end World

theorem Happens.script (h : Happens m a m') (ha : a.isScript = true) : m'.loop = m.loop ∧
    m'.world.clockwork.queue = m.world.clockwork.queue ∧ ∀ r, m.world.Unmoved m'.world r := by
  have hclockwork : ∀ {w : World}, w.clockwork = m.world.clockwork →
      m.loop = m.loop ∧ w.clockwork.queue = m.world.clockwork.queue ∧
      ∀ r, m.world.Unmoved w r :=
    fun hw => ⟨rfl, congrArg Clockwork.queue hw,
      World.unmoved_of_runs (congrArg Clockwork.runs hw)⟩
  cases a with
  | elsewhere =>
    cases h with
    | elsewhere h => exact ⟨rfl, h.queue, World.unmoved_of_runs h.runs⟩
  | created o =>
    cases h with
    | create cls =>
      have hnew : (m.world.spawn cls .timer).2.clockwork = m.world.clockwork.newCounter.2 :=
        (World.reframes_newInstance _ _).clockwork
      exact ⟨rfl, (congrArg Clockwork.queue hnew).trans rfl,
        World.unmoved_of_runs ((congrArg Clockwork.runs hnew).trans rfl)⟩
  | configured o =>
    cases h with
    | init hs h => exact hclockwork (hs ▸ (Run.initTimer_ok h).clockwork)
    | setDelay hs h => exact hclockwork (hs ▸ (Run.setTimerDelay_ok h).clockwork)
  | started o r =>
    obtain ⟨-, hloop, t, hstarts⟩ := h.starts
    obtain ⟨delay, hafter⟩ := hstarts.clockwork
    refine ⟨hloop, ?_, hstarts.unmoved⟩
    rw [hafter]
    exact Clockwork.queue_giveUp _ _
  | stopped o caught =>
    obtain ⟨-, hloop, t, hstop⟩ := h.stops
    refine ⟨hloop, ?_, World.unmoved_of_giveUp (congrArg Clockwork.runs hstop.clockwork)⟩
    rw [hstop.clockwork, Clockwork.queue_giveUp]
  | reset o caught =>
    obtain ⟨-, hloop, t, hreset⟩ := h.resets
    have hruns : m'.world.clockwork.runs = (m.world.clockwork.giveUp t.run).runs :=
      (congrArg Clockwork.runs hreset.clockwork).trans rfl
    refine ⟨hloop, ?_, World.unmoved_of_giveUp hruns⟩
    rw [hreset.clockwork]
    exact Clockwork.queue_giveUp _ _
  | _ => cases ha

theorem Happens.goesOn (h : Happens m a m') :
    m.world.clockwork.queue.GoesOn m'.world.clockwork.queue := by
  cases ha : a.isScript with
  | true =>
    rw [(h.script ha).2.1]
    exact .refl _
  | false =>
    cases h with
    | work hr hstep hp =>
      obtain ⟨run, run', c, -, hstepped, hm⟩ := Happens.stepped (.work hr hstep hp)
      rw [hm]
      exact EventQueue.goesOn_of_rendezvous hstepped.rendezvous hstepped.isOpen
    | take hl hs hrun =>
      obtain ⟨rest, -, hw⟩ := Run.takeEvent_ok hrun
      rw [hs] at hw
      rw [hw]
      exact EventQueue.goesOn_of_rendezvous (List.append_nil _).symm rfl
    | handle hl he hs hrun =>
      rcases Run.handle_ok hrun he with ⟨q, -, hw⟩ | ⟨r, -, hw⟩
      · rw [hw, hs]
        exact EventQueue.goesOn_signal _ q
      · rw [hw, hs]
        exact .refl _
    | finish hl => exact .refl _
    | shutDown hl => exact EventQueue.goesOn_clear _
    | close hl => exact EventQueue.goesOn_close _
    | _ => cases ha

/-- Only the worker itself gets anywhere. -/
theorem Happens.unmoved {r : RunId} (h : Happens m a m')
    (ha : ∀ place posted, a ≠ .worked r place posted) : m.world.Unmoved m'.world r := by
  cases hscript : a.isScript with
  | true => exact (h.script hscript).2.2 r
  | false =>
    cases h with
    | @work r' run c posted hr hstep hp =>
      obtain ⟨run, run', c, -, hstepped, hm⟩ := Happens.stepped (.work hr hstep hp)
      refine .kept id ?_
      rw [hm]
      refine ((congrArg (·[r]?) hstepped.runs).trans (List.getElem?_set_ne ?_)).trans
        Option.map_id'.symm
      rintro rfl
      exact ha _ _ rfl
    | take hl hs hrun =>
      obtain ⟨rest, -, hw⟩ := Run.takeEvent_ok hrun
      rw [hs] at hw
      exact World.unmoved_of_runs (by rw [hw]) r
    | handle hl he hs hrun =>
      rcases Run.handle_ok hrun he with ⟨q, -, hw⟩ | ⟨r', -, hw⟩
      · exact World.unmoved_of_runs (by rw [hw, hs]) r
      · exact World.unmoved_of_runs (by rw [hw, hs]; rfl) r
    | finish hl | shutDown hl | close hl => exact World.unmoved_of_runs (by rfl) r
    | _ => cases hscript

end ScriptPlayer
