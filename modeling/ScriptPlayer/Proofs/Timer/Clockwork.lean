import Mathlib.Data.List.Basic
import ScriptPlayer.Event.Clockwork

/-! What the worker of a timer run can do in one step, wherever it stands: where it gets to, what it
posts, and what it leaves alone. -/
namespace ScriptPlayer

namespace EventQueue

variable {q : EventQueue}

theorem post_of_open (h : q.isOpen = true) (e : Event) :
    q.post e = (true, { q with pending := q.pending ++ [e] }) :=
  if_pos h

theorem post_of_closed (h : q.isOpen = false) (e : Event) : q.post e = (false, q.discard e) :=
  if_neg (by simp [h])

theorem pending_discard (q : EventQueue) (e : Event) : (q.discard e).pending = q.pending := by
  cases e <;> rfl

theorem isOpen_discard (q : EventQueue) (e : Event) : (q.discard e).isOpen = q.isOpen := by
  cases e <;> rfl

theorem status_settle (q : EventQueue) (r r' : RendezvousId) (s : Rendezvous) :
    (q.settle r s).status r' = (q.status r').map fun old =>
      if r = r' ∧ old = .waiting then s else old := by
  unfold status settle
  simp only [List.getElem?_modify]
  cases q.rendezvous[r']? with
  | none => simp
  | some old => by_cases h : r = r' <;> simp [h]

theorem status_signal_of_ne {r r' : RendezvousId} (h : r' ≠ r) :
    (q.signal r).status r' = q.status r' := by
  unfold signal
  rw [status_settle]
  simp [Ne.symm h]

theorem length_rendezvous_discard (q : EventQueue) (e : Event) :
    (q.discard e).rendezvous.length = q.rendezvous.length := by
  cases e with
  | sync r => exact List.length_modify _ _ _
  | _ => rfl

theorem status_settle_of_settled {r r' : RendezvousId} {s s' : Rendezvous} (hs : s ≠ .waiting)
    (h : q.status r = some s) : (q.settle r' s').status r = some s := by
  rw [status_settle, h]
  simp [hs]

theorem status_discard_of_settled {e : Event} {r : RendezvousId} {s : Rendezvous}
    (hs : s ≠ .waiting) (h : q.status r = some s) : (q.discard e).status r = some s := by
  cases e with
  | sync r' => exact status_settle_of_settled hs h
  | _ => exact h

theorem status_of_discard {e : Event} {r : RendezvousId}
    (h : (q.discard e).status r = some .signalled) : q.status r = some .signalled := by
  cases e with
  | sync r' =>
    unfold discard at h
    rw [status_settle] at h
    obtain ⟨old, hold, h⟩ := Option.map_eq_some_iff.1 h
    split at h
    · cases h
    · rw [hold, h]
  | _ => exact h

theorem foldl_discard (q : EventQueue) (es : List Event) :
    (es.foldl discard q).pending = q.pending ∧ (es.foldl discard q).isOpen = q.isOpen ∧
      (es.foldl discard q).rendezvous.length = q.rendezvous.length ∧
      ∀ r, ((es.foldl discard q).status r = some .signalled → q.status r = some .signalled) ∧
        ∀ s, s ≠ .waiting → q.status r = some s → (es.foldl discard q).status r = some s := by
  induction es generalizing q with
  | nil => exact ⟨rfl, rfl, rfl, fun _ => ⟨fun h => h, fun _ _ h => h⟩⟩
  | cons e es ih =>
    obtain ⟨hp, ho, hl, hs⟩ := ih (q.discard e)
    exact ⟨hp.trans (pending_discard q e), ho.trans (isOpen_discard q e),
      hl.trans (length_rendezvous_discard q e), fun r => ⟨fun h => status_of_discard ((hs r).1 h),
        fun s hne h => (hs r).2 s hne (status_discard_of_settled hne h)⟩⟩

theorem pending_clear (q : EventQueue) : q.clear.2.pending = [] :=
  (foldl_discard { q with pending := [] } q.pending).1

theorem isOpen_clear (q : EventQueue) : q.clear.2.isOpen = q.isOpen :=
  (foldl_discard { q with pending := [] } q.pending).2.1

theorem length_rendezvous_clear (q : EventQueue) :
    q.clear.2.rendezvous.length = q.rendezvous.length :=
  (foldl_discard { q with pending := [] } q.pending).2.2.1

theorem status_of_clear {r : RendezvousId} (h : q.clear.2.status r = some .signalled) :
    q.status r = some .signalled :=
  ((foldl_discard { q with pending := [] } q.pending).2.2.2 r).1 h

theorem status_clear_of_settled {r : RendezvousId} {s : Rendezvous} (hs : s ≠ .waiting)
    (h : q.status r = some s) : q.clear.2.status r = some s :=
  ((foldl_discard { q with pending := [] } q.pending).2.2.2 r).2 s hs h

theorem postSync_of_open (h : q.isOpen = true) : q.postSync = (true, q.rendezvous.length,
    { q with
      pending := q.pending ++ [.sync q.rendezvous.length]
      rendezvous := q.rendezvous ++ [.waiting] }) := by
  unfold postSync post
  simp [h]

theorem postSync_of_closed (h : q.isOpen = false) : q.postSync = (false, q.rendezvous.length,
    { q with rendezvous := q.rendezvous ++ [.dropped] }) := by
  have hlast : (q.rendezvous ++ [Rendezvous.waiting]).modify q.rendezvous.length
      (fun s => if s = .waiting then .dropped else s) = q.rendezvous ++ [.dropped] := by
    rw [List.modify_eq_set_getElem?]
    simp
  unfold postSync post
  simp [h, discard, settle, hlast]

section GoesOn

/-- What is settled stays settled, and what is gone stays gone. -/
structure GoesOn (q q' : EventQueue) : Prop where
  settled : ∀ k s, s ≠ .waiting → q.status k = some s → q'.status k = some s
  gone : q.isOpen = false → q'.isOpen = false

theorem GoesOn.refl (q : EventQueue) : q.GoesOn q := ⟨fun _ _ _ h => h, fun h => h⟩

variable {q' : EventQueue}

theorem goesOn_of_rendezvous {more : List Rendezvous}
    (hr : q'.rendezvous = q.rendezvous ++ more) (ho : q'.isOpen = q.isOpen) : q.GoesOn q' where
  settled k s _ hk := by
    rw [status, hr, List.getElem?_append_left (List.getElem?_eq_some_iff.1 hk).1]
    exact hk
  gone h := ho.trans h

theorem goesOn_signal (q : EventQueue) (k : RendezvousId) : q.GoesOn (q.signal k) where
  settled _ _ hs h := status_settle_of_settled hs h
  gone h := h

theorem goesOn_clear (q : EventQueue) : q.GoesOn q.clear.2 where
  settled _ _ hs h := status_clear_of_settled hs h
  gone h := (isOpen_clear q).trans h

theorem goesOn_close (q : EventQueue) : q.GoesOn q.close where
  settled _ _ hs h := status_clear_of_settled hs h
  gone _ := rfl

theorem waitResult?_eq_true {k : RendezvousId} :
    q.waitResult? k = some true ↔ q.status k = some .signalled := by
  unfold waitResult?
  split <;> simp_all

theorem waitResult?_eq_false {k : RendezvousId} :
    q.waitResult? k = some false ↔ q.status k = some .dropped := by
  unfold waitResult?
  split <;> simp_all

end GoesOn

end EventQueue

namespace RunPhase

def marks : RunPhase → Bool
  | completing | closing => true
  | _ => false

end RunPhase

namespace Clockwork

/-- From where it stands, the worker of a run gets to a place and posts events. -/
inductive Advance (c : Clockwork) (r : RunId) (run : TimerRun) : RunPhase → List Event → Prop
  | lieDown {t : Nanos} (hp : run.phase = .queued) : Advance c r run (.asleep t) []
  | wake {t : Nanos} (hp : run.phase = .asleep t) : Advance c r run .testing []
  | pass (hp : run.phase = .testing) (hc : run.cancelled = false) : Advance c r run .counting []
  | leave (hp : run.phase = .testing) (hc : run.cancelled = true) : Advance c r run .closing []
  | count (hp : run.phase = .counting) :
      Advance c r run (.posting (c.count run.counter + 1)) []
  | fire {n : UInt32} (hp : run.phase = .posting n) (ho : c.queue.isOpen = true) :
      Advance c r run (.syncing n) [.dispatch r timerKind]
  | fireGone {n : UInt32} (hp : run.phase = .posting n) (ho : c.queue.isOpen = false) :
      Advance c r run .closing []
  | meet {n : UInt32} (hp : run.phase = .syncing n) (ho : c.queue.isOpen = true) :
      Advance c r run (.awaiting n c.queue.rendezvous.length) [.sync c.queue.rendezvous.length]
  | meetGone {n : UInt32} (hp : run.phase = .syncing n) (ho : c.queue.isOpen = false) :
      Advance c r run .closing []
  | dropped {n : UInt32} {q : RendezvousId} (hp : run.phase = .awaiting n q)
      (hq : c.queue.waitResult? q = some false) : Advance c r run .closing []
  | exhaust {n : UInt32} {q : RendezvousId} (hp : run.phase = .awaiting n q)
      (hq : c.queue.waitResult? q = some true) (hn : run.repeatCount ≠ 0 ∧ run.repeatCount ≤ n) :
      Advance c r run .completing []
  | again {n : UInt32} {q : RendezvousId} {t : Nanos} (hp : run.phase = .awaiting n q)
      (hq : c.queue.waitResult? q = some true)
      (hn : ¬(run.repeatCount ≠ 0 ∧ run.repeatCount ≤ n)) : Advance c r run (.asleep t) []
  | finish (hp : run.phase = .completing) : Advance c r run .announcing []
  | announce (hp : run.phase = .announcing) (ho : c.queue.isOpen = true) :
      Advance c r run .closing [.dispatch r completeKind]
  | announceGone (hp : run.phase = .announcing) (ho : c.queue.isOpen = false) :
      Advance c r run .closing []
  | close (hp : run.phase = .closing) : Advance c r run .retiring []
  | retire (hp : run.phase = .retiring) (ho : c.queue.isOpen = true) :
      Advance c r run .done [.retire r]
  | retireGone (hp : run.phase = .retiring) (ho : c.queue.isOpen = false) :
      Advance c r run .done []

def meeting (c : Clockwork) : RunPhase → List Rendezvous
  | .syncing _ => [if c.queue.isOpen then .waiting else .dropped]
  | _ => []

theorem not_signalled_of_meeting (c : Clockwork) {p : RunPhase}
    (h : Rendezvous.signalled ∈ c.meeting p) : False := by
  unfold meeting at h
  split at h
  · split at h <;> cases List.mem_singleton.1 h
  · cases h

/-- Counters after a step: only a worker about to count changes one, by one. -/
def counted (c : Clockwork) (run : TimerRun) : List UInt32 :=
  if run.phase = .counting then c.counters.set run.counter (c.count run.counter + 1)
  else c.counters

/-- A step posts nothing, or one event of the run itself or a new rendezvous. -/
theorem Advance.posted_cases {c : Clockwork} {r : RunId} {run : TimerRun} {p : RunPhase}
    {posted : List Event} (h : c.Advance r run p posted) :
    posted = [] ∨ posted = [.dispatch r timerKind] ∨ posted = [.dispatch r completeKind] ∨
      posted = [.retire r] ∨
      posted = [.sync c.queue.rendezvous.length] ∧ c.meeting run.phase = [.waiting] := by
  cases h with
  | fire | announce | retire => simp
  | meet hp ho => simp [hp, meeting, ho]
  | _ => exact Or.inl rfl

theorem Advance.posted_of_closed {c : Clockwork} {r : RunId} {run : TimerRun} {p : RunPhase}
    {posted : List Event} (h : c.Advance r run p posted) (hgone : c.queue.isOpen = false) :
    posted = [] := by
  cases h with
  | fire hp ho | meet hp ho | announce hp ho | retire hp ho => cases hgone.symm.trans ho
  | _ => rfl

/-- All that one step of the worker of a run does. -/
structure Stepped (c : Clockwork) (r : RunId) (run run' : TimerRun) (posted : List Event)
    (c' : Clockwork) : Prop where
  found : c.run? r = some run
  advance : c.Advance r run run'.phase posted
  runs : c'.runs = c.runs.set r run'
  counter : run'.counter = run.counter
  repeatCount : run'.repeatCount = run.repeatCount
  cancelled : run'.cancelled = run.cancelled
  finished : run'.finished = (run.finished || run.phase.marks)
  counters : c'.counters = c.counted run
  pending : c'.queue.pending = c.queue.pending ++ posted
  isOpen : c'.queue.isOpen = c.queue.isOpen
  rendezvous : c'.queue.rendezvous = c.queue.rendezvous ++ c.meeting run.phase

variable {c c' : Clockwork} {r : RunId} {run : TimerRun}

theorem modifyRun_of_found (h : c.run? r = some run) (f : TimerRun → TimerRun) :
    c.modifyRun r f = { c with runs := c.runs.set r (f run) } := by
  unfold run? at h
  unfold modifyRun
  rw [List.modify_eq_set_getElem?, h]
  rfl

theorem setPhase_of_found (h : c.run? r = some run) (p : RunPhase) :
    c.setPhase r p = { c with runs := c.runs.set r { run with phase := p } } :=
  modifyRun_of_found h _

theorem setPhase_queue (h : c.run? r = some run) (q : EventQueue) (p : RunPhase) :
    { c with queue := q }.setPhase r p =
      { c with queue := q, runs := c.runs.set r { run with phase := p } } :=
  setPhase_of_found (c := { c with queue := q }) h p

theorem Stepped.run? {run' : TimerRun} {posted : List Event} (h : c.Stepped r run run' posted c')
    (p : RunId) : c'.run? p = if p = r then some run' else c.run? p := by
  unfold Clockwork.run?
  rw [h.runs, List.getElem?_set]
  by_cases hp : r = p
  · subst hp
    have hlt : r < c.runs.length := (List.getElem?_eq_some_iff.1 h.found).1
    simp [hlt]
  · rw [if_neg hp, if_neg (Ne.symm hp)]

theorem Stepped.count {run' : TimerRun} {posted : List Event} (h : c.Stepped r run run' posted c')
    (hk : run.counter < c.counters.length) : c'.count run.counter =
      if run.phase = .counting then c.count run.counter + 1 else c.count run.counter := by
  unfold Clockwork.count
  rw [h.counters, counted]
  split
  · rw [List.getElem?_set_self hk]
    rfl
  · rfl

/-! The kinds of steps: going to another place, marking the run finished, and posting. -/

theorem stepped_setPhase (hr : c.run? r = some run) {p : RunPhase} (ha : c.Advance r run p [])
    (hcount : run.phase ≠ .counting) (hmarks : run.phase.marks = false)
    (hmeet : c.meeting run.phase = []) :
    c.Stepped r run { run with phase := p } [] (c.setPhase r p) := by
  rw [setPhase_of_found hr]
  exact {
    found := hr
    advance := ha
    runs := rfl
    counter := rfl
    repeatCount := rfl
    cancelled := rfl
    finished := by rw [hmarks, Bool.or_false]
    counters := (if_neg hcount).symm
    pending := (List.append_nil _).symm
    isOpen := rfl
    rendezvous := by rw [hmeet, List.append_nil] }

theorem stepped_mark (hr : c.run? r = some run) {p : RunPhase} (ha : c.Advance r run p [])
    (hmarks : run.phase.marks = true) :
    c.Stepped r run { run with finished := true, phase := p } []
      ((c.modifyRun r fun run => { run with finished := true }).setPhase r p) := by
  have hlt : r < c.runs.length := (List.getElem?_eq_some_iff.1 hr).1
  have hmarked : (c.modifyRun r fun run => { run with finished := true }).run? r =
      some { run with finished := true } := by
    rw [modifyRun_of_found hr]
    exact List.getElem?_set_self hlt
  rw [setPhase_of_found hmarked, modifyRun_of_found hr]
  refine {
    found := hr
    advance := ha
    runs := List.set_set _
    counter := rfl
    repeatCount := rfl
    cancelled := rfl
    finished := by rw [hmarks, Bool.or_true]
    counters := ?_
    pending := (List.append_nil _).symm
    isOpen := rfl
    rendezvous := ?_ }
  · refine (if_neg ?_).symm
    intro hp
    rw [hp] at hmarks
    cases hmarks
  · cases hp : run.phase with
    | syncing n => rw [hp] at hmarks; cases hmarks
    | _ => exact (List.append_nil _).symm

theorem stepped_postThen (hr : c.run? r = some run) {e : Event} {sent gone : RunPhase}
    (hsent : c.queue.isOpen = true → c.Advance r run sent [e])
    (hgone : c.queue.isOpen = false → c.Advance r run gone []) (hcount : run.phase ≠ .counting)
    (hmarks : run.phase.marks = false) (hmeet : c.meeting run.phase = [])
    (he : ∀ q, e ≠ .sync q) :
    ∃ run' posted, c.Stepped r run run' posted (c.postThen r e sent gone) := by
  have hdiscard : c.queue.discard e = c.queue := by
    cases e with
    | sync q => exact absurd rfl (he q)
    | _ => rfl
  unfold postThen
  cases ho : c.queue.isOpen with
  | true =>
    rw [EventQueue.post_of_open ho]
    refine ⟨{ run with phase := sent }, [e], ?_⟩
    dsimp only
    rw [if_pos rfl, setPhase_queue hr]
    exact {
      found := hr
      advance := hsent ho
      runs := rfl
      counter := rfl
      repeatCount := rfl
      cancelled := rfl
      finished := by rw [hmarks, Bool.or_false]
      counters := (if_neg hcount).symm
      pending := rfl
      isOpen := rfl
      rendezvous := by rw [hmeet, List.append_nil] }
  | false =>
    rw [EventQueue.post_of_closed ho, hdiscard]
    exact ⟨{ run with phase := gone }, [], stepped_setPhase hr (hgone ho) hcount hmarks hmeet⟩

theorem stepped_count (hr : c.run? r = some run) (hp : run.phase = .counting) :
    c.Stepped r run { run with phase := .posting (c.count run.counter + 1) } []
      ((c.setCount run.counter (c.count run.counter + 1)).setPhase r
        (.posting (c.count run.counter + 1))) := by
  rw [setPhase_of_found (c := c.setCount run.counter (c.count run.counter + 1)) hr]
  exact {
    found := hr
    advance := .count hp
    runs := rfl
    counter := rfl
    repeatCount := rfl
    cancelled := rfl
    finished := by rw [hp]; exact (Bool.or_false _).symm
    counters := (if_pos hp).symm
    pending := (List.append_nil _).symm
    isOpen := rfl
    rendezvous := by rw [hp]; exact (List.append_nil _).symm }

theorem stepped_meet (hr : c.run? r = some run) {n : UInt32} (hp : run.phase = .syncing n) :
    ∃ run' posted, c.Stepped r run run' posted
      ({ c with queue := c.queue.postSync.2.2 }.setPhase r
        (if c.queue.postSync.1 then .awaiting n c.queue.postSync.2.1 else .closing)) := by
  rw [setPhase_queue hr]
  cases ho : c.queue.isOpen with
  | true =>
    rw [EventQueue.postSync_of_open ho]
    exact ⟨_, _, {
      found := hr
      advance := .meet hp ho
      runs := rfl
      counter := rfl
      repeatCount := rfl
      cancelled := rfl
      finished := by rw [hp]; exact (Bool.or_false _).symm
      counters := by rw [counted, hp]; rfl
      pending := rfl
      isOpen := rfl
      rendezvous := by rw [hp, meeting, ho]; rfl }⟩
  | false =>
    rw [EventQueue.postSync_of_closed ho]
    exact ⟨_, [], {
      found := hr
      advance := .meetGone hp ho
      runs := rfl
      counter := rfl
      repeatCount := rfl
      cancelled := rfl
      finished := by rw [hp]; exact (Bool.or_false _).symm
      counters := by rw [counted, hp]; rfl
      pending := (List.append_nil _).symm
      isOpen := rfl
      rendezvous := by rw [hp, meeting, ho]; rfl }⟩

theorem stepRun_cases (h : c.stepRun r = some c') :
    ∃ run run' posted, c.Stepped r run run' posted c' := by
  unfold stepRun at h
  cases hr : c.run? r with
  | none => rw [hr] at h; cases h
  | some run =>
    simp only [hr, Option.bind_eq_bind, Option.bind_some] at h
    refine ⟨run, ?_⟩
    -- most steps only go to another place
    have hgo : ∀ {p : RunPhase}, c.setPhase r p = c' → c.Advance r run p [] →
        run.phase ≠ .counting → run.phase.marks = false → c.meeting run.phase = [] →
        ∃ run' posted, c.Stepped r run run' posted c' :=
      fun h ha hcount hmarks hmeet => ⟨_, [], h ▸ stepped_setPhase hr ha hcount hmarks hmeet⟩
    cases hp : run.phase with
    | queued =>
      rw [hp] at h
      exact hgo (Option.some.inj h) (.lieDown hp) (by simp [hp]) (by rw [hp]; rfl) (by rw [hp]; rfl)
    | asleep t =>
      rw [hp] at h
      exact hgo (Option.some.inj h) (.wake hp) (by simp [hp]) (by rw [hp]; rfl) (by rw [hp]; rfl)
    | testing =>
      rw [hp] at h
      refine hgo (Option.some.inj h) ?_ (by simp [hp]) (by rw [hp]; rfl) (by rw [hp]; rfl)
      cases hc : run.cancelled with
      | true => exact .leave hp hc
      | false => exact .pass hp hc
    | counting =>
      rw [hp] at h
      exact ⟨_, [], Option.some.inj h ▸ stepped_count hr hp⟩
    | posting n =>
      rw [hp] at h
      exact Option.some.inj h ▸ stepped_postThen hr (.fire hp) (.fireGone hp) (by simp [hp])
        (by rw [hp]; rfl) (by rw [hp]; rfl) (by simp)
    | syncing n =>
      rw [hp] at h
      exact Option.some.inj h ▸ stepped_meet hr hp
    | awaiting n q =>
      rw [hp] at h
      obtain ⟨signalled, hq, h⟩ := Option.map_eq_some_iff.1 h
      refine hgo (p := if !signalled then .closing
        else if run.repeatCount ≠ 0 ∧ run.repeatCount ≤ n then .completing
        else .asleep (c.now + run.delay)) ?_ ?_ (by simp [hp]) (by rw [hp]; rfl) (by rw [hp]; rfl)
      · rw [← h]
        split
        · rfl
        · split <;> rfl
      · cases signalled with
        | false => exact .dropped hp hq
        | true =>
          by_cases hn : run.repeatCount ≠ 0 ∧ run.repeatCount ≤ n
          · simpa [hn] using Advance.exhaust hp hq hn
          · simpa [hn] using Advance.again hp hq hn
    | completing =>
      rw [hp] at h
      exact ⟨_, [], Option.some.inj h ▸ stepped_mark hr (.finish hp) (by rw [hp]; rfl)⟩
    | announcing =>
      rw [hp] at h
      exact Option.some.inj h ▸ stepped_postThen hr (.announce hp) (.announceGone hp) (by simp [hp])
        (by rw [hp]; rfl) (by rw [hp]; rfl) (by simp)
    | closing =>
      rw [hp] at h
      exact ⟨_, [], Option.some.inj h ▸ stepped_mark hr (.close hp) (by rw [hp]; rfl)⟩
    | retiring =>
      rw [hp] at h
      exact Option.some.inj h ▸ stepped_postThen hr (.retire hp) (.retireGone hp) (by simp [hp])
        (by rw [hp]; rfl) (by rw [hp]; rfl) (by simp)
    | done => rw [hp] at h; cases h

def giveUp (c : Clockwork) (run : Option RunId) : Clockwork := run.elim c c.cancel

theorem run?_giveUp (c : Clockwork) (asked : Option RunId) (r : RunId) :
    (c.giveUp asked).run? r = (c.run? r).map fun run =>
      { run with cancelled := run.cancelled || decide (asked = some r) } := by
  unfold run?
  cases asked with
  | none => simp [giveUp]
  | some r' =>
    unfold giveUp cancel modifyRun
    simp only [Option.elim_some, List.getElem?_modify]
    by_cases h : r' = r <;> simp [h]

theorem length_runs_giveUp (c : Clockwork) (asked : Option RunId) :
    (c.giveUp asked).runs.length = c.runs.length := by
  cases asked with
  | none => rfl
  | some r => exact List.length_modify _ _ _

theorem queue_giveUp (c : Clockwork) (asked : Option RunId) :
    (c.giveUp asked).queue = c.queue := by
  cases asked <;> rfl

theorem counters_giveUp (c : Clockwork) (asked : Option RunId) :
    (c.giveUp asked).counters = c.counters := by
  cases asked <;> rfl

end Clockwork

end ScriptPlayer
