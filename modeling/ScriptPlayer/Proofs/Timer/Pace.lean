import ScriptPlayer.Proofs.Timer.Deliveries

/-! The pace of a worker. It posts a fire and a rendezvous and goes on only when the interpreter has
got so far, so that no more than one fire of a run is ever on its way. -/
namespace ScriptPlayer

open Occurrence

variable {l : List Occurrence} {m m' : Moment} {a : Occurrence} {r : RunId}

/-! What one run has posted -/

def fire (r : RunId) : Event := .dispatch r timerKind

def completion (r : RunId) : Event := .dispatch r completeKind

def eventsOf (r : RunId) (ps : List (RunId × Event)) : List Event :=
  (ps.filter fun p => p.1 = r).map Prod.snd

/-- Posted, and not handled to the end. -/
def unhandled (l : List Occurrence) : List (RunId × Event) := (posts l).drop (handlings l).length

def enqueued (l : List Occurrence) : List (RunId × Event) := (posts l).drop (removals l)

def repetitions (r : RunId) (ks : List RendezvousId) : List Event :=
  ks.flatMap fun k => [fire r, .sync k]

theorem repetitions_snoc (r : RunId) (ks : List RendezvousId) (k : RendezvousId) :
    repetitions r (ks ++ [k]) = repetitions r ks ++ [fire r, .sync k] := by
  simp [repetitions]

section Entries

variable {ps ps' : List (RunId × Event)}

theorem eventsOf_append (r : RunId) (ps ps' : List (RunId × Event)) :
    eventsOf r (ps ++ ps') = eventsOf r ps ++ eventsOf r ps' := by
  simp [eventsOf]

theorem eventsOf_suffix (r : RunId) (h : ps <:+ ps') : eventsOf r ps <:+ eventsOf r ps' :=
  (h.filter _).map _

theorem mem_eventsOf {e : Event} : e ∈ eventsOf r ps ↔ (r, e) ∈ ps := by
  simp [eventsOf]

theorem eventsOf_posts_worked (r r' : RunId) (place : RunPhase) (posted : List Event) :
    eventsOf r (Occurrence.posts (.worked r' place posted)) = if r' = r then posted else [] := by
  unfold eventsOf Occurrence.posts
  rw [List.filter_map]
  split <;> simp_all [Function.comp_def]

theorem eventsOf_posts (ha : ∀ place posted, a ≠ .worked r place posted) :
    eventsOf r a.posts = [] := by
  cases a with
  | worked r' place posted =>
    rw [eventsOf_posts_worked, if_neg]
    rintro rfl
    exact ha _ _ rfl
  | _ => rfl

theorem eventsOf_posts_snoc (ha : ∀ place posted, a ≠ .worked r place posted) :
    eventsOf r (posts (l ++ [a])) = eventsOf r (posts l) := by
  rw [posts_snoc, eventsOf_append, eventsOf_posts ha, List.append_nil]

theorem map_snd_unhandled (l : List Occurrence) :
    (unhandled l).map Prod.snd = (events l).drop (handlings l).length :=
  List.map_drop

end Entries

/-! Where the worker stands tells what it has posted -/

/-- Full repetitions that have been met, and then some other events. -/
def Repeated (q : EventQueue) (r : RunId) (posted rest : List Event) : Prop :=
  ∃ ks, posted = repetitions r ks ++ rest ∧ ∀ k ∈ ks, q.status k = some .signalled

/-- The last events of a worker that has left its loop, and those of them that are still queued. -/
inductive Leaving (q : EventQueue) (r : RunId) : List Event → List Event → Prop
  | stopped : Leaving q r [] []
  | gone (h : q.isOpen = false) : Leaving q r [fire r] []
  | unmet {k : RendezvousId} (h : q.status k = some .dropped) : Leaving q r [fire r, .sync k] []
  | complete {queued : List Event} (h : queued <:+ [completion r]) :
      Leaving q r [completion r] queued

/-- What the worker of a run has posted, with the part of it that is not handled and the part that
is queued, as far as it follows from where the worker stands. -/
def Pace (q : EventQueue) (r : RunId) (posted unhandled queued : List Event) : RunPhase → Prop
  | .queued | .asleep _ | .testing | .counting | .posting _ | .completing | .announcing =>
    Repeated q r posted [] ∧ unhandled = []
  | .syncing _ => Repeated q r posted [fire r] ∧ unhandled <:+ [fire r]
  | .awaiting _ k =>
    Repeated q r posted [fire r, .sync k] ∧ unhandled <:+ [fire r, .sync k]
  | .closing | .retiring => ∃ rest, Repeated q r posted rest ∧ Leaving q r rest queued
  | .done => ∃ rest before bye, Repeated q r posted (rest ++ bye) ∧ Leaving q r rest before ∧
    queued <:+ before ++ bye ∧ (bye = [.retire r] ∨ bye = [] ∧ q.isOpen = false)

namespace Repeated

variable {q q' : EventQueue} {posted rest : List Event}

theorem mono (h : Repeated q r posted rest) (hq : q.GoesOn q') : Repeated q' r posted rest := by
  obtain ⟨ks, hposted, hmet⟩ := h
  exact ⟨ks, hposted, fun k hk => hq.settled k _ (by simp) (hmet k hk)⟩

theorem append (h : Repeated q r posted rest) (more : List Event) :
    Repeated q r (posted ++ more) (rest ++ more) := by
  obtain ⟨ks, hposted, hmet⟩ := h
  exact ⟨ks, by rw [hposted, List.append_assoc], hmet⟩

theorem met {k : RendezvousId} (h : Repeated q r posted [fire r, .sync k])
    (hk : q.status k = some .signalled) : Repeated q r posted [] := by
  obtain ⟨ks, hposted, hmet⟩ := h
  refine ⟨ks ++ [k], by rw [hposted, repetitions_snoc, List.append_nil], fun k' hk' => ?_⟩
  rcases List.mem_append.1 hk' with hk' | hk'
  · exact hmet k' hk'
  · rwa [List.mem_singleton.1 hk']

end Repeated

theorem Leaving.mono {q q' : EventQueue} {rest queued queued' : List Event}
    (h : Leaving q r rest queued) (hq : q.GoesOn q') (hw : queued' <:+ queued) :
    Leaving q' r rest queued' := by
  cases h with
  | stopped =>
    obtain rfl := List.suffix_nil.1 hw
    exact .stopped
  | gone h =>
    obtain rfl := List.suffix_nil.1 hw
    exact .gone (hq.gone h)
  | unmet h =>
    obtain rfl := List.suffix_nil.1 hw
    exact .unmet (hq.settled _ _ (by simp) h)
  | complete h => exact .complete (hw.trans h)

theorem eq_nil_of_suffix {es : List Event} {k : RendezvousId} (hes : es <:+ [fire r, .sync k])
    (hk : .sync k ∉ es) : es = [] := by
  rcases List.suffix_cons_iff.1 hes with rfl | hes
  · simp at hk
  · rcases List.suffix_cons_iff.1 hes with rfl | hes
    · simp at hk
    · exact List.suffix_nil.1 hes

namespace Pace

variable {q q' : EventQueue} {posted unhandled unhandled' queued queued' : List Event}
  {p : RunPhase}

theorem mono (h : Pace q r posted unhandled queued p) (hq : q.GoesOn q')
    (hu : unhandled' <:+ unhandled) (hw : queued' <:+ queued) :
    Pace q' r posted unhandled' queued' p := by
  cases p with
  | syncing n => exact ⟨h.1.mono hq, hu.trans h.2⟩
  | awaiting n k => exact ⟨h.1.mono hq, hu.trans h.2⟩
  | closing | retiring =>
    obtain ⟨rest, hrepeated, hleaving⟩ := h
    exact ⟨rest, hrepeated.mono hq, hleaving.mono hq hw⟩
  | done =>
    obtain ⟨rest, before, bye, hrepeated, hleaving, hqueued, hbye⟩ := h
    exact ⟨rest, before, bye, hrepeated.mono hq, hleaving.mono hq List.suffix_rfl,
      hw.trans hqueued, hbye.imp_right fun hbye => ⟨hbye.1, hq.gone hbye.2⟩⟩
  | _ => exact ⟨h.1.mono hq, List.suffix_nil.1 (h.2 ▸ hu)⟩

theorem advance {c : Clockwork} {run : TimerRun} {more : List Event}
    (h : Pace c.queue r posted unhandled queued run.phase) (ha : c.Advance r run p more)
    (hqueued : queued <:+ unhandled)
    (hmet : ∀ k, c.queue.status k = some .signalled → .sync k ∉ unhandled)
    (hunmet : ∀ k, c.queue.status k = some .dropped → .sync k ∉ queued)
    (hgone : c.queue.isOpen = false → queued = []) :
    Pace c.queue r (posted ++ more) (unhandled ++ more) (queued ++ more) p := by
  have hnone : unhandled = [] → queued = [] := by
    rintro rfl
    exact List.suffix_nil.1 hqueued
  cases ha with
  | lieDown hp | wake hp | pass hp | count hp | finish hp =>
    rw [hp] at h
    simpa [Pace] using h
  | leave hp | fireGone hp | announceGone hp =>
    rw [hp] at h
    refine ⟨[], ?_, ?_⟩
    · simpa using h.1
    · rw [hnone h.2]
      exact .stopped
  | fire hp =>
    rw [hp] at h
    refine ⟨h.1.append _, ?_⟩
    rw [h.2]
    exact List.suffix_rfl
  | meet hp =>
    rw [hp] at h
    refine ⟨h.1.append _, ?_⟩
    obtain ⟨before, hbefore⟩ := h.2
    exact ⟨before, by rw [← List.append_assoc, hbefore]; rfl⟩
  | meetGone hp ho =>
    rw [hp] at h
    refine ⟨[ScriptPlayer.fire r], ?_, ?_⟩
    · simpa using h.1
    · rw [hgone ho]
      exact .gone ho
  | @dropped n k hp hk =>
    rw [hp] at h
    have hdropped := EventQueue.waitResult?_eq_false.1 hk
    refine ⟨[ScriptPlayer.fire r, .sync k], ?_, ?_⟩
    · simpa using h.1
    · rw [eq_nil_of_suffix (hqueued.trans h.2) (hunmet k hdropped)]
      exact .unmet hdropped
  | exhaust hp hk | again hp hk =>
    rw [hp] at h
    have hsignalled := EventQueue.waitResult?_eq_true.1 hk
    refine ⟨?_, ?_⟩
    · simpa using h.1.met hsignalled
    · simpa using eq_nil_of_suffix h.2 (hmet _ hsignalled)
  | announce hp =>
    rw [hp] at h
    refine ⟨[completion r], h.1.append _, ?_⟩
    rw [hnone h.2]
    exact .complete List.suffix_rfl
  | close hp =>
    rw [hp] at h
    simpa [Pace] using h
  | retire hp =>
    rw [hp] at h
    obtain ⟨rest, hrepeated, hleaving⟩ := h
    exact ⟨rest, queued, [.retire r], hrepeated.append _, hleaving, List.suffix_rfl, Or.inl rfl⟩
  | retireGone hp ho =>
    rw [hp] at h
    obtain ⟨rest, hrepeated, hleaving⟩ := h
    refine ⟨rest, queued, [], ?_, hleaving, List.suffix_rfl, Or.inr ⟨rfl, ho⟩⟩
    simpa using hrepeated

end Pace

structure Paced (l : List Occurrence) (m : Moment) : Prop where
  pace : ∀ r p, m.world.phase? r = some p → Pace m.world.clockwork.queue r
    (eventsOf r (posts l)) (eventsOf r (unhandled l)) (eventsOf r (enqueued l)) p
  absent : ∀ r, m.world.phase? r = none → eventsOf r (posts l) = []

namespace Ledger

variable {k : RendezvousId}

theorem length_posts (l : List Occurrence) : (posts l).length = (events l).length :=
  (List.length_map _).symm

/-- What is left to handle grows by no more than what is posted. -/
theorem unhandled_snoc (h : Ledger l m) (r : RunId) (a : Occurrence) :
    eventsOf r (unhandled (l ++ [a])) <:+ eventsOf r (unhandled l) ++ eventsOf r a.posts := by
  rw [← eventsOf_append]
  refine eventsOf_suffix r ?_
  unfold unhandled
  rw [← List.drop_append_of_le_length (length_posts l ▸ h.handlings_le), ← posts_snoc,
    handlings_snoc, List.length_append, ← List.drop_drop]
  exact List.drop_suffix _ _

theorem enqueued_snoc (h : Ledger l m) (r : RunId) (a : Occurrence) :
    eventsOf r (enqueued (l ++ [a])) <:+ eventsOf r (enqueued l) ++ eventsOf r a.posts := by
  rw [← eventsOf_append]
  refine eventsOf_suffix r ?_
  unfold enqueued
  rw [← List.drop_append_of_le_length (length_posts l ▸ h.removals_le), ← posts_snoc,
    removals_snoc, ← List.drop_drop]
  exact List.drop_suffix _ _

theorem enqueued_suffix (h : Ledger l m) : enqueued l <:+ unhandled l :=
  List.drop_suffix_drop_left _ (Nat.le_trans h.handlings_le_takes h.takes_le)

theorem pending_eq (h : Ledger l m) :
    m.world.clockwork.queue.pending = (enqueued l).map Prod.snd := by
  rw [h.pending, enqueued, List.map_drop]
  rfl

theorem not_mem_unhandled (h : Ledger l m)
    (hk : m.world.clockwork.queue.status k = some .signalled) :
    .sync k ∉ eventsOf r (unhandled l) := by
  intro hmem
  refine h.signalled k hk ?_
  have hsnd := List.mem_map_of_mem (f := Prod.snd) (mem_eventsOf.1 hmem)
  rwa [unhandled, List.map_drop] at hsnd

theorem not_mem_enqueued (h : Ledger l m)
    (hk : m.world.clockwork.queue.status k = some .dropped) :
    .sync k ∉ eventsOf r (enqueued l) := by
  intro hmem
  have hsnd := List.mem_map_of_mem (f := Prod.snd) (mem_eventsOf.1 hmem)
  rw [← h.pending_eq] at hsnd
  cases hk.symm.trans (h.waiting k hsnd)

theorem enqueued_of_closed (h : Ledger l m) (hgone : m.world.clockwork.queue.isOpen = false) :
    eventsOf r (enqueued l) = [] := by
  have hpending := h.pending_eq.symm.trans (h.closed hgone)
  rw [List.map_eq_nil_iff.1 hpending]
  rfl

end Ledger

namespace Paced

theorem pace_worked (h : Paced l m) (hl : Ledger l m) {place : RunPhase} {posted : List Event}
    (hs : Happens m (.worked r place posted) m') {p : RunPhase} (hp : m'.world.phase? r = some p) :
    Pace m'.world.clockwork.queue r (eventsOf r (posts (l ++ [.worked r place posted])))
      (eventsOf r (unhandled (l ++ [.worked r place posted])))
      (eventsOf r (enqueued (l ++ [.worked r place posted]))) p := by
  obtain ⟨run, run', c, -, hstep, rfl⟩ := hs.stepped
  rw [World.phase?_of_stepped hstep, if_pos rfl] at hp
  obtain rfl := Option.some.inj hp
  have hphase : m.world.phase? r = some run.phase := by
    rw [World.phase?, hstep.found]
    rfl
  have hpace := (h.pace r _ hphase).advance hstep.advance
    (eventsOf_suffix r hl.enqueued_suffix) (fun k => hl.not_mem_unhandled)
    (fun k => hl.not_mem_enqueued) hl.enqueued_of_closed
  have hposted : eventsOf r (Occurrence.posts (.worked r place posted)) = posted := by
    rw [eventsOf_posts_worked, if_pos rfl]
  have hu := hl.unhandled_snoc r (.worked r place posted)
  have hw := hl.enqueued_snoc r (.worked r place posted)
  rw [hposted] at hu hw
  rw [posts_snoc, eventsOf_append, hposted]
  exact hpace.mono hs.goesOn hu hw

theorem pace_unmoved (h : Paced l m) (hl : Ledger l m) (hs : Happens m a m')
    (ha : ∀ place posted, a ≠ .worked r place posted) {p : RunPhase}
    (hp : m'.world.phase? r = some p) :
    Pace m'.world.clockwork.queue r (eventsOf r (posts (l ++ [a])))
      (eventsOf r (unhandled (l ++ [a]))) (eventsOf r (enqueued (l ++ [a]))) p := by
  have hu := hl.unhandled_snoc r a
  have hw := hl.enqueued_snoc r a
  rw [eventsOf_posts ha, List.append_nil] at hu hw
  rw [eventsOf_posts_snoc ha]
  rcases (hs.unmoved ha).phase? with hsame | ⟨hnone, hqueued⟩
  · exact (h.pace r p (hsame ▸ hp)).mono hs.goesOn hu hw
  · obtain rfl := Option.some.inj (hqueued.symm.trans hp)
    have habsent := h.absent r hnone
    have hless : eventsOf r (unhandled l) <:+ eventsOf r (posts l) :=
      eventsOf_suffix r (List.drop_suffix _ _)
    rw [habsent] at hless ⊢
    exact ⟨⟨[], rfl, by simp⟩, List.suffix_nil.1 (hu.trans hless)⟩

theorem happens (h : Paced l m) (hl : Ledger l m) (hs : Happens m a m') :
    Paced (l ++ [a]) m' := by
  constructor
  case pace =>
    intro r p hp
    by_cases ha : ∃ place posted, a = .worked r place posted
    · obtain ⟨place, posted, rfl⟩ := ha
      exact h.pace_worked hl hs hp
    · exact h.pace_unmoved hl hs (fun place posted h => ha ⟨place, posted, h⟩) hp
  case absent =>
    intro r hnone
    have ha : ∀ place posted, a ≠ .worked r place posted := by
      rintro place posted rfl
      obtain ⟨run, run', c, -, hstep, rfl⟩ := hs.stepped
      rw [World.phase?_of_stepped hstep, if_pos rfl] at hnone
      cases hnone
    rw [eventsOf_posts_snoc ha]
    refine h.absent r ?_
    rcases (hs.unmoved ha).phase? with hsame | ⟨-, hqueued⟩
    · exact hsame.symm.trans hnone
    · cases hnone.symm.trans hqueued

end Paced

theorem History.paced (h : History l m) : Paced l m := by
  induction h with
  | fresh h =>
    constructor
    · intro r p hp
      rw [World.phase?, Clockwork.run?, h.runs] at hp
      cases hp
    · exact fun _ _ => rfl
  | snoc h hs ih => exact ih.happens h.ledger hs

/-! What follows for the queue -/

def Event.isDispatch : Event → Bool
  | dispatch .. => true
  | _ => false

theorem Clockwork.Advance.posting_of_fire {c : Clockwork} {run : TimerRun} {p : RunPhase}
    {posted : List Event} (h : c.Advance r run p posted) (hfire : ScriptPlayer.fire r ∈ posted) :
    ∃ n, run.phase = .posting n := by
  cases h with
  | fire hp => exact ⟨_, hp⟩
  | announce | meet | retire => simp [ScriptPlayer.fire, timerKind, completeKind] at hfire
  | _ => cases hfire

/-- No more than a fire and its rendezvous is queued, or a completion and the retirement. -/
theorem Pace.queued_le {q : EventQueue} {posted unhandled queued : List Event} {p : RunPhase}
    (h : Pace q r posted unhandled queued p) (hqueued : queued <:+ unhandled) :
    queued.length ≤ 2 ∧ queued.countP Event.isDispatch ≤ 1 := by
  have hle : ∀ es : List Event, queued <:+ es → es.length ≤ 2 → es.countP Event.isDispatch ≤ 1 →
      queued.length ≤ 2 ∧ queued.countP Event.isDispatch ≤ 1 := fun es hes hlen hcount =>
    ⟨Nat.le_trans hes.length_le hlen, Nat.le_trans hes.sublist.countP_le hcount⟩
  have hleaving : ∀ rest before bye, Leaving q r rest before → bye = [.retire r] ∨ bye = [] →
      queued <:+ before ++ bye → queued.length ≤ 2 ∧ queued.countP Event.isDispatch ≤ 1 := by
    rintro rest before bye hleaving hbye hqueued
    have hbefore : before <:+ [completion r] := by
      cases hleaving with
      | complete h => exact h
      | _ => exact List.nil_suffix
    have hlen := hbefore.length_le
    have hcount : before.countP Event.isDispatch ≤ 1 := hbefore.sublist.countP_le
    rcases hbye with rfl | rfl
    · exact hle _ hqueued (by simpa using hlen) (by simpa [Event.isDispatch] using hcount)
    · exact hle _ hqueued (by simpa using Nat.le_succ_of_le hlen) (by simpa using hcount)
  cases p with
  | syncing n => exact hle _ (hqueued.trans h.2) (by simp) (by simp [fire, Event.isDispatch])
  | awaiting n k =>
    refine hle _ (hqueued.trans h.2) (Nat.le_refl _) ?_
    simp [fire, List.countP_cons, Event.isDispatch]
  | closing | retiring =>
    obtain ⟨rest, -, hrest⟩ := h
    exact hleaving rest queued [] hrest (Or.inr rfl) (by simp)
  | done =>
    obtain ⟨rest, before, bye, -, hrest, hsuffix, hbye⟩ := h
    exact hleaving rest before bye hrest (hbye.imp_right And.left) hsuffix
  | _ => exact hle [] (h.2 ▸ hqueued) (by simp) (by simp)

theorem Ledger.handled_in_order (h : Ledger l m) : handlings l <+: events l :=
  (h.inHand ▸ List.prefix_append _ _ : handlings l <+: takes l).trans h.fifo

/-- A rendezvous has been signalled only when all up to it has been handled. -/
theorem Ledger.handled_of_signalled (h : Ledger l m) {k : RendezvousId} {earlier later : List Event}
    (hk : m.world.clockwork.queue.status k = some .signalled)
    (hevents : events l = earlier ++ .sync k :: later) : earlier ++ [.sync k] <+: handlings l := by
  rcases Nat.lt_or_ge earlier.length (handlings l).length with hlt | hge
  · refine List.prefix_of_prefix_length_le ?_ h.handled_in_order ?_
    · exact ⟨later, by rw [hevents, List.append_assoc]; rfl⟩
    · rw [List.length_append]
      exact hlt
  · refine absurd ?_ (h.signalled k hk)
    rw [hevents, List.drop_append_of_le_length hge]
    simp

/-- What a worker has posted, in order: fires with a rendezvous each, then perhaps one event more,
then perhaps its retirement. -/
structure InTurn (q : EventQueue) (r : RunId) (p : Option RunPhase) (posted : List Event)
    (ks : List RendezvousId) (last bye : List Event) : Prop where
  posted_eq : posted = repetitions r ks ++ last ++ bye
  last_eq : last = [] ∨ last = [fire r] ∨ last = [completion r]
  bye_eq : bye = [] ∨ bye = [.retire r]
  /-- a fire without a rendezvous is one that will have it, or the queue is gone -/
  cut : last = [fire r] → bye = [] ∧ (∃ n, p = some (.syncing n)) ∨ q.isOpen = false
  /-- a worker goes on when it has been met, and ends when its rendezvous is dropped -/
  met : ∀ k ∈ ks, q.status k = some .signalled ∨
    ks.getLast? = some k ∧ last = [] ∧ (bye = [] ∨ q.status k = some .dropped)
  retired : p = some .done → q.isOpen = true → bye = [.retire r]

theorem Leaving.inTurn {q : EventQueue} {posted rest before bye : List Event} {p : Option RunPhase}
    (h : Leaving q r rest before) (hposted : Repeated q r posted (rest ++ bye))
    (hbye : bye = [] ∨ bye = [.retire r])
    (hdone : p = some .done → q.isOpen = true → bye = [.retire r]) :
    ∃ ks last bye, InTurn q r p posted ks last bye := by
  obtain ⟨ks, heq, hmet⟩ := hposted
  rw [← List.append_assoc] at heq
  cases h with
  | stopped =>
    exact ⟨ks, [], bye, heq, Or.inl rfl, hbye, by simp, fun k hk => Or.inl (hmet k hk), hdone⟩
  | gone ho =>
    exact ⟨ks, [fire r], bye, heq, Or.inr (Or.inl rfl), hbye, fun _ => Or.inr ho,
      fun k hk => Or.inl (hmet k hk), hdone⟩
  | @unmet k hk =>
    refine ⟨ks ++ [k], [], bye, ?_, Or.inl rfl, hbye, by simp, fun k' hk' => ?_, hdone⟩
    · rw [heq, repetitions_snoc, List.append_nil]
    · rcases List.mem_append.1 hk' with hk' | hk'
      · exact Or.inl (hmet k' hk')
      · obtain rfl := List.mem_singleton.1 hk'
        exact Or.inr ⟨by simp, rfl, Or.inr hk⟩
  | complete =>
    refine ⟨ks, [completion r], bye, heq, Or.inr (Or.inr rfl), hbye, fun hlast => ?_,
      fun k hk => Or.inl (hmet k hk), hdone⟩
    simp [fire, completion, timerKind, completeKind] at hlast

theorem Pace.inTurn {q : EventQueue} {posted unhandled queued : List Event} {p : RunPhase}
    (h : Pace q r posted unhandled queued p) :
    ∃ ks last bye, InTurn q r (some p) posted ks last bye := by
  cases p with
  | syncing n =>
    obtain ⟨ks, hposted, hmet⟩ := h.1
    exact ⟨ks, [fire r], [], by rw [hposted, List.append_nil], Or.inr (Or.inl rfl), Or.inl rfl,
      fun _ => Or.inl ⟨rfl, n, rfl⟩, fun k hk => Or.inl (hmet k hk), by simp⟩
  | awaiting n k =>
    obtain ⟨ks, hposted, hmet⟩ := h.1
    refine ⟨ks ++ [k], [], [], ?_, Or.inl rfl, Or.inl rfl, by simp, fun k' hk' => ?_, by simp⟩
    · rw [hposted, repetitions_snoc, List.append_nil, List.append_nil]
    · rcases List.mem_append.1 hk' with hk' | hk'
      · exact Or.inl (hmet k' hk')
      · obtain rfl := List.mem_singleton.1 hk'
        exact Or.inr ⟨by simp, rfl, Or.inl rfl⟩
  | closing | retiring =>
    obtain ⟨rest, hrepeated, hrest⟩ := h
    have hposted : Repeated q r posted (rest ++ []) := by simpa using hrepeated
    exact hrest.inTurn hposted (Or.inl rfl) (by simp)
  | done =>
    obtain ⟨rest, before, bye, hrepeated, hrest, -, hbye⟩ := h
    refine hrest.inTurn hrepeated (hbye.symm.imp_left And.left) fun _ ho => ?_
    rcases hbye with hbye | ⟨-, hgone⟩
    · exact hbye
    · cases ho.symm.trans hgone
  | _ =>
    have hposted : Repeated q r posted ([] ++ []) := h.1
    exact Leaving.stopped.inTurn hposted (Or.inl rfl) (by simp)

theorem History.phase?_of_posted (h : History l m) {e : Event} (he : (r, e) ∈ posts l) :
    ∃ p, m.world.phase? r = some p := by
  cases hp : m.world.phase? r with
  | none =>
    have hmem := mem_eventsOf.2 he
    rw [h.paced.absent r hp] at hmem
    cases hmem
  | some p => exact ⟨p, rfl⟩

theorem History.unhandled_of_fire (h : History l m) {place : RunPhase} {posted : List Event}
    (hs : Happens m (.worked r place posted) m') (hfire : fire r ∈ posted) :
    eventsOf r (unhandled l) = [] := by
  obtain ⟨run, run', c, -, hstep, -⟩ := hs.stepped
  obtain ⟨n, hn⟩ := hstep.advance.posting_of_fire hfire
  have hphase : m.world.phase? r = some (.posting n) := by
    rw [World.phase?, hstep.found, ← hn]
    rfl
  exact (h.paced.pace r _ hphase).2

/-- The worker of a run posts fires with a rendezvous each, then perhaps the completion, then its
retirement; a repetition is cut short only by a queue that is gone, or by a rendezvous dropped. Of
one run there are never more than two events in the queue, and one dispatch. Another fire is posted
only when the fires before it have been handled, and a rendezvous is signalled only when all that
was posted before it, by whatever worker, has been. -/
theorem History.one_fire_at_a_time (h : History l m) :
    (∀ r, ∃ ks last bye,
      InTurn m.world.clockwork.queue r (m.world.phase? r) (eventsOf r (posts l)) ks last bye) ∧
    (m.world.clockwork.queue.pending = (enqueued l).map Prod.snd ∧
      ∀ r, (eventsOf r (enqueued l)).length ≤ 2 ∧
        (eventsOf r (enqueued l)).countP Event.isDispatch ≤ 1) ∧
    (∀ r place posted before after, l = before ++ worked r place posted :: after →
      fire r ∈ posted → (handlings before).count (fire r) = (events before).count (fire r)) ∧
    ∀ k earlier later, m.world.clockwork.queue.waitResult? k = some true →
      events l = earlier ++ .sync k :: later → earlier ++ [.sync k] <+: handlings l := by
  have hledger := h.ledger
  refine ⟨fun r => ?_, ⟨hledger.pending_eq, fun r => ?_⟩, ?_, fun k earlier later hk =>
    hledger.handled_of_signalled (EventQueue.waitResult?_eq_true.1 hk)⟩
  · cases hp : m.world.phase? r with
    | none => exact ⟨[], [], [], h.paced.absent r hp, by simp, by simp, by simp, by simp, by simp⟩
    | some p => exact (h.paced.pace r p hp).inTurn
  · cases hp : m.world.phase? r with
    | none =>
      have hless : eventsOf r (enqueued l) <:+ eventsOf r (posts l) :=
        eventsOf_suffix r (List.drop_suffix _ _)
      rw [h.paced.absent r hp] at hless
      simp [List.suffix_nil.1 hless]
    | some p =>
      exact (h.paced.pace r p hp).queued_le (eventsOf_suffix r hledger.enqueued_suffix)
  · rintro r place posted before after rfl hfire
    obtain ⟨m₁, m₂, h₁, hs, -⟩ := h.split_at
    have hnone := h₁.unhandled_of_fire hs hfire
    obtain ⟨rest, hrest⟩ := h₁.ledger.handled_in_order
    have hunhandled : rest = (unhandled before).map Prod.snd := by
      rw [map_snd_unhandled, ← hrest, List.drop_left]
    -- an unhandled fire of the run would be one that its own worker has posted
    have hfires : fire r ∉ rest := by
      rw [hunhandled]
      intro hmem
      obtain ⟨⟨r', e⟩, hp, rfl : e = fire r⟩ := List.mem_map.1 hmem
      obtain rfl := h₁.eq_of_posts_dispatch (List.mem_of_mem_drop hp)
      have hown := mem_eventsOf.2 hp
      rw [hnone] at hown
      cases hown
    rw [← hrest, List.count_append, List.count_eq_zero_of_not_mem hfires]
    rfl

theorem History.one_fire_twice : ∃ before m,
    History (before ++ [worked 0 (.posting 2) [fire 0]]) m ∧
      (events before).count (fire 0) = 1 ∧ (handlings before).count (fire 0) = 1 := by
  let before := [created 0, configured 0, started 0 0, elsewhere, worked 0 .queued []] ++
    lap 0 1 0 ++ round 0 0 (some 0) ++ [worked 0 (.awaiting 1 0) [], worked 0 (.asleep 0) [],
      worked 0 .testing [], worked 0 .counting []]
  obtain ⟨m, h⟩ := History.exists_of_play
    (Cue.timer 0 ++ [.start 0, .move (.start 0)] ++ Cue.steps 0 6 ++ Cue.handles 2 ++
      Cue.steps 0 5) (before ++ [worked 0 (.posting 2) [fire 0]]) (by decide +kernel)
  have hposted : (events before).count (fire 0) = 1 := by decide
  refine ⟨before, m, h, hposted, ?_⟩
  rw [← hposted]
  exact h.one_fire_at_a_time.2.2.1 0 (.posting 2) [fire 0] before [] rfl (by simp)

end ScriptPlayer
