import ScriptPlayer.Proofs.Timer.History

/-! The queue as an account of what was posted. Events are taken in the order in which they were
posted and one at a time, what is pending is what was posted and neither taken nor discarded, and a
rendezvous is signalled only when all that was posted up to it has been handled. -/
namespace ScriptPlayer

namespace Occurrence

/-- The events that the queue takes, each with the run whose worker posts it. -/
def posts : Occurrence → List (RunId × Event)
  | worked r _ posted => posted.map (Prod.mk r)
  | _ => []

def take? : Occurrence → Option Event
  | taken e _ => some e
  | _ => none

def handling? : Occurrence → Option Event
  | handled e => some e
  | _ => none

def removes : Occurrence → Nat
  | taken .. => 1
  | shutDown n | closed n => n
  | _ => 0

end Occurrence

open Occurrence

/-- All that was posted, in order. -/
def posts (l : List Occurrence) : List (RunId × Event) := l.flatMap Occurrence.posts

def events (l : List Occurrence) : List Event := (posts l).map Prod.snd

def takes (l : List Occurrence) : List Event := l.filterMap take?

def handlings (l : List Occurrence) : List Event := l.filterMap handling?

def removals (l : List Occurrence) : Nat := l.foldl (fun n a => n + a.removes) 0

def Event.rendezvous? : Event → Option RendezvousId
  | sync q => some q
  | _ => none

def Loop.inHand : Loop → List Event
  | handling e => [e]
  | _ => []

section Entries

variable {l : List Occurrence} {a : Occurrence} {e : Event} {r : RunId} {q : RendezvousId}

@[simp] theorem posts_snoc (l : List Occurrence) (a : Occurrence) :
    posts (l ++ [a]) = posts l ++ a.posts := by
  simp [posts]

@[simp] theorem events_snoc (l : List Occurrence) (a : Occurrence) :
    events (l ++ [a]) = events l ++ a.posts.map Prod.snd := by
  simp [events]

@[simp] theorem takes_snoc (l : List Occurrence) (a : Occurrence) :
    takes (l ++ [a]) = takes l ++ a.take?.toList := by
  cases h : a.take? <;> simp [takes, h]

@[simp] theorem handlings_snoc (l : List Occurrence) (a : Occurrence) :
    handlings (l ++ [a]) = handlings l ++ a.handling?.toList := by
  cases h : a.handling? <;> simp [handlings, h]

@[simp] theorem removals_snoc (l : List Occurrence) (a : Occurrence) :
    removals (l ++ [a]) = removals l + a.removes := by
  simp [removals]

theorem Event.mem_filterMap_rendezvous? {es : List Event} :
    q ∈ es.filterMap rendezvous? ↔ .sync q ∈ es := by
  rw [List.mem_filterMap]
  constructor
  · rintro ⟨e, he, h⟩
    cases e with
    | sync q' =>
      obtain rfl := Option.some.inj h
      exact he
    | _ => cases h
  · exact fun h => ⟨_, h, rfl⟩

theorem Clockwork.Advance.rendezvous_cases {c : Clockwork} {run : TimerRun} {p : RunPhase}
    {posted : List Event} (h : c.Advance r run p posted) :
    posted.filterMap Event.rendezvous? = [] ∨
      posted.filterMap Event.rendezvous? = [c.queue.rendezvous.length] ∧
        c.meeting run.phase = [.waiting] := by
  rcases h.posted_cases with rfl | rfl | rfl | rfl | ⟨rfl, hmeet⟩
  · exact Or.inl rfl
  · exact Or.inl rfl
  · exact Or.inl rfl
  · exact Or.inl rfl
  · exact Or.inr ⟨rfl, hmeet⟩

theorem EventQueue.of_handled {c c' : EventQueue}
    (h : c' = c ∨ ∃ q, e = .sync q ∧ c' = c.signal q) :
    c'.pending = c.pending ∧ c'.rendezvous.length = c.rendezvous.length ∧ c'.isOpen = c.isOpen ∧
      ∀ q, c'.status q = c.status q ∨ e = .sync q := by
  rcases h with rfl | ⟨q, rfl, rfl⟩
  · exact ⟨rfl, rfl, rfl, fun _ => Or.inl rfl⟩
  · refine ⟨rfl, List.length_modify _ _ _, rfl, fun q' => ?_⟩
    by_cases hq : q' = q
    · exact Or.inr (hq ▸ rfl)
    · exact Or.inl (status_signal_of_ne hq)

theorem Occurrence.isScript.entries (h : a.isScript = true) :
    a.posts = [] ∧ a.take? = none ∧ a.handling? = none ∧ a.removes = 0 := by
  cases a <;> first | exact ⟨rfl, rfl, rfl, rfl⟩ | cases h

end Entries

/-- What the queue has to do with what has happened. -/
structure Ledger (l : List Occurrence) (m : Moment) : Prop where
  pending : m.world.clockwork.queue.pending = (events l).drop (removals l)
  removals_le : removals l ≤ (events l).length
  fifo : takes l <+: events l
  takes_le : (takes l).length ≤ removals l
  /-- as long as there is a player, events leave the queue by being taken only -/
  removed : m.loop ≠ .gone → removals l = (takes l).length
  inHand : takes l = handlings l ++ m.loop.inHand
  /-- a rendezvous is posted once -/
  once : ((events l).filterMap Event.rendezvous?).Nodup
  known : ∀ q, .sync q ∈ events l → q < m.world.clockwork.queue.rendezvous.length
  waiting : ∀ q, .sync q ∈ m.world.clockwork.queue.pending →
    m.world.clockwork.queue.status q = some .waiting
  closed : m.world.clockwork.queue.isOpen = false → m.world.clockwork.queue.pending = []
  signalled : ∀ q, m.world.clockwork.queue.status q = some .signalled →
    .sync q ∉ (events l).drop (handlings l).length

namespace Ledger

variable {l : List Occurrence} {m m' : Moment} {a : Occurrence} {e : Event} {r : RunId}
  {q : RendezvousId}

theorem handlings_le_takes (h : Ledger l m) : (handlings l).length ≤ (takes l).length := by
  rw [h.inHand, List.length_append]
  exact Nat.le_add_right _ _

theorem handlings_le (h : Ledger l m) : (handlings l).length ≤ (events l).length :=
  Nat.le_trans h.handlings_le_takes (Nat.le_trans h.takes_le h.removals_le)

theorem script (h : Ledger l m) (hs : Happens m a m') (ha : a.isScript = true) :
    Ledger (l ++ [a]) m' := by
  obtain ⟨hloop, hqueue, -⟩ := hs.script ha
  obtain ⟨hposts, htake, hhandling, hremoves⟩ := isScript.entries ha
  have hevents : events (l ++ [a]) = events l := by simp [hposts]
  have htakes : takes (l ++ [a]) = takes l := by simp [htake]
  have hhandlings : handlings (l ++ [a]) = handlings l := by simp [hhandling]
  have hremovals : removals (l ++ [a]) = removals l := by simp [hremoves]
  constructor <;> simp only [hevents, htakes, hhandlings, hremovals, hloop, hqueue]
  case pending => exact h.pending
  case removals_le => exact h.removals_le
  case fifo => exact h.fifo
  case takes_le => exact h.takes_le
  case removed => exact h.removed
  case inHand => exact h.inHand
  case once => exact h.once
  case known => exact h.known
  case waiting => exact h.waiting
  case closed => exact h.closed
  case signalled => exact h.signalled

theorem work (h : Ledger l m) {run run' : TimerRun} {posted : List Event} {c : Clockwork}
    (hs : m.world.clockwork.Stepped r run run' posted c) (place : RunPhase) :
    Ledger (l ++ [.worked r place posted])
      { m with world := { m.world with clockwork := c } } := by
  have hevents : events (l ++ [.worked r place posted]) = events l ++ posted := by
    simp [Occurrence.posts, Function.comp_def]
  have htakes : takes (l ++ [.worked r place posted]) = takes l := by simp [take?]
  have hhandlings : handlings (l ++ [.worked r place posted]) = handlings l := by
    simp [handling?]
  have hremovals : removals (l ++ [.worked r place posted]) = removals l := by simp [removes]
  have hnew : ∀ q, .sync q ∈ posted → q = m.world.clockwork.queue.rendezvous.length ∧
      m.world.clockwork.meeting run.phase = [.waiting] := by
    intro q hq
    rw [← Event.mem_filterMap_rendezvous?] at hq
    rcases hs.advance.rendezvous_cases with hnone | ⟨hone, hmeet⟩
    · rw [hnone] at hq
      cases hq
    · rw [hone] at hq
      exact ⟨List.mem_singleton.1 hq, hmeet⟩
  have hstatus : ∀ q, c.queue.status q = (m.world.clockwork.queue.rendezvous ++
      m.world.clockwork.meeting run.phase)[q]? := fun q => by
    rw [EventQueue.status, hs.rendezvous]
  constructor <;> simp only [hevents, htakes, hhandlings, hremovals]
  case pending => rw [hs.pending, h.pending, List.drop_append_of_le_length h.removals_le]
  case removals_le =>
    rw [List.length_append]
    exact Nat.le_add_right_of_le h.removals_le
  case fifo => exact h.fifo.trans (List.prefix_append _ _)
  case takes_le => exact h.takes_le
  case removed => exact h.removed
  case inHand => exact h.inHand
  case once =>
    rw [List.filterMap_append]
    refine h.once.append ?_ fun q hq hq' => ?_
    · rcases hs.advance.rendezvous_cases with hnone | ⟨hone, -⟩
      · rw [hnone]
        exact List.nodup_nil
      · rw [hone]
        exact List.nodup_singleton _
    · have hlt := h.known q (Event.mem_filterMap_rendezvous?.1 hq)
      have heq := (hnew q (Event.mem_filterMap_rendezvous?.1 hq')).1
      exact absurd heq (Nat.ne_of_lt hlt)
  case known =>
    intro q hq
    rw [hs.rendezvous, List.length_append]
    rcases List.mem_append.1 hq with hq | hq
    · exact Nat.lt_add_right _ (h.known q hq)
    · obtain ⟨rfl, hmeet⟩ := hnew q hq
      rw [hmeet]
      exact Nat.lt_succ_self _
  case waiting =>
    intro q hq
    rw [hstatus]
    rw [hs.pending] at hq
    rcases List.mem_append.1 hq with hq | hq
    · have hw := h.waiting q hq
      rw [List.getElem?_append_left (List.getElem?_eq_some_iff.1 hw).1]
      exact hw
    · obtain ⟨rfl, hmeet⟩ := hnew q hq
      rw [hmeet, List.getElem?_concat_length]
  case closed =>
    intro hgone
    rw [hs.isOpen] at hgone
    rw [hs.pending, h.closed hgone, hs.advance.posted_of_closed hgone]
    rfl
  case signalled =>
    intro q hq hmem
    rw [hstatus, List.getElem?_append] at hq
    split at hq
    · rename_i hlt
      rw [List.drop_append_of_le_length h.handlings_le] at hmem
      rcases List.mem_append.1 hmem with hmem | hmem
      · exact h.signalled q hq hmem
      · exact absurd (hnew q hmem).1 (Nat.ne_of_lt hlt)
    · exact m.world.clockwork.not_signalled_of_meeting (List.mem_of_getElem? hq)

theorem take (h : Ledger l m) (hl : m.loop = .idle) {rest : List Event}
    (hp : m.world.clockwork.queue.pending = e :: rest) {receiver : Option ObjectId} {w : World}
    (hw : w.clockwork.queue = { m.world.clockwork.queue with pending := rest }) :
    Ledger (l ++ [.taken e receiver]) ⟨w, .handling e⟩ := by
  have hevents : events (l ++ [.taken e receiver]) = events l := by simp [Occurrence.posts]
  have htakes : takes (l ++ [.taken e receiver]) = takes l ++ [e] := by simp [take?]
  have hhandlings : handlings (l ++ [.taken e receiver]) = handlings l := by simp [handling?]
  have hremovals : removals (l ++ [.taken e receiver]) = removals l + 1 := by simp [removes]
  have hdrop : (events l).drop (removals l) = e :: rest := h.pending.symm.trans hp
  have hremoved : removals l = (takes l).length := h.removed (by rw [hl]; simp)
  have hlt : removals l < (events l).length := by
    refine Nat.lt_of_not_le fun hle => ?_
    rw [List.drop_eq_nil_of_le hle] at hdrop
    cases hdrop
  constructor <;> simp only [hevents, htakes, hhandlings, hremovals, hw]
  case pending =>
    rw [← List.drop_drop, hdrop]
    rfl
  case removals_le => exact hlt
  case fifo =>
    obtain ⟨later, hlater⟩ := h.fifo
    refine ⟨rest, ?_⟩
    rw [List.append_assoc, List.singleton_append, ← hdrop, hremoved, ← hlater, List.drop_left]
  case takes_le =>
    rw [List.length_append, hremoved]
    exact Nat.le_refl _
  case removed =>
    intro _
    rw [List.length_append, hremoved]
    rfl
  case inHand =>
    rw [h.inHand, hl]
    simp [Loop.inHand]
  case once => exact h.once
  case known => exact h.known
  case waiting => exact fun q hq => h.waiting q (hp ▸ List.mem_cons_of_mem e hq)
  case closed =>
    intro hgone
    cases hp.symm.trans (h.closed hgone)
  case signalled => exact h.signalled

theorem not_mem_drop (h : Ledger l m) (hl : m.loop = .handling (.sync q)) :
    .sync q ∉ (events l).drop ((handlings l).length + 1) := by
  obtain ⟨later, hlater⟩ := h.fifo
  have htakes : takes l = handlings l ++ [.sync q] := by rw [h.inHand, hl]; rfl
  have honce := h.once
  rw [← hlater, List.filterMap_append] at honce
  have hlength : (handlings l).length + 1 = (takes l).length := by rw [htakes]; simp
  rw [hlength, ← hlater, List.drop_left]
  intro hmem
  have hq : .sync q ∈ takes l := by rw [htakes]; simp
  exact (List.nodup_append.1 honce).2.2 q (Event.mem_filterMap_rendezvous?.2 hq) q
    (Event.mem_filterMap_rendezvous?.2 hmem) rfl

theorem handle (h : Ledger l m) (hl : m.loop = .handling e) {w : World}
    (hw : w.clockwork.queue = m.world.clockwork.queue ∨
      ∃ q, e = .sync q ∧ w.clockwork.queue = m.world.clockwork.queue.signal q) :
    Ledger (l ++ [.handled e]) ⟨w, .idle⟩ := by
  have hevents : events (l ++ [.handled e]) = events l := by simp [Occurrence.posts]
  have htakes : takes (l ++ [.handled e]) = takes l := by simp [take?]
  have hhandlings : handlings (l ++ [.handled e]) = handlings l ++ [e] := by simp [handling?]
  have hremovals : removals (l ++ [.handled e]) = removals l := by simp [removes]
  have hlength : (handlings l ++ [e]).length = (handlings l).length + 1 := by simp
  have hle : (handlings l).length + 1 ≤ removals l := by
    have htaken := h.takes_le
    rw [h.inHand, hl] at htaken
    simpa [Loop.inHand] using htaken
  -- what is left out of the account of the first events is left out of that of more
  have hdrop : ∀ e' n k, e' ∉ (events l).drop n → n ≤ k → e' ∉ (events l).drop k :=
    fun e' n k hn hnk hmem => hn ((List.drop_suffix_drop_left _ hnk).mem hmem)
  obtain ⟨hpending, hsize, hopen, hstatus⟩ := EventQueue.of_handled hw
  constructor <;> simp only [hevents, htakes, hhandlings, hremovals, hpending, hsize, hopen]
  case pending => exact h.pending
  case removals_le => exact h.removals_le
  case fifo => exact h.fifo
  case takes_le => exact h.takes_le
  case removed => exact fun _ => h.removed (by rw [hl]; simp)
  case inHand =>
    rw [h.inHand, hl]
    simp [Loop.inHand]
  case once => exact h.once
  case known => exact h.known
  case waiting =>
    intro q hq
    rcases hstatus q with hs | rfl
    · rw [hs]
      exact h.waiting q hq
    · rw [h.pending] at hq
      exact absurd hq (hdrop _ _ _ (h.not_mem_drop hl) hle)
  case closed => exact h.closed
  case signalled =>
    intro q hq
    rw [hlength]
    rcases hstatus q with hs | rfl
    · rw [hs] at hq
      exact hdrop _ _ _ (h.signalled q hq) (Nat.le_succ _)
    · exact h.not_mem_drop hl

theorem discard (h : Ledger l m) (hl : m.loop = .idle ∨ m.loop = .gone) {w : World}
    (hp : w.clockwork.queue.pending = []) (hr : w.clockwork.queue.rendezvous =
      m.world.clockwork.queue.clear.2.rendezvous)
    (ha : a = .shutDown m.world.clockwork.queue.size ∨
      a = .closed m.world.clockwork.queue.size) : Ledger (l ++ [a]) ⟨w, .gone⟩ := by
  have hentries : a.posts = [] ∧ a.take? = none ∧ a.handling? = none ∧
      a.removes = m.world.clockwork.queue.pending.length := by
    rcases ha with rfl | rfl <;> exact ⟨rfl, rfl, rfl, rfl⟩
  obtain ⟨hposts, htake, hhandling, hremoves⟩ := hentries
  have hevents : events (l ++ [a]) = events l := by simp [hposts]
  have htakes : takes (l ++ [a]) = takes l := by simp [htake]
  have hhandlings : handlings (l ++ [a]) = handlings l := by simp [hhandling]
  have hremovals : removals (l ++ [a]) = (events l).length := by
    rw [removals_snoc, hremoves, h.pending, List.length_drop]
    exact Nat.add_sub_cancel' h.removals_le
  constructor <;> simp only [hevents, htakes, hhandlings, hremovals, hp]
  case pending => rw [List.drop_length]
  case removals_le => exact Nat.le_refl _
  case fifo => exact h.fifo
  case takes_le => exact Nat.le_trans h.takes_le h.removals_le
  case removed => simp
  case inHand =>
    rw [h.inHand]
    rcases hl with hl | hl
    · rw [hl]
      rfl
    · rw [hl]
  case once => exact h.once
  case known =>
    rw [hr, EventQueue.length_rendezvous_clear]
    exact h.known
  case waiting => simp
  case closed => exact fun _ => trivial
  case signalled =>
    intro q hq
    rw [EventQueue.status, hr] at hq
    exact h.signalled q (EventQueue.status_of_clear hq)

theorem happens (h : Ledger l m) (hs : Happens m a m') : Ledger (l ++ [a]) m' := by
  cases ha : a.isScript with
  | true => exact h.script hs ha
  | false =>
    cases hs with
    | work hr hstep hp =>
      obtain ⟨run, run', c, -, hstepped, hm⟩ := Happens.stepped (.work hr hstep hp)
      rw [hm]
      exact h.work hstepped _
    | take hl hs hrun =>
      obtain ⟨rest, hp, hw⟩ := Run.takeEvent_ok hrun
      rw [hs] at hp hw
      exact h.take hl hp (by rw [hw])
    | handle hl he hs hrun =>
      refine h.handle hl ?_
      rcases Run.handle_ok hrun he with ⟨q, rfl, hw⟩ | ⟨r, -, hw⟩
      · exact Or.inr ⟨q, rfl, by rw [hw, hs]⟩
      · exact Or.inl (by rw [hw, hs]; rfl)
    | finish hl => exact h.handle hl (Or.inl rfl)
    | shutDown hl => exact h.discard (Or.inl hl) (EventQueue.pending_clear _) rfl (Or.inl rfl)
    | close hl =>
      rw [hl]
      exact h.discard (Or.inr hl) (EventQueue.pending_clear _) rfl (Or.inr rfl)
    | _ => cases ha

end Ledger

theorem History.ledger {l : List Occurrence} {m : Moment} (h : History l m) : Ledger l m := by
  induction h with
  | fresh h =>
    constructor <;> simp [h.queue, EventQueue.empty, EventQueue.status, events, posts, removals,
      takes, handlings, Loop.inHand]
  | snoc _ hs ih => exact ih.happens hs

end ScriptPlayer
