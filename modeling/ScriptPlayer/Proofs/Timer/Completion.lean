import ScriptPlayer.Proofs.Timer.Pace

/-! What becomes of a completion. Its worker posts nothing after it but the retirement of the
target, so the target still has its entry when the completion is taken, unless a script has ended
the run: by a stop, a reset, or a start after the worker has marked the run finished. -/
namespace ScriptPlayer

open Occurrence

/-- A stop or a reset of a timer, or a start that makes another run of it. -/
def Occurrence.ends (o : ObjectId) : Occurrence → Bool
  | started p _ | stopped p _ | reset p _ => p == o
  | _ => false

variable {l k before between after : List Occurrence} {m m' m₁ m₂ : Moment} {a : Occurrence}
  {o p : ObjectId} {r : RunId}

/-! How long a target has its entry -/

namespace Roster

theorem run_ne (h : Roster l m) (hr : (r, o) ∈ m.world.targets) (hp : p ≠ o) {t : TimerState}
    (ht : m.world.timer? p = some t) : t.run ≠ some r := by
  intro hrun
  have hstanding := (h.timers p t ht).1.symm.trans hrun
  exact hp (h.owner_unique (mem_starts_iff.2 (started_of_standing hstanding))
    (mem_starts_iff.2 (started_of_standing (h.targets o r hr))))

theorem lookup_eq (h : Roster l m) (hr : (r, o) ∈ m.world.targets) :
    m.world.targets.lookup r = some o := by
  cases hl : m.world.targets.lookup r with
  | none =>
    have hne := List.lookup_eq_none_iff.1 hl _ hr
    simp at hne
  | some p =>
    have hstarted := mem_starts_iff.2 (h.of_lookup hl).1
    rw [h.owner_unique hstarted (mem_starts_iff.2 (started_of_standing (h.targets o r hr)))]

end Roster

theorem Happens.target_mem (h : Happens m a m') (hroster : Roster l m)
    (hr : (r, o) ∈ m.world.targets) (hends : a.ends o = false)
    (hretire : a ≠ handled (.retire r)) (hdown : ∀ n, a ≠ .shutDown n) :
    (r, o) ∈ m'.world.targets := by
  cases h with
  | elsewhere h => exact h.targets ▸ hr
  | create cls =>
    have htargets : (m.world.spawn cls .timer).2.targets = m.world.targets :=
      (World.reframes_newInstance _ _).targets
    exact htargets ▸ hr
  | init hs h => exact (Run.initTimer_ok h).targets ▸ hs ▸ hr
  | setDelay hs h => exact (Run.setTimerDelay_ok h).targets ▸ hs ▸ hr
  | start hs h hnew =>
    obtain ⟨-, -, t, hstarts⟩ := Happens.starts (.start hs h hnew)
    have hne := hroster.run_ne hr (by simpa [ends] using hends) hstarts.timer
    exact (hstarts.targets _).2 (Or.inl ⟨hr, hne⟩)
  | stop hs h =>
    obtain ⟨-, -, t, hstop⟩ := Happens.stops (.stop hs h)
    have hne := hroster.run_ne hr (by simpa [ends] using hends) hstop.timer
    exact (hstop.targets _).2 ⟨hr, hne⟩
  | reset hs h =>
    obtain ⟨-, -, t, hreset⟩ := Happens.resets (.reset hs h)
    have hne := hroster.run_ne hr (by simpa [ends] using hends) hreset.timer
    exact (hreset.targets _).2 ⟨hr, hne⟩
  | take hl hs h =>
    obtain ⟨rest, -, hw⟩ := Run.takeEvent_ok h
    rw [hw, hs]
    exact hr
  | handle hl he hs h =>
    rcases Run.handle_ok h he with ⟨q, -, hw⟩ | ⟨r', rfl, hw⟩
    · rw [hw, hs]
      exact hr
    · have hne : r ≠ r' := by
        rintro rfl
        exact hretire rfl
      rw [hw, hs]
      exact List.mem_filter.2 ⟨hr, bne_iff_ne.2 hne⟩
  | shutDown hl => exact absurd rfl (hdown _)
  | work | finish | close => exact hr

theorem History.target_mem (h : History l m) (hc : Course m k m') (hr : (r, o) ∈ m.world.targets)
    (hk : ∀ a ∈ k, a.ends o = false ∧ a ≠ handled (.retire r) ∧ ∀ n, a ≠ shutDown n) :
    (r, o) ∈ m'.world.targets := by
  induction hc with
  | nil => exact hr
  | @snoc k a m₁ m₂ hc hs ih =>
    obtain ⟨hends, hretire, hdown⟩ := hk a (by simp)
    have hmem := ih fun b hb => hk b (by simp [hb])
    exact hs.target_mem (h.append hc).roster hmem hends hretire hdown

theorem Course.gone (hc : Course m k m') (hm : m.loop = .gone) : m'.loop = .gone := by
  induction hc with
  | nil => exact hm
  | snoc _ hs ih =>
    cases hs with
    | take hl | handle hl | finish hl | shutDown hl => cases hl.symm.trans ih
    | close hl => exact hl
    | _ => exact ih

/-! What comes before a completion and what after it -/

def Event.target? : Event → Option TargetId
  | dispatch r _ | retire r => some r
  | sync _ => none

theorem mem_repetitions {ks : List RendezvousId} {e : Event} (h : e ∈ repetitions r ks) :
    e = fire r ∨ ∃ q, e = .sync q := by
  obtain ⟨q, -, he⟩ := List.mem_flatMap.1 h
  rcases List.mem_cons.1 he with rfl | he
  · exact Or.inl rfl
  · exact Or.inr ⟨q, List.mem_singleton.1 he⟩

theorem completion_ne_fire (r : RunId) : completion r ≠ fire r := by
  simp [completion, fire, completeKind, timerKind]

theorem completion_not_mem_repetitions (r : RunId) (ks : List RendezvousId) :
    completion r ∉ repetitions r ks := by
  intro h
  rcases mem_repetitions h with h | ⟨q, h⟩
  · exact completion_ne_fire r h
  · cases h

theorem History.posts_around_completion (h : History l m) {done rest : List (RunId × Event)}
    (hp : posts l = done ++ (r, completion r) :: rest) :
    (∃ ks, eventsOf r done = repetitions r ks) ∧
      (eventsOf r rest = [] ∨ eventsOf r rest = [.retire r]) := by
  obtain ⟨p, hphase⟩ := h.phase?_of_posted (r := r) (e := completion r) (by rw [hp]; simp)
  obtain ⟨ks, last, bye, hturn⟩ := (h.paced.pace r p hphase).inTurn
  have hall : eventsOf r done ++ completion r :: eventsOf r rest =
      repetitions r ks ++ last ++ bye := by
    rw [← hturn.posted_eq, hp, eventsOf_append]
    simp [eventsOf]
  have hbye : completion r ∉ bye := by
    rcases hturn.bye_eq with rfl | rfl <;> simp [completion]
  have hlast : last = [completion r] := by
    have hmem : completion r ∈ repetitions r ks ++ last ++ bye := by
      rw [← hall]
      exact List.mem_append_right _ List.mem_cons_self
    rcases hturn.last_eq with rfl | rfl | rfl
    · simp [hbye, completion_not_mem_repetitions] at hmem
    · simp [hbye, completion_not_mem_repetitions, completion_ne_fire] at hmem
    · rfl
  rw [hlast, List.append_assoc, List.singleton_append] at hall
  obtain ⟨hdone, -, hrest⟩ := (List.append_cons_inj_of_notMem
    (completion_not_mem_repetitions r ks) hbye).1 hall.symm
  exact ⟨⟨ks, hdone.symm⟩, hrest ▸ hturn.bye_eq⟩

theorem History.posts_of_taken (h : History l m) {kind : String} {receiver : Option ObjectId}
    (hs : Happens m (taken (.dispatch r kind) receiver) m') :
    ∃ done rest, posts l = done ++ (r, .dispatch r kind) :: rest ∧
      done.map Prod.snd = takes l := by
  cases hs with
  | take hl hs hrun =>
    obtain ⟨later, hpending, -⟩ := Run.takeEvent_ok hrun
    have hledger := h.ledger
    rw [hs, hledger.pending, hledger.removed (by rw [hl]; simp), events, ← List.map_drop]
      at hpending
    obtain ⟨⟨r', e⟩, rest, hrest, rfl : e = .dispatch r kind, -⟩ := List.map_eq_cons_iff.1 hpending
    have hposts := (List.take_append_drop (takes l).length (posts l)).symm
    rw [hrest] at hposts
    have hmem : (r', .dispatch r kind) ∈ posts l := by
      rw [hposts]
      exact List.mem_append_right _ List.mem_cons_self
    obtain rfl := h.eq_of_posts_dispatch hmem
    refine ⟨_, rest, hposts, ?_⟩
    rw [List.map_take]
    exact (List.prefix_iff_eq_take.1 hledger.fifo).symm

theorem History.mem_eventsOf_of_target (h : History l m) {ps : List (RunId × Event)} {e : Event}
    (hps : ∀ x ∈ ps, x ∈ posts l) (he : e ∈ ps.map Prod.snd) (hr : e.target? = some r) :
    e ∈ eventsOf r ps := by
  obtain ⟨⟨r', e'⟩, hmem, rfl : e' = e⟩ := List.mem_map.1 he
  rw [mem_eventsOf]
  rcases h.posted_by (hps _ hmem) with ⟨kind, rfl⟩ | rfl | ⟨q, rfl⟩
  · exact Option.some.inj hr ▸ hmem
  · exact Option.some.inj hr ▸ hmem
  · cases hr

theorem History.retire_not_mem (h : History l m) {receiver : Option ObjectId}
    (hs : Happens m (taken (completion r) receiver) m') : .retire r ∉ takes l := by
  obtain ⟨done, rest, hposts, hdone⟩ := h.posts_of_taken hs
  obtain ⟨⟨ks, hks⟩, -⟩ := h.posts_around_completion hposts
  intro hmem
  rw [← hdone] at hmem
  have hown := h.mem_eventsOf_of_target (fun x hx => hposts ▸ List.mem_append_left _ hx) hmem rfl
  rw [hks] at hown
  rcases mem_repetitions hown with heq | ⟨q, heq⟩ <;> cases heq

theorem History.free_of_completion (h : History l m) {receiver : Option ObjectId}
    (hs : Happens m (taken (completion r) receiver) m') (a : Occurrence) (ha : a ∈ l) :
    a ≠ handled (.retire r) ∧ ∀ n, a ≠ .shutDown n := by
  constructor
  · rintro rfl
    refine h.retire_not_mem hs ?_
    rw [h.ledger.inHand]
    exact List.mem_append_left _ (List.mem_filterMap.2 ⟨_, ha, rfl⟩)
  · rintro n rfl
    obtain ⟨k, k', rfl⟩ := List.append_of_mem ha
    obtain ⟨m₁, m₂, -, hdown, hc⟩ := h.split_at
    have hgone : m.loop = .gone := by
      refine hc.gone ?_
      cases hdown with
      | shutDown hl => rfl
    cases hs with
    | take hl => cases hl.symm.trans hgone

theorem History.target_of_delivery {kind : String}
    (h : History (before ++ taken (.dispatch r kind) (some o) :: k) m)
    (hk : ∀ a ∈ k, a.ends o = false ∧ a ≠ handled (.retire r) ∧ ∀ n, a ≠ .shutDown n) :
    (r, o) ∈ m.world.targets := by
  obtain ⟨m₁, m₂, h₁, hs, hc⟩ := h.split_at
  obtain ⟨hreceiver, htargets, -⟩ := hs.receiver_eq
  have hr : (r, o) ∈ m₂.world.targets := htargets ▸ Assoc.mem_of_lookup hreceiver.symm
  exact (h₁.snoc hs).target_mem hc hr hk

theorem History.lookup_of_ends {kind : String} {k' : List Occurrence}
    (h : History (before ++ taken (.dispatch r kind) (some o) :: (k ++ a :: k')) m)
    (ha : a.ends o = true) : m.world.targets.lookup r = none := by
  obtain ⟨m₁, m₂, h₁, hs, -⟩ := h.split_at
  have hstarted := (h₁.roster.of_lookup hs.receiver_eq.1.symm).1
  rw [← List.cons_append, ← List.append_assoc] at h
  refine h.lookup_of_ended (o := o) (fun standing => ?_) (List.mem_append_left _ hstarted)
  cases a with
  | started p r' =>
    obtain rfl : p = o := by simpa [ends] using ha
    rw [List.append_cons] at h
    obtain ⟨m', h', -⟩ := h.split
    have hne := h'.roster.ne_of_started (List.mem_append_left _ hstarted)
    simpa [stands] using hne
  | stopped p caught | reset p caught =>
    obtain rfl : p = o := by simpa [ends] using ha
    simp [stands]
  | _ => cases ha

/-- A completion is taken once, after all the fires of its run. -/
theorem History.takes_of_completion (h : History l m₁) {receiver : Option ObjectId}
    (hs : Happens m₁ (taken (completion r) receiver) m₂) (hc : Course m₂ after m) :
    (takes (l ++ taken (completion r) receiver :: after)).count (completion r) = 1 ∧
      (takes l).count (fire r) =
        (events (l ++ taken (completion r) receiver :: after)).count (fire r) := by
  obtain ⟨done, rest, hposts, hdone⟩ := h.posts_of_taken hs
  have hwhole := (h.snoc hs).append hc
  rw [← List.append_cons] at hwhole
  -- whatever is posted later comes after the completion
  obtain ⟨rest, hposts⟩ : ∃ rest, posts (l ++ taken (completion r) receiver :: after) =
      done ++ (r, completion r) :: rest := by
    refine ⟨rest ++ posts (taken (completion r) receiver :: after), ?_⟩
    rw [posts, List.flatMap_append, ← posts, hposts, List.append_assoc]
    rfl
  obtain ⟨⟨ks, hks⟩, hbye⟩ := hwhole.posts_around_completion hposts
  have hevents : events (l ++ taken (completion r) receiver :: after) =
      takes l ++ completion r :: rest.map Prod.snd := by
    rw [events, hposts, List.map_append, hdone]
    rfl
  have hlater : ∀ kind, .dispatch r kind ∉ rest.map Prod.snd := by
    intro kind hmem
    have hown := hwhole.mem_eventsOf_of_target (fun x hx => by rw [hposts]; simp [hx]) hmem rfl
    rcases hbye with hbye | hbye <;> simp [hbye] at hown
  have hearlier : completion r ∉ takes l := by
    intro hmem
    rw [← hdone] at hmem
    have hown := hwhole.mem_eventsOf_of_target (fun x hx => by rw [hposts]; simp [hx]) hmem rfl
    rw [hks] at hown
    exact completion_not_mem_repetitions r ks hown
  constructor
  · refine Nat.le_antisymm ?_ (List.count_pos_iff.2 ?_)
    · refine Nat.le_trans (hwhole.ledger.fifo.sublist.count_le _) (Nat.le_of_eq ?_)
      rw [hevents, List.count_append, List.count_eq_zero_of_not_mem hearlier, List.count_cons_self,
        completion, List.count_eq_zero_of_not_mem (hlater _)]
    · simp [takes, take?]
  · rw [hevents, List.count_append, List.count_cons_of_ne (completion_ne_fire r), fire,
      List.count_eq_zero_of_not_mem (hlater _)]
    rfl

theorem Roster.start_of_running (h : Roster l m) (hr : (r, o) ∈ m.world.targets)
    (hrunning : m.world.clockwork.isRunning r = true) {s s' : State} (hs : s.world = m.world)
    (hstart : Run.startTimer o s = .ok () s') : s' = s := by
  rcases Run.startTimer_ok hstart with hsame | ⟨t, hstarts⟩
  · exact hsame
  · rw [hs] at hstarts
    have hrun := (h.timers o t hstarts.timer).1.trans (h.targets o r hr)
    cases hrunning.symm.trans (hstarts.idle r hrun)

/-- When the completion of a run is taken after a fire of it was delivered on a timer, it is
delivered there too, unless the run was ended meanwhile by a stop, a reset or a start that made
another run; then it is dropped. A start makes none before the worker has marked the run finished.
The completion is taken once, and after all the fires of the run. -/
theorem History.completion_delivered {receiver : Option ObjectId}
    (h : History (before ++ taken (fire r) (some o) :: between) m₁)
    (hs : Happens m₁ (taken (completion r) receiver) m₂) (hc : Course m₂ after m) :
    ((∀ a ∈ between, a.ends o = false) → receiver = some o ∧ ∀ call s, s.world = m₂.world →
      Run.deliver call r completeKind s = Run.deliverOn call o completeKind s) ∧
    ((∃ a ∈ between, a.ends o = true) → receiver = none ∧ ∀ call s, s.world = m₂.world →
      Run.deliver call r completeKind s = .ok () s) ∧
    (∀ k k' m', between = k ++ k' → (∀ a ∈ k, a.ends o = false) →
      History (before ++ taken (fire r) (some o) :: k) m' →
      m'.world.clockwork.isRunning r = true →
      ∀ s s', s.world = m'.world → Run.startTimer o s = .ok () s' → s' = s) ∧
    (takes (before ++ taken (fire r) (some o) :: between ++
      taken (completion r) receiver :: after)).count (completion r) = 1 ∧
    (takes (before ++ taken (fire r) (some o) :: between)).count (fire r) =
      (events (before ++ taken (fire r) (some o) :: between ++
        taken (completion r) receiver :: after)).count (fire r) := by
  obtain ⟨hreceiver, htargets, -⟩ := hs.receiver_eq
  have hfree := h.free_of_completion hs
  refine ⟨fun hends => ?_, fun ⟨a, ha, hends⟩ => ?_,
    fun k k' m' hk hends h' hrunning s s' hw => ?_, ?_⟩
  · have hlookup := h.roster.lookup_eq (h.target_of_delivery fun a ha =>
      ⟨hends a ha, hfree a (by simp [ha])⟩)
    refine ⟨hreceiver.trans hlookup, fun call s hw => ?_⟩
    rw [Run.deliver_run, hw, htargets, hlookup]
  · obtain ⟨k, k', rfl⟩ := List.append_of_mem ha
    have hlookup := h.lookup_of_ends hends
    refine ⟨hreceiver.trans hlookup, fun call s hw => ?_⟩
    rw [Run.deliver_run, hw, htargets, hlookup]
  · refine h'.roster.start_of_running (h'.target_of_delivery fun a ha => ?_) hrunning hw
    exact ⟨hends a ha, hfree a (by simp [hk, ha])⟩
  · exact h.takes_of_completion hs hc

theorem History.completion_delivered_once : ∃ before between m₁ m₂,
    History (before ++ taken (fire 0) (some 0) :: between) m₁ ∧
      Happens m₁ (taken (completion 0) (some 0)) m₂ ∧
      (takes (before ++ taken (fire 0) (some 0) :: between ++
        [taken (completion 0) (some 0)])).count (completion 0) = 1 ∧
      ∀ call s, s.world = m₂.world →
        Run.deliver call 0 completeKind s = Run.deliverOn call 0 completeKind s := by
  let before := [created 0, configured 0, started 0 0, elsewhere, worked 0 .queued []] ++ lap 0 1 0
  let between := [handled (fire 0), taken (.sync 0) none, handled (.sync 0),
    worked 0 (.awaiting 1 0) [], worked 0 .completing [], worked 0 .announcing [completion 0]]
  obtain ⟨m₁, m₂, m, h, hs, hc, -⟩ := History.exists_of_plays
    (Cue.timer 1 ++ [.start 0, .move (.start 0)] ++ Cue.steps 0 6 ++ Cue.handles 2 ++
      Cue.steps 0 3) [.take] []
    (before ++ taken (fire 0) (some 0) :: between) [taken (completion 0) (some 0)] []
    (fun _ _ _ => ()) () (by decide +kernel)
  have htaken := hs.happens
  have hends : ∀ a ∈ between, a.ends 0 = false := by decide
  obtain ⟨hdelivered, -, -, honce, -⟩ := h.completion_delivered htaken hc
  exact ⟨before, between, m₁, m₂, h, htaken, honce, (hdelivered hends).2⟩

/-- A timer that makes its one fire and is started again while its completion waits, with no stop
and no reset. -/
theorem History.completion_lost : ∃ before between m₁ m₂,
    History (before ++ taken (fire 0) (some 0) :: between) m₁ ∧
      Happens m₁ (taken (completion 0) none) m₂ ∧
      (events (before ++ taken (fire 0) (some 0) :: between)).count (fire 0) = 1 ∧
      (∀ a ∈ between, a.ends 0 = true → a = started 0 1) ∧
      ∀ call s, s.world = m₂.world → Run.deliver call 0 completeKind s = .ok () s := by
  let before := [created 0, configured 0, started 0 0, elsewhere, worked 0 .queued []] ++ lap 0 1 0
  let between := [handled (fire 0), taken (.sync 0) none, handled (.sync 0),
    worked 0 (.awaiting 1 0) [], worked 0 .completing [], worked 0 .announcing [completion 0],
    worked 0 .closing [], worked 0 .retiring [.retire 0]] ++ started 0 1 :: []
  obtain ⟨m₁, m₂, m, h, hs, hc, -⟩ := History.exists_of_plays
    (Cue.timer 1 ++ [.start 0, .move (.start 0)] ++ Cue.steps 0 6 ++ Cue.handles 2 ++
      Cue.steps 0 5 ++ [.start 0]) [.take] []
    (before ++ taken (fire 0) (some 0) :: between) [taken (completion 0) none] []
    (fun _ _ _ => ()) () (by decide +kernel)
  refine ⟨before, between, m₁, m₂, h, hs.happens, by decide, by decide, fun call s hw => ?_⟩
  rw [Run.deliver_run, hw, hs.happens.receiver_eq.2.1, h.lookup_of_ends rfl]

end ScriptPlayer
