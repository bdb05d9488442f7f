import ScriptPlayer.Proofs.Timer.Cues
import ScriptPlayer.Proofs.Timer.Ledger
import ScriptPlayer.Proofs.Timer.Roster

/-! What is delivered, and on which timer. A worker may go on for a while after its run was stopped
and still post; its events find no entry in the target table. -/
namespace ScriptPlayer

open Occurrence

namespace Run

def deliverOn (call : Caller) (o : ObjectId) (kind : String) : Run Unit :=
  discard <| attempt <| forEffect do
    hold (.object o)
    dispatch call o kind

theorem deliver_run (call : Caller) (r : RunId) (kind : String) (s : State) :
    deliver call r kind s = match s.world.targets.lookup r with
      | none => .ok () s
      | some o => deliverOn call o kind s := by
  refine (bind_of_ok (m := world) rfl _).trans ?_
  cases s.world.targets.lookup r <;> rfl

end Run

variable {l before after : List Occurrence} {m m' : Moment} {o : ObjectId} {r : RunId}

/-- A worker posts dispatches and the retirement of its own target, and rendezvous. -/
theorem History.posted_by (h : History l m) {e : Event} (he : (r, e) ∈ posts l) :
    (∃ kind, e = .dispatch r kind) ∨ e = .retire r ∨ ∃ q, e = .sync q := by
  induction h with
  | fresh => cases he
  | @snoc l a m m' _ hs ih =>
    rw [posts_snoc] at he
    rcases List.mem_append.1 he with he | he
    · exact ih he
    · cases a with
      | worked r' place posted =>
        obtain ⟨e', he', heq⟩ := List.mem_map.1 he
        obtain ⟨rfl, rfl⟩ := Prod.mk.inj heq
        obtain ⟨run, run', c, -, hstep, -⟩ := hs.stepped
        rcases hstep.advance.posted_cases with rfl | rfl | rfl | rfl | ⟨rfl, -⟩
        · cases he'
        · exact Or.inl ⟨_, List.mem_singleton.1 he'⟩
        · exact Or.inl ⟨_, List.mem_singleton.1 he'⟩
        · exact Or.inr (Or.inl (List.mem_singleton.1 he'))
        · exact Or.inr (Or.inr ⟨_, List.mem_singleton.1 he'⟩)
      | _ => cases he

theorem History.eq_of_posts_dispatch (h : History l m) {r' : RunId} {kind : String}
    (he : (r', .dispatch r kind) ∈ posts l) : r' = r := by
  rcases h.posted_by he with ⟨kind', he⟩ | he | ⟨q, he⟩
  · exact (Event.dispatch.inj he).1.symm
  · cases he
  · cases he

theorem History.posts_of_dispatch (h : History l m) {kind : String}
    (he : .dispatch r kind ∈ events l) : (r, .dispatch r kind) ∈ posts l := by
  obtain ⟨⟨r', e⟩, hmem, rfl : e = .dispatch r kind⟩ := List.mem_map.1 he
  obtain rfl := h.eq_of_posts_dispatch hmem
  exact hmem

theorem Roster.of_lookup (h : Roster l m) (hr : m.world.targets.lookup r = some o) :
    started o r ∈ l ∧ standing o l = some r := by
  have hstanding := h.targets o r (Assoc.mem_of_lookup hr)
  exact ⟨started_of_standing hstanding, hstanding⟩

/-- When a run of a timer has been stopped, or another one started, the table has no entry of it. -/
theorem History.lookup_of_ended {a : Occurrence} (ha : ∀ standing, a.stands o standing ≠ some r)
    (h : History (before ++ a :: after) m) (hr : started o r ∈ before) :
    m.world.targets.lookup r = none := by
  cases hl : m.world.targets.lookup r with
  | none => rfl
  | some p =>
    obtain ⟨hstarted, hstanding⟩ := h.roster.of_lookup hl
    have hmem := mem_starts_iff.2 (List.mem_append_left (a :: after) hr)
    obtain rfl := h.roster.owner_unique hmem (mem_starts_iff.2 hstarted)
    rw [List.append_cons] at h hstanding
    have hstood := h.standing_of_later (List.mem_append_left _ hr) hstanding
    rw [standing_snoc] at hstood
    exact absurd hstood (ha _)

theorem Happens.receiver_eq {e : Event} {receiver : Option ObjectId}
    (h : Happens m (taken e receiver) m') :
    receiver = m.world.receiver? e ∧ m'.world.targets = m.world.targets ∧
      e ∈ m.world.clockwork.queue.pending := by
  cases h with
  | take hl hs hrun =>
    obtain ⟨rest, hp, hw⟩ := Run.takeEvent_ok hrun
    rw [hs] at hp hw
    exact ⟨rfl, (congrArg World.targets hw).trans rfl, hp ▸ List.mem_cons_self⟩

/-- After a stop or a reset of a timer, no dispatch that begins reaches a listener because of an
event of a run that was started before. Whatever is delivered was posted by one run, and is
delivered on the timer of that run while the timer records it. -/
theorem History.deliveries (h : History l m) :
    (∀ o before a after, (∃ caught, a = stopped o caught ∨ a = .reset o caught) →
      l = before ++ a :: after → ∀ r, started o r ∈ before →
        (∀ e receiver, (r, e) ∈ posts l → taken e receiver ∈ after → receiver = none) ∧
        ∀ call kind s, s.world = m.world → Run.deliver call r kind s = .ok () s) ∧
    (∀ r kind m', Happens m (taken (.dispatch r kind) none) m' →
      ∀ call s, s.world = m'.world → Run.deliver call r kind s = .ok () s) ∧
    ∀ e o m', Happens m (taken e (some o)) m' →
      ∃ r kind, e = .dispatch r kind ∧ (∀ r', (r', e) ∈ posts l ↔ r' = r) ∧ started o r ∈ l ∧
        (∀ i, m'.world.instance? o = some i → ∃ t, i.timer? = some t ∧ t.run = some r) ∧
        ∀ call s, s.world = m'.world →
          Run.deliver call r kind s = Run.deliverOn call o kind s := by
  refine ⟨?_, ?_, ?_⟩
  · rintro o before a after ⟨caught, ha⟩ rfl r hr
    have hended : ∀ standing, a.stands o standing ≠ some r := by
      intro standing
      rcases ha with rfl | rfl <;> simp [stands]
    constructor
    · intro e receiver hposted htaken
      obtain ⟨k₁, k₂, rfl⟩ := List.append_of_mem htaken
      rw [← List.cons_append, ← List.append_assoc] at h
      obtain ⟨m₁, m₂, h₁, hs, -⟩ := h.split_at
      rw [hs.receiver_eq.1]
      rcases h.posted_by (by simpa using hposted) with ⟨kind, rfl⟩ | rfl | ⟨q, rfl⟩
      · exact h₁.lookup_of_ended hended hr
      · rfl
      · rfl
    · intro call kind s hs
      rw [Run.deliver_run, hs, h.lookup_of_ended hended hr]
  · intro r kind m' hs call s hw
    obtain ⟨hreceiver, htargets, -⟩ := hs.receiver_eq
    rw [Run.deliver_run, hw, htargets, ← show none = m.world.targets.lookup r from hreceiver]
  · intro e o m' hs
    obtain ⟨hreceiver, htargets, hpending⟩ := hs.receiver_eq
    cases e with
    | dispatch r kind =>
      have hlookup : m.world.targets.lookup r = some o := hreceiver.symm
      have hroster := (h.snoc hs).roster
      obtain ⟨hstarted, -⟩ := h.roster.of_lookup hlookup
      have hstanding := (hroster.of_lookup (htargets ▸ hlookup)).2
      refine ⟨r, kind, rfl, fun r' => ?_, hstarted, fun i hi => ?_, fun call s hw => ?_⟩
      · refine ⟨h.eq_of_posts_dispatch, ?_⟩
        rintro rfl
        rw [h.ledger.pending] at hpending
        exact h.posts_of_dispatch (List.mem_of_mem_drop hpending)
      · have hmem := mem_starts_iff.2 (List.mem_append_left [taken (.dispatch r kind) (some o)]
          hstarted)
        obtain ⟨t, ht⟩ := Option.isSome_iff_exists.1 ((hroster.owners o r hmem).2 i hi)
        refine ⟨t, ht, ?_⟩
        rw [(hroster.timers o t (Option.bind_eq_some_iff.2 ⟨i, hi, ht⟩)).1, hstanding]
      · rw [Run.deliver_run, hw, htargets, hlookup]
    | sync q => cases hreceiver
    | retire r => cases hreceiver

theorem History.deliveries_restart : ∃ before after m,
    History (before ++ stopped 0 (some (.awaiting 1 0)) :: after) m ∧ started 0 0 ∈ before ∧
      taken (.dispatch 0 timerKind) none ∈ after ∧
      taken (.dispatch 1 timerKind) (some 0) ∈ after ∧
      ∀ call kind s, s.world = m.world → Run.deliver call 0 kind s = .ok () s := by
  let before := [created 0, configured 0, started 0 0, elsewhere, worked 0 .queued []] ++ lap 0 1 0
  let after := round 0 0 none ++ [started 0 1, elsewhere, worked 1 .queued []] ++ lap 1 2 1 ++
    [taken (.dispatch 1 timerKind) (some 0)]
  obtain ⟨m, h⟩ := History.exists_of_play
    (Cue.timer 0 ++ [.start 0, .move (.start 0)] ++ Cue.steps 0 6 ++ [.stop 0] ++
      Cue.handles 2 ++ [.start 0, .move (.start 1)] ++ Cue.steps 1 6 ++ [.take])
    (before ++ stopped 0 (some (.awaiting 1 0)) :: after) (by decide +kernel)
  have hstarted : started 0 0 ∈ before := by decide
  refine ⟨before, after, m, h, hstarted, by decide, by decide, fun call kind s hs => ?_⟩
  have hstop := h.deliveries.1 0 before _ after ⟨_, Or.inl rfl⟩ rfl 0 hstarted
  exact hstop.2 call kind s hs

end ScriptPlayer
