import ScriptPlayer.Proofs.Player.Histories
import ScriptPlayer.Proofs.Player.Session
import ScriptPlayer.Proofs.Timer.Completion
import ScriptPlayer.Proofs.World.Sound

/-! The target table. A start enters its run, what ends the run takes it out again, and so does the
handling of its retirement; nothing else touches the table of a player that lives. -/
namespace ScriptPlayer

namespace Occurrence

def forgets (e : RunId × ObjectId) : Occurrence → Bool
  | handled (.retire r) => r = e.1
  | shutDown _ => true
  | a => a.ends e.2

def target? : Occurrence → Option (RunId × ObjectId)
  | started o r => some (r, o)
  | _ => none

end Occurrence

open Occurrence

/-- A run was started, and its timer was neither stopped nor reset nor started anew since. -/
def Ongoing (l : List Occurrence) (o : ObjectId) (r : RunId) : Prop :=
  ∃ before after, l = before ++ started o r :: after ∧ ∀ a ∈ after, a.ends o = false

section Entries

variable {l : List Occurrence} {a : Occurrence} {o : ObjectId} {r : RunId}

theorem Occurrence.stands_of_ends {before : Option RunId} (ha : a.ends o = false) :
    a.stands o before = before := by
  cases a with
  | started p q | stopped p caught | reset p caught =>
    exact if_neg (beq_eq_false_iff_ne.1 ha)
  | _ => rfl

theorem ongoing_snoc : Ongoing (l ++ [a]) o r ↔
    a = started o r ∨ Ongoing l o r ∧ a.ends o = false := by
  constructor
  · rintro ⟨before, after, hl, hafter⟩
    induction after using List.reverseRecOn with
    | nil => exact Or.inl (List.singleton_inj.1 (List.append_inj' hl rfl).2)
    | append_singleton after b _ =>
      rw [← List.cons_append, ← List.append_assoc] at hl
      obtain ⟨rfl, hlast⟩ := List.append_inj' hl rfl
      obtain rfl := List.singleton_inj.1 hlast
      exact Or.inr ⟨⟨before, after, rfl, fun c hc => hafter c (List.mem_append_left _ hc)⟩,
        hafter a (by simp)⟩
  · rintro (rfl | ⟨⟨before, after, rfl, hafter⟩, ha⟩)
    · exact ⟨l, [], rfl, fun _ h => absurd h List.not_mem_nil⟩
    · refine ⟨before, after ++ [a], by simp, fun b hb => ?_⟩
      rcases List.mem_append.1 hb with hb | hb
      · exact hafter b hb
      · exact List.mem_singleton.1 hb ▸ ha

theorem Occurrence.mem_target? : (r, o) ∈ a.target?.toList ↔ a = started o r := by
  cases a <;> simp [target?, and_comm, eq_comm]

theorem Occurrence.forgets_eq_false (ha : ∀ n, a ≠ shutDown n) :
    a.forgets (r, o) = false ↔ a.ends o = false ∧ handled (.retire r) ≠ a := by
  cases a with
  | handled e =>
    cases e with
    | retire q => simp [forgets, ends, eq_comm]
    | _ => simp [forgets, ends]
  | shutDown n => exact absurd rfl (ha n)
  | _ => simp [forgets]

theorem standing_eq_some_iff : standing o l = some r ↔ Ongoing l o r := by
  induction l using List.reverseRecOn with
  | nil =>
    refine ⟨(fun h => by cases h), ?_⟩
    rintro ⟨before, after, hl, -⟩
    simp at hl
  | append_singleton l a ih =>
    rw [standing_snoc, ongoing_snoc, ← ih]
    cases ha : a.ends o with
    | false =>
      rw [stands_of_ends ha]
      refine ⟨fun h => Or.inr ⟨h, rfl⟩, ?_⟩
      rintro (rfl | h)
      · simp [ends] at ha
      · exact h.1
    | true =>
      cases a with
      | started p q =>
        obtain rfl : p = o := of_decide_eq_true ha
        simp [stands]
      | stopped p caught | reset p caught =>
        obtain rfl : p = o := of_decide_eq_true ha
        simp [stands]
      | _ => cases ha

end Entries

/-! The table after a stop and after a start -/

namespace Run

variable {s s' : State} {o : ObjectId}

theorem targets_stopTimer (h : stopTimer o s = .ok () s') : ∃ t, s.world.timer? o = some t ∧
    s'.world.targets = s.world.targets.filter fun e => decide (t.run ≠ some e.1) := by
  obtain ⟨t, s₁, hread, hrest⟩ := exists_of_bind_ok h
  obtain ⟨rfl, ht⟩ := timerOf_ok hread
  refine ⟨t, ht, ?_⟩
  cases hr : t.run with
  | none =>
    rw [hr] at hrest
    obtain rfl := (EStateM.Result.ok.inj hrest).2
    simp
  | some r =>
    rw [hr] at hrest
    obtain ⟨_, s₂, hput, hrest⟩ := exists_of_bind_ok hrest
    obtain ⟨w, rfl, -, htargets, -⟩ := putTimer_ok hput ht
    obtain rfl := (EStateM.Result.ok.inj hrest).2
    change w.targets.filter (fun e => e.1 != r) = _
    rw [htargets]
    refine List.filter_congr fun e _ => Bool.eq_iff_iff.2 ?_
    rw [bne_iff_ne, decide_eq_true_iff, ne_comm, Option.some_inj.ne]

theorem targets_startTimer (h : startTimer o s = .ok () s')
    (hnew : s.world.clockwork.runs.length < s'.world.clockwork.runs.length) :
    ∃ t, s.world.timer? o = some t ∧ s'.world.targets =
      (s.world.targets.filter fun e => decide (t.run ≠ some e.1)) ++
        [(s.world.clockwork.runs.length, o)] := by
  obtain ⟨b, s₁, hb, hrest⟩ := exists_of_bind_ok h
  obtain ⟨rfl, -⟩ := isTimerRunning_ok hb
  cases b with
  | true =>
    obtain rfl := (EStateM.Result.ok.inj hrest).2
    exact absurd hnew (Nat.lt_irrefl _)
  | false =>
    rw [if_neg Bool.false_ne_true] at hrest
    obtain ⟨_, s₂, hhalt, h₂⟩ := exists_of_bind_ok hrest
    obtain ⟨t, ht, htargets⟩ := targets_stopTimer hhalt
    obtain ⟨-, t', hstop⟩ := stopTimer_ok hhalt
    have hlength : s₂.world.clockwork.runs.length = s₁.world.clockwork.runs.length := by
      rw [hstop.clockwork, Clockwork.length_runs_giveUp]
    refine ⟨t, ht, ?_⟩
    obtain ⟨t₂, s₃, hread, h₃⟩ := exists_of_bind_ok h₂
    obtain ⟨rfl, ht₂⟩ := timerOf_ok hread
    rw [bind_of_ok (m := world) rfl] at h₃
    cases hd : Nanos.ofDelay? t₂.delay s₃.world.minDelay with
    | none => rw [hd] at h₃; cases h₃
    | some delay =>
      rw [hd] at h₃
      obtain ⟨r, s₄, hmake, h₄⟩ := exists_of_bind_ok h₃
      obtain ⟨rfl, rfl⟩ := EStateM.Result.ok.inj hmake
      obtain ⟨_, s₅, hput, h₅⟩ := exists_of_bind_ok h₄
      obtain ⟨w, rfl, -, hkept, -⟩ := putTimer_ok hput (t := t₂) ht₂
      obtain rfl := (EStateM.Result.ok.inj h₅).2
      change w.targets ++ [(s₃.world.clockwork.runs.length, o)] = _
      rw [hkept, hlength, ← htargets]

theorem targets_resetTimer (h : resetTimer o s = .ok () s') : ∃ t, s.world.timer? o = some t ∧
    s'.world.targets = s.world.targets.filter fun e => decide (t.run ≠ some e.1) := by
  obtain ⟨_, s₁, hhalt, hrest⟩ := exists_of_bind_ok h
  obtain ⟨t, s₂, hread, hend⟩ := exists_of_bind_ok hrest
  obtain ⟨rfl, -⟩ := timerOf_ok hread
  obtain rfl := (EStateM.Result.ok.inj hend).2
  obtain ⟨t₀, ht₀, htargets⟩ := targets_stopTimer hhalt
  exact ⟨t₀, ht₀, htargets⟩

end Run

variable {l : List Occurrence} {m m' : Moment} {a : Occurrence} {o : ObjectId} {r : RunId}

theorem Roster.filter_targets (h : Roster l m) {t : TimerState} (ht : m.world.timer? o = some t) :
    (m.world.targets.filter fun e => decide (t.run ≠ some e.1)) =
      m.world.targets.filter fun e => !decide (o = e.2) := by
  refine List.filter_congr fun ⟨r, p⟩ he => ?_
  have hstanding := h.targets p r he
  have hmem := mem_starts_iff.2 (started_of_standing hstanding)
  rw [(h.timers o t ht).1, Bool.eq_iff_iff, decide_eq_true_iff, Bool.not_eq_true',
    decide_eq_false_iff_not, not_iff_not]
  constructor
  · exact fun hr => h.owner_unique (mem_starts_iff.2 (started_of_standing hr)) hmem
  · rintro rfl
    exact hstanding

theorem Happens.targets_eq (h : Happens m a m') (hroster : Roster l m) : m'.world.targets =
    (m.world.targets.filter fun e => !a.forgets e) ++ a.target?.toList := by
  have hkept : m.world.targets = (m.world.targets.filter fun _ => !false) ++ [] := by simp
  cases h with
  | elsewhere h => rw [h.targets]; exact hkept
  | create cls => exact (World.reframes_newInstance _ _).targets.trans hkept
  | init hs h => rw [(Run.initTimer_ok h).targets, hs]; exact hkept
  | setDelay hs h => rw [(Run.setTimerDelay_ok h).targets, hs]; exact hkept
  | start hs h hnew =>
    rw [← hs] at hnew
    obtain ⟨t, ht, htargets⟩ := Run.targets_startTimer h hnew
    rw [hs] at ht htargets
    rw [htargets, hroster.filter_targets ht]
    rfl
  | stop hs h =>
    obtain ⟨t, ht, htargets⟩ := Run.targets_stopTimer h
    rw [hs] at ht htargets
    rw [htargets, hroster.filter_targets ht]
    exact (List.append_nil _).symm
  | reset hs h =>
    obtain ⟨t, ht, htargets⟩ := Run.targets_resetTimer h
    rw [hs] at ht htargets
    rw [htargets, hroster.filter_targets ht]
    exact (List.append_nil _).symm
  | work hr h hp => exact hkept
  | take hl hs h =>
    obtain ⟨rest, -, hw⟩ := Run.takeEvent_ok h
    rw [hw, hs]
    exact hkept
  | handle hl he hs h =>
    rcases Run.handle_ok h he with ⟨q, rfl, hw⟩ | ⟨r, rfl, hw⟩
    · rw [hw, hs]
      exact hkept
    · rw [hw, hs]
      change m.world.targets.filter (fun e => e.1 != r) = _ ++ []
      rw [List.append_nil]
      refine List.filter_congr fun e _ => ?_
      change (e.1 != r) = !decide (r = e.1)
      rw [bne, BEq.comm]
      rfl
  | finish hl => exact hkept
  | shutDown hl =>
    have hnone : (m.world.targets.filter fun _ => !true) = [] := by simp
    exact ((List.append_nil _).trans hnone).symm
  | close hl => exact hkept

theorem Happens.loop_ne_gone (h : Happens m a m') (hlive : m'.loop ≠ .gone) :
    m.loop ≠ .gone ∧ ∀ n, a ≠ .shutDown n := by
  cases h with
  | take hl | handle hl | finish hl => simp [hl]
  | shutDown hl => exact absurd rfl hlive
  | close hl => exact absurd hl hlive
  | _ => exact ⟨hlive, by simp⟩

theorem Happens.loop_of_handled {e : Event} (h : Happens m (handled e) m') : m'.loop = .idle := by
  cases h <;> rfl

theorem History.lt_of_posts (h : History l m) {e : Event} (he : (r, e) ∈ posts l) :
    r < (starts l).length := by
  induction h with
  | fresh => cases he
  | @snoc l a m m' hl hs ih =>
    rw [starts_snoc, List.length_append]
    rw [posts_snoc] at he
    rcases List.mem_append.1 he with he | he
    · exact Nat.lt_add_right _ (ih he)
    · cases a with
      | worked r' place posted =>
        obtain ⟨e', -, heq⟩ := List.mem_map.1 he
        obtain ⟨rfl, rfl⟩ := Prod.mk.inj heq
        obtain ⟨run, run', c, -, hstep, -⟩ := hs.stepped
        have hlength : (starts l).length = m.world.clockwork.runs.length := by
          simpa using congrArg List.length hl.roster.starts_eq
        rw [hlength]
        exact Nat.lt_add_right _ (List.getElem?_eq_some_iff.1 hstep.found).1
      | _ => cases he

theorem History.lt_of_retired (h : History l m) (hr : handled (.retire r) ∈ l) :
    r < m.world.clockwork.runs.length := by
  have hhandled : .retire r ∈ handlings l := List.mem_filterMap.2 ⟨_, hr, rfl⟩
  have htaken : .retire r ∈ takes l := by
    rw [h.ledger.inHand]
    exact List.mem_append_left _ hhandled
  obtain ⟨⟨r', e⟩, hposted, rfl : e = .retire r⟩ := List.mem_map.1 (h.ledger.fifo.subset htaken)
  have hown : r' = r := by
    rcases h.posted_by hposted with ⟨kind, he⟩ | he | ⟨q, he⟩
    · cases he
    · exact (Event.retire.inj he).symm
    · cases he
  have hlength : (starts l).length = m.world.clockwork.runs.length := by
    simpa using congrArg List.length h.roster.starts_eq
  rw [← hlength, ← hown]
  exact h.lt_of_posts hposted

/-- The table of a player that lives has an entry for each run that goes on and has not retired. -/
theorem History.mem_targets_iff (h : History l m) (hlive : m.loop ≠ .gone) :
    (r, o) ∈ m.world.targets ↔ Ongoing l o r ∧ handled (.retire r) ∉ l := by
  induction h with
  | fresh h =>
    rw [h.targets]
    refine ⟨fun hmem => absurd hmem List.not_mem_nil, ?_⟩
    rintro ⟨⟨before, after, hl, -⟩, -⟩
    simp at hl
  | @snoc l a m m' h hs ih =>
    obtain ⟨hlived, hno⟩ := hs.loop_ne_gone hlive
    rw [hs.targets_eq h.roster, List.mem_append, List.mem_filter, ih hlived, mem_target?,
      Bool.not_eq_true', forgets_eq_false hno, ongoing_snoc, List.mem_append, List.mem_singleton,
      not_or]
    have hfresh : a = started o r → handled (.retire r) ∉ l ∧ handled (.retire r) ≠ a := by
      rintro rfl
      obtain ⟨hr, -⟩ := hs.starts
      exact ⟨fun hretired => absurd (h.lt_of_retired hretired) (hr ▸ Nat.lt_irrefl _), by simp⟩
    tauto

/-- A timer has one entry at most. -/
theorem History.nodup_owners (h : History l m) : (m.world.targets.map Prod.snd).Nodup := by
  induction h with
  | fresh h =>
    rw [h.targets]
    exact List.nodup_nil
  | @snoc l a m m' h hs ih =>
    have hkept : ((m.world.targets.filter fun e => !a.forgets e).map Prod.snd).Nodup :=
      ((List.filter_sublist).map Prod.snd).nodup ih
    rw [hs.targets_eq h.roster, List.map_append]
    cases hnew : a.target? with
    | none => simpa using hkept
    | some e =>
      refine hkept.append (List.nodup_singleton _) ?_
      -- a start takes out the entry that its timer had
      rintro o hold ho
      obtain rfl := List.mem_singleton.1 ho
      obtain ⟨e', he', hsame⟩ := List.mem_map.1 hold
      obtain rfl := (mem_target? (o := e.2) (r := e.1)).1 (Option.mem_toList.2 hnew)
      have hforgets : forgets e' (started e.2 e.1) = true := decide_eq_true hsame.symm
      simpa [hforgets] using (List.mem_filter.1 he').2

theorem Roster.eq_of_not_cancelled (h : Roster l m) {r' : RunId} {run run' : TimerRun}
    (hr : started o r ∈ l) (hr' : started o r' ∈ l) (hrun : m.world.clockwork.run? r = some run)
    (hrun' : m.world.clockwork.run? r' = some run') (hgoing : run.cancelled = false)
    (hgoing' : run'.cancelled = false) : r = r' := by
  have hstands : ∀ {q q'}, started o q ∈ l → m.world.clockwork.run? q = some q' →
      q'.cancelled = false → standing o l = some q := by
    intro q q' hq hq' hc
    by_contra hne
    rw [((h.runs o q q' (mem_starts_iff.2 hq) hq').2).2 hne] at hc
    cases hc
  exact Option.some.inj ((hstands hr hrun hgoing).symm.trans (hstands hr' hrun' hgoing'))

/-- While a player lives, its table has an entry for a run just from the start of the run until the
timer is stopped, reset or started anew or the retirement of the run is handled. The entry is the
one handle that the table has to the timer, and keeps it alive. A timer has at most one entry and
one run that nobody asked to stop, and a retirement takes no other run out of the table. -/
theorem History.target_table (h : History l m) (hlive : m.loop ≠ .gone) :
    (∀ r o, (r, o) ∈ m.world.targets ↔ Ongoing l o r ∧ handled (.retire r) ∉ l) ∧
    (World.targetHandles m.world.targets).Nodup ∧
    (∀ o, .object o ∈ World.targetHandles m.world.targets ↔
      ∃ r, Ongoing l o r ∧ handled (.retire r) ∉ l) ∧
    (m.world.Sound → ∀ r o, (r, o) ∈ m.world.targets →
      ∃ i t, m.world.instance? o = some i ∧ i.timer? = some t ∧ t.run = some r) ∧
    (∀ o r r' run run', started o r ∈ l → started o r' ∈ l →
      m.world.clockwork.run? r = some run → m.world.clockwork.run? r' = some run' →
      run.cancelled = false → run'.cancelled = false → r = r') ∧
    ∀ r m', Happens m (handled (.retire r)) m' →
      ∀ e, e ∈ m'.world.targets ↔ e ∈ m.world.targets ∧ e.1 ≠ r := by
  have hhandles : World.targetHandles m.world.targets =
      (m.world.targets.map Prod.snd).map Value.object := by
    rw [List.map_map]
    rfl
  refine ⟨fun r o => h.mem_targets_iff hlive, ?_, fun o => ?_, fun hs r o hr => ?_,
    fun o r r' run run' => h.roster.eq_of_not_cancelled, fun r m' hs e => ?_⟩
  · rw [hhandles]
    exact h.nodup_owners.map fun _ _ => Value.object.inj
  · constructor
    · intro ho
      obtain ⟨⟨r, p⟩, he, heq⟩ := List.mem_map.1 ho
      obtain rfl := Value.object.inj heq
      exact ⟨r, (h.mem_targets_iff hlive).1 he⟩
    · rintro ⟨r, hr⟩
      exact List.mem_map.2 ⟨(r, o), (h.mem_targets_iff hlive).2 hr, rfl⟩
  · have hstanding := h.roster.targets o r hr
    have hmem := mem_starts_iff.2 (started_of_standing hstanding)
    have hroot : .object o ∈ m.world.roots :=
      List.mem_append_right _ (List.mem_map.2 ⟨(r, o), hr, rfl⟩)
    obtain ⟨i, hi⟩ := Option.isSome_iff_exists.1
      (show (m.world.instance? o).isSome from hs.isValid_of_mem_roots hroot)
    obtain ⟨t, ht⟩ := Option.isSome_iff_exists.1 ((h.roster.owners o r hmem).2 i hi)
    refine ⟨i, t, hi, ht, ?_⟩
    rw [(h.roster.timers o t (Option.bind_eq_some_iff.2 ⟨i, hi, ht⟩)).1, hstanding]
  · rw [hs.targets_eq h.roster, List.mem_append, List.mem_filter, Bool.not_eq_true',
      forgets_eq_false (by simp), mem_target?]
    simp [ends, eq_comm]

def timerSession : Session :=
  .ask (.perform .look) fun w =>
  match w.runtime with
  | none => .done
  | some classes =>
    .ask (.perform (.construct classes.timer none [.int 1, .int 1])) fun
      | .ok timer =>
        .ask (.assign 0 (.object timer)) fun _ =>
        .ask (.perform (.callMethod timer (.pub "start") [])) fun _ => .done
      | .error _ => .done

theorem History.target_table_restart :
    (∃ l m, History (l ++ [handled (.retire 0)]) m ∧ m.loop ≠ .gone ∧ started 0 0 ∈ l ∧
      (1, 0) ∈ m.world.targets ∧ ∀ o, (0, o) ∉ m.world.targets) ∧
    ∃ l m o i t, History l m ∧ m.loop ≠ .gone ∧ m.world.Sound ∧ (0, o) ∈ m.world.targets ∧
      m.world.instance? o = some i ∧ i.timer? = some t ∧ t.run = some 0 := by
  constructor
  · let l := [created 0, configured 0, started 0 0, elsewhere, worked 0 .queued []] ++ lap 0 1 0 ++
      [stopped 0 (some (.awaiting 1 0))] ++ round 0 0 none ++ [started 0 1,
        worked 0 (.awaiting 1 0) [], worked 0 (.asleep 0) [], worked 0 .testing [],
        worked 0 .closing [], worked 0 .retiring [.retire 0], taken (.retire 0) none]
    obtain ⟨m, h⟩ := History.exists_of_play
      (Cue.timer 0 ++ [.start 0, .move (.start 0)] ++ Cue.steps 0 6 ++ [.stop 0] ++
        Cue.handles 2 ++ [.start 0] ++ Cue.steps 0 5 ++ Cue.handles 1)
      (l ++ [handled (.retire 0)]) (by decide +kernel)
    obtain ⟨m₁, -, hlast⟩ := h.split
    have hlive : m.loop ≠ .gone := by rw [hlast.happens.loop_of_handled]; simp
    have htable := (h.target_table hlive).1
    have hgoing : Ongoing (l ++ [handled (.retire 0)]) 0 1 := standing_eq_some_iff.1 (by decide)
    refine ⟨l, m, h, hlive, by decide, (htable 1 0).2 ⟨hgoing, by decide⟩, fun o ho => ?_⟩
    exact ((htable 0 o).1 ho).2 (by simp)
  · have hstarted : ∀ s : State, s.Reachable → (0, 21) ∈ s.world.targets →
        ∃ l m o i t, History l m ∧ m.loop ≠ .gone ∧ m.world.Sound ∧ (0, o) ∈ m.world.targets ∧
          m.world.instance? o = some i ∧ i.timer? = some t ∧ t.run = some 0 := by
      intro s hs hmem
      obtain ⟨l, h⟩ := hs.exists_history
      obtain ⟨-, -, -, halive, -⟩ := h.target_table (by simp)
      obtain ⟨i, t, hi, ht, hr⟩ := halive hs.sound.1 0 21 hmem
      exact ⟨l, _, 21, i, t, h, by simp, hs.sound.1, hmem, hi, ht, hr⟩
    exact hstarted _ (.embed (.player .defaults 1 1 99 []) 3 timerSession 0 [])
      (by decide +kernel)

end ScriptPlayer
