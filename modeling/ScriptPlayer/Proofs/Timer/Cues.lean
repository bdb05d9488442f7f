import ScriptPlayer.Proofs.Timer.History
import ScriptPlayer.Proofs.World.Background

/-! Histories that are carried out. A cue asks for one action at a moment; what comes of it is the
next entry. Workers move as the pool lets them. -/
namespace ScriptPlayer

namespace World

variable {w w' : World}

theorem quiet_of_eq (hheap : w'.heap = w.heap) (htargets : w'.targets = w.targets)
    (hclockwork : w'.clockwork = w.clockwork) : w.Quiet w' where
  timers := keepsTimers_of_heap hheap
  targets := htargets
  queue := congrArg Clockwork.queue hclockwork
  counters := congrArg Clockwork.counters hclockwork
  runs := congrArg Clockwork.runs hclockwork

theorem quiet_tick (w : World) (t : Ticker) : w.Quiet (w.tick t).2 := by
  unfold tick
  split <;> exact quiet_of_eq rfl rfl rfl

theorem quiet_stepDecoder {d : DecoderId} (h : w.stepDecoder d = some w') : w.Quiet w' := by
  obtain ⟨decoder, -, ⟨-, phase, rfl⟩ | ⟨-, rfl⟩⟩ := stepDecoder_cases h
  · exact quiet_of_eq rfl rfl rfl
  · have hq := quiet_tick w decoder.ticker
    exact ⟨hq.timers.heap rfl, hq.targets, hq.queue, hq.counters, hq.runs⟩

def entry (w w' : World) : Move → Occurrence
  | .start _ => .elsewhere
  | .step k =>
    match w.pool.jobOf? k with
    | some (.timer r) =>
      if w.clockwork.isDone r then .elsewhere
      else match w.phase? r with
        | some p =>
          .worked r p (w'.clockwork.queue.pending.drop w.clockwork.queue.pending.length)
        | none => .elsewhere
    | _ => .elsewhere

end World

variable {m m' : Moment} {a : Occurrence}

theorem Happens.move {move : World.Move} {w : World} (h : m.world.move move = some w) :
    Happens m (m.world.entry w move) { m with world := w } := by
  cases move with
  | start k =>
    obtain ⟨r, -, rfl⟩ := Option.map_eq_some_iff.1 h
    exact .elsewhere (World.quiet_of_eq rfl rfl rfl)
  | step k =>
    obtain ⟨job, hjob, h⟩ := Option.bind_eq_some_iff.1 h
    simp only [World.entry, hjob]
    split at h
    · rename_i hdone
      obtain ⟨pool, -, rfl⟩ := Option.map_eq_some_iff.1 h
      cases job with
      | timer r =>
        have hr : m.world.clockwork.isDone r = true := hdone
        simp only [hr, if_true]
        exact .elsewhere (World.quiet_of_eq rfl rfl rfl)
      | decode d => exact .elsewhere (World.quiet_of_eq rfl rfl rfl)
    · rename_i hgoing
      cases job with
      | timer r =>
        obtain ⟨c, hc, rfl⟩ := Option.map_eq_some_iff.1 h
        have hr : ¬m.world.clockwork.isDone r = true := hgoing
        obtain ⟨run, run', posted, hstep⟩ := Clockwork.stepRun_cases hc
        have hphase : m.world.phase? r = some run.phase := by
          rw [World.phase?, hstep.found]
          rfl
        simp only [hr, hphase]
        refine .work hstep.found hc ?_
        rw [hstep.pending, List.drop_left]
      | decode d => exact .elsewhere (World.quiet_stepDecoder h)

inductive Cue
  | create (cls : ClassId)
  | init (o : ObjectId) (args : List Value)
  | start (o : ObjectId)
  | stop (o : ObjectId)
  | reset (o : ObjectId)
  | move (move : World.Move)
  | take
  | finish

namespace Moment

def after (m : Moment) (call : Run Unit) : Option World :=
  match call ⟨m.world, [], 0, []⟩ with
  | .ok _ s => some s.world
  | .error .. => none

theorem exists_of_after {call : Run Unit} {w : World} (h : m.after call = some w) :
    ∃ s s' : State, s.world = m.world ∧ call s = .ok () s' ∧ s'.world = w := by
  unfold after at h
  split at h
  · rename_i s' hs'
    exact ⟨_, s', rfl, hs', Option.some.inj h⟩
  · cases h

def cue (m : Moment) : Cue → Option (Occurrence × Moment)
  | .create cls =>
    some (.created m.world.heap.cells.length, { m with world := (m.world.spawn cls .timer).2 })
  | .init o args =>
    (m.after (Run.initTimer o args)).map fun w => (.configured o, { m with world := w })
  | .start o => (m.after (Run.startTimer o)).bind fun w =>
    if m.world.clockwork.runs.length < w.clockwork.runs.length then
      some (.started o m.world.clockwork.runs.length, { m with world := w })
    else none
  | .stop o => (m.after (Run.stopTimer o)).map fun w =>
    (.stopped o (m.world.workerOf? o), { m with world := w })
  | .reset o => (m.after (Run.resetTimer o)).map fun w =>
    (.reset o (m.world.workerOf? o), { m with world := w })
  | .move move => (m.world.move move).map fun w => (m.world.entry w move, { m with world := w })
  | .take =>
    match m.loop, Run.takeEvent ⟨m.world, [], 0, []⟩ with
    | .idle, .ok (some e) s => some (.taken e (m.world.receiver? e), ⟨s.world, .handling e⟩)
    | _, _ => none
  | .finish =>
    match m.loop with
    | .handling (.dispatch r kind) => some (.handled (.dispatch r kind), { m with loop := .idle })
    | .handling e =>
      (m.after (Run.handle (fun _ _ _ => throw .exhausted) e)).map fun w => (.handled e, ⟨w, .idle⟩)
    | _ => none

theorem happens_of_cue {c : Cue} (h : m.cue c = some (a, m')) : Happens m a m' := by
  have hcall : ∀ {call : Run Unit} {b : Occurrence}, (m.after call).map (fun w =>
      (b, { m with world := w })) = some (a, m') → (∀ {s s' : State}, s.world = m.world →
        call s = .ok () s' → Happens m b { m with world := s'.world }) → Happens m a m' := by
    intro call b h hb
    obtain ⟨w, hw, heq⟩ := Option.map_eq_some_iff.1 h
    obtain ⟨rfl, rfl⟩ := Prod.mk.inj heq
    obtain ⟨s, s', hs, hrun, rfl⟩ := exists_of_after hw
    exact hb hs hrun
  cases c with
  | create cls =>
    obtain ⟨rfl, rfl⟩ := Prod.mk.inj (Option.some.inj h)
    exact .create cls
  | init o args => exact hcall h fun hs hrun => .init hs hrun
  | stop o => exact hcall h fun hs hrun => .stop hs hrun
  | reset o => exact hcall h fun hs hrun => .reset hs hrun
  | start o =>
    obtain ⟨w, hw, h⟩ := Option.bind_eq_some_iff.1 h
    split at h
    · rename_i hnew
      obtain ⟨rfl, rfl⟩ := Prod.mk.inj (Option.some.inj h)
      obtain ⟨s, s', hs, hrun, rfl⟩ := exists_of_after hw
      exact .start hs hrun hnew
    · cases h
  | move move =>
    obtain ⟨w, hw, heq⟩ := Option.map_eq_some_iff.1 h
    obtain ⟨rfl, rfl⟩ := Prod.mk.inj heq
    exact .move hw
  | take =>
    simp only [cue] at h
    split at h
    · rename_i s hl htake
      obtain ⟨rfl, rfl⟩ := Prod.mk.inj (Option.some.inj h)
      exact .take hl rfl htake
    · cases h
  | finish =>
    simp only [cue] at h
    split at h
    · rename_i r kind hl
      obtain ⟨rfl, rfl⟩ := Prod.mk.inj (Option.some.inj h)
      exact .finish hl
    · rename_i e he hl
      obtain ⟨w, hw, heq⟩ := Option.map_eq_some_iff.1 h
      obtain ⟨rfl, rfl⟩ := Prod.mk.inj heq
      obtain ⟨s, s', hs, hrun, rfl⟩ := exists_of_after hw
      exact .handle hl (fun r kind hd => he r kind hd) hs hrun
    · cases h

def play (m : Moment) : List Cue → Option (List Occurrence × Moment)
  | [] => some ([], m)
  | c :: cs => do
    let (a, m') ← m.cue c
    let (l, m'') ← m'.play cs
    return (a :: l, m'')

end Moment

theorem Course.append {l k : List Occurrence} {m'' : Moment} (h : Course m l m')
    (hk : Course m' k m'') : Course m (l ++ k) m'' := by
  induction hk with
  | nil => rwa [List.append_nil]
  | snoc _ hs ih => rw [← List.append_assoc]; exact ih.snoc hs

theorem Moment.course_of_play {cs : List Cue} {l : List Occurrence}
    (h : m.play cs = some (l, m')) : Course m l m' := by
  induction cs generalizing m l with
  | nil =>
    obtain ⟨rfl, rfl⟩ := Prod.mk.inj (Option.some.inj h)
    exact .nil
  | cons c cs ih =>
    obtain ⟨⟨a, m₁⟩, hcue, h⟩ := Option.bind_eq_some_iff.1 h
    obtain ⟨⟨k, m₂⟩, hplay, h⟩ := Option.bind_eq_some_iff.1 h
    obtain ⟨rfl, rfl⟩ := Prod.mk.inj (Option.some.inj h)
    have hfirst : Course m [a] m₁ := Course.nil.snoc (Moment.happens_of_cue hcue)
    exact hfirst.append (ih hplay)

theorem Course.happens (h : Course m [a] m') : Happens m a m' := by
  generalize hl : [a] = l at h
  cases h with
  | nil => cases hl
  | @snoc k b m₁ _ h hs =>
    obtain ⟨hk, hb⟩ := List.append_inj' (show [] ++ [a] = k ++ [b] from hl) rfl
    obtain rfl := List.singleton_inj.1 hb
    subst hk
    generalize hnil : ([] : List Occurrence) = k at h
    cases h with
    | nil => exact hs
    | snoc => simp at hnil

theorem World.untimed_blank : World.blank.Untimed where
  timers _ := rfl
  targets := rfl
  queue := rfl
  counters := rfl
  runs := rfl

def World.stage : World := { World.blank with pool := .ofThreads 2 }

theorem World.untimed_stage : World.stage.Untimed where
  timers := untimed_blank.timers
  targets := untimed_blank.targets
  queue := untimed_blank.queue
  counters := untimed_blank.counters
  runs := untimed_blank.runs

def Moment.overture : Moment := ⟨World.stage, .idle⟩

theorem History.exists_of_play (cs : List Cue) (l : List Occurrence)
    (h : (Moment.overture.play cs).map Prod.fst = some l) : ∃ m, History l m := by
  obtain ⟨⟨l', m⟩, hplay, rfl⟩ := Option.map_eq_some_iff.1 h
  exact ⟨m, (History.fresh World.untimed_stage).append (Moment.course_of_play hplay)⟩

theorem History.exists_of_plays {β : Type} (cs₁ cs₂ cs₃ : List Cue) (l₁ l₂ l₃ : List Occurrence)
    (f : Moment → Moment → Moment → β) (b : β)
    (h : ((Moment.overture.play cs₁).bind fun x₁ => (x₁.2.play cs₂).bind fun x₂ =>
      (x₂.2.play cs₃).map fun x₃ => ([x₁.1, x₂.1, x₃.1], f x₁.2 x₂.2 x₃.2)) =
        some ([l₁, l₂, l₃], b)) :
    ∃ m₁ m₂ m₃, History l₁ m₁ ∧ Course m₁ l₂ m₂ ∧ Course m₂ l₃ m₃ ∧ f m₁ m₂ m₃ = b := by
  obtain ⟨⟨l₁', m₁⟩, h₁, hrest⟩ := Option.bind_eq_some_iff.1 h
  obtain ⟨⟨l₂', m₂⟩, h₂, hlast⟩ := Option.bind_eq_some_iff.1 hrest
  obtain ⟨⟨l₃', m₃⟩, h₃, heq⟩ := Option.map_eq_some_iff.1 hlast
  simp only [Prod.mk.injEq, List.cons.injEq, and_true] at heq
  obtain ⟨⟨rfl, rfl, rfl⟩, hb⟩ := heq
  exact ⟨m₁, m₂, m₃, (History.fresh World.untimed_stage).append (Moment.course_of_play h₁),
    Moment.course_of_play h₂, Moment.course_of_play h₃, hb⟩

/-! Entries that come together, of timers without delay -/

namespace Occurrence

def lap (r : RunId) (n : UInt32) (k : RendezvousId) : List Occurrence :=
  [worked r (.asleep 0) [], worked r .testing [], worked r .counting [],
    worked r (.posting n) [.dispatch r timerKind], worked r (.syncing n) [.sync k]]

def round (r : RunId) (k : RendezvousId) (receiver : Option ObjectId) : List Occurrence :=
  [taken (.dispatch r timerKind) receiver, handled (.dispatch r timerKind), taken (.sync k) none,
    handled (.sync k)]

end Occurrence

def Cue.handles (n : Nat) : List Cue := (List.replicate n [Cue.take, Cue.finish]).flatten

def Cue.timer (repeatCount : Int32) : List Cue :=
  [.create 0, .init 0 [.int 0, .int repeatCount]]

def Cue.steps (k : WorkerId) (n : Nat) : List Cue := List.replicate n (.move (.step k))

end ScriptPlayer
