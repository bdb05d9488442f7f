import ScriptPlayer.Proofs.Run.Changes
import ScriptPlayer.Proofs.Timer.Cues

/-! Runs as stretches of history. Every change is an entry, or none: the built-ins of timers and
the steps of workers are entries of their own, the rest concerns neither timers nor the queue. So
whatever a run does to the world comes about by entries, and with the event loop where it was. -/
namespace ScriptPlayer

namespace World

variable {w w' w'' : World} {loop : Loop}

/-- Some entries lead from one world to the other and leave the event loop where it is. -/
def LeadsTo (w : World) (loop : Loop) (w' : World) : Prop :=
  ∃ l, Course ⟨w, loop⟩ l ⟨w', loop⟩

theorem LeadsTo.refl (w : World) : w.LeadsTo loop w := ⟨[], .nil⟩

theorem LeadsTo.trans (h : w.LeadsTo loop w') (h' : w'.LeadsTo loop w'') :
    w.LeadsTo loop w'' := by
  obtain ⟨l, hl⟩ := h
  obtain ⟨k, hk⟩ := h'
  exact ⟨l ++ k, hl.append hk⟩

theorem leadsTo_of_happens {a : Occurrence} (h : Happens ⟨w, loop⟩ a ⟨w', loop⟩) :
    w.LeadsTo loop w' :=
  ⟨[a], Course.nil.snoc h⟩

theorem Quiet.leadsTo (h : w.Quiet w') : w.LeadsTo loop w' :=
  leadsTo_of_happens (.elsewhere h)

/-! Changes that concern neither timers nor the queue -/

theorem quiet_of_fades (hheap : w.heap.Fades w'.heap) (htargets : w'.targets = w.targets)
    (hclockwork : w'.clockwork = w.clockwork) : w.Quiet w' where
  timers := keepsTimers_of_fades hheap
  targets := htargets
  queue := congrArg Clockwork.queue hclockwork
  counters := congrArg Clockwork.counters hclockwork
  runs := congrArg Clockwork.runs hclockwork

theorem Reframes.quiet (h : w.Reframes w') (htimers : w.KeepsTimers w') : w.Quiet w' where
  timers := htimers
  targets := h.targets
  queue := congrArg Clockwork.queue h.clockwork
  counters := congrArg Clockwork.counters h.clockwork
  runs := congrArg Clockwork.runs h.clockwork

theorem quiet_hold (w : World) (v : Value) : w.Quiet (w.hold v) :=
  (reframes_hold w v).quiet (keepsTimers_of_fades (fades_hold w v))

theorem quiet_letGo (w : World) (v : Value) : w.Quiet (w.letGo v) :=
  (reframes_letGo w v).quiet (keepsTimers_of_fades (fades_letGo w v))

theorem quiet_pushFrame (w : World) (p : Purpose) : w.Quiet (w.pushFrame p) :=
  quiet_of_eq rfl rfl rfl

theorem quiet_popFrame (w : World) (keep : List Value) : w.Quiet (w.popFrame keep) :=
  (reframes_popFrame w keep).quiet (keepsTimers_of_fades (fades_popFrame w keep))

theorem quiet_assign (w : World) (place : Nat) (v : Value) : w.Quiet (w.assign place v) :=
  (reframes_assign w place v).quiet (keepsTimers_of_fades (fades_assign w place v))

theorem quiet_newFunction (w : World) (f : Function) : w.Quiet (w.newFunction f).2 :=
  (reframes_newFunction w f).quiet ⟨length_cells_newFunction w f, fun o j hj =>
    Or.inl ⟨j, instance?_newFunction hj, by simp⟩⟩

theorem quiet_putInstance {o : ObjectId} {i j : Instance} (hi : w.instance? o = some i)
    (hj : j.timer? = i.timer?) : w.Quiet (w.putInstance o j) :=
  (reframes_putInstance w o j).quiet <|
    (retimes_putInstance hi (g := id) (by simpa using hj)).congr fun p t _ => by
      simp [TimerState.changeAt]

theorem quiet_defineGlobal (w : World) (name : QName) (v : Value) :
    w.Quiet (w.defineGlobal name v) :=
  quiet_of_fades (fades_putGlobals w _) rfl rfl

theorem quiet_registerClass {d : ClassDecl} {c : ClassId} (h : w.registerClass d = .ok (c, w')) :
    w.Quiet w' := by
  refine quiet_of_fades (fades_registerClass h) ?_ ?_ <;>
    obtain ⟨-, -, rfl⟩ := registerClass_eq_ok h <;> rfl

theorem quiet_spawn (w : World) (cls : ClassId) {spec : BackingSpec} (hspec : spec ≠ .timer) :
    w.Quiet (w.spawn cls spec).2 := by
  have hbacking : ∀ i : Instance, i.backing = (w.newBacking spec).1 → i.timer? = none := by
    intro i hi
    unfold Instance.timer?
    rw [hi]
    cases spec <;> first | rfl | exact absurd rfl hspec
  have hstore : (w.newBacking spec).2.targets = w.targets ∧
      (w.newBacking spec).2.clockwork = w.clockwork ∧ (w.newBacking spec).2.heap = w.heap := by
    cases spec <;> first | exact ⟨rfl, rfl, rfl⟩ | exact absurd rfl hspec
  have hclockwork : (w.spawn cls spec).2.clockwork = w.clockwork :=
    (reframes_newInstance _ _).clockwork.trans hstore.2.1
  have hlength : w.heap.cells.length ≤ (w.spawn cls spec).2.heap.cells.length := by
    rw [← hstore.2.2]
    exact length_cells_newInstance _ _
  exact {
    timers := ⟨hlength, fun o j hj => by
      rcases instance?_spawn hj with hj | ⟨rfl, rfl⟩
      · exact Or.inl ⟨j, hj, by simp⟩
      · exact Or.inr ⟨Nat.le_refl _, hbacking _ rfl⟩⟩
    targets := (reframes_newInstance _ _).targets.trans hstore.1
    queue := by rw [hclockwork]
    counters := by rw [hclockwork]
    runs := by rw [hclockwork] }

theorem leadsTo_spawn (w : World) (cls : ClassId) (spec : BackingSpec) :
    w.LeadsTo loop (w.spawn cls spec).2 := by
  by_cases hspec : spec = .timer
  · subst hspec
    exact leadsTo_of_happens (.create cls)
  · exact (quiet_spawn w cls hspec).leadsTo

theorem leadsTo_move {move : Move} (h : w.move move = some w') : w.LeadsTo loop w' :=
  leadsTo_of_happens (Happens.move (m := ⟨w, loop⟩) h)

theorem leadsTo_startTimer {o : ObjectId} {s s' : State} (h : Run.startTimer o s = .ok () s') :
    s.world.LeadsTo loop s'.world := by
  rcases Run.startTimer_ok h with rfl | ⟨t, hstarts⟩
  · exact .refl _
  · have hnew : s.world.clockwork.runs.length < s'.world.clockwork.runs.length := by
      obtain ⟨delay, hruns⟩ := hstarts.runs_eq
      rw [hruns, List.length_append, Clockwork.length_runs_giveUp]
      exact Nat.lt_succ_self _
    exact leadsTo_of_happens (.start (m := ⟨s.world, loop⟩) rfl h hnew)

theorem Change.leadsTo (h : w.Change w') : w.LeadsTo loop w' := by
  cases h with
  | hold v => exact (quiet_hold w v).leadsTo
  | letGo v => exact (quiet_letGo w v).leadsTo
  | push p => exact (quiet_pushFrame w p).leadsTo
  | pop keep => exact (quiet_popFrame w keep).leadsTo
  | assign place v => exact (quiet_assign w place v).leadsTo
  | defineGlobal name v => exact (quiet_defineGlobal w name v).leadsTo
  | registerClass h => exact (quiet_registerClass h).leadsTo
  | newFunction f => exact (quiet_newFunction w f).leadsTo
  | spawn cls spec => exact leadsTo_spawn w cls spec
  | put hi hj => exact (quiet_putInstance hi hj).leadsTo
  | trace | screen | newSource | setSource | submitDecoder =>
    exact Quiet.leadsTo (quiet_of_eq rfl rfl rfl)
  | tick t => exact (quiet_tick w t).leadsTo
  | move h => exact leadsTo_move h
  | clock t => exact Quiet.leadsTo ⟨keepsTimers_of_heap rfl, rfl, rfl, rfl, rfl⟩
  | initTimer hs h => exact leadsTo_of_happens (.init (m := ⟨w, loop⟩) hs h)
  | setTimerDelay hs h => exact leadsTo_of_happens (.setDelay (m := ⟨w, loop⟩) hs h)
  | startTimer hs h => exact hs ▸ leadsTo_startTimer h
  | stopTimer hs h => exact leadsTo_of_happens (.stop (m := ⟨w, loop⟩) hs h)
  | resetTimer hs h => exact leadsTo_of_happens (.reset (m := ⟨w, loop⟩) hs h)

theorem leadsTo_of_handled {e : Event} {s s' : State} (htake : Run.takeEvent s = .ok (some e) s')
    (hevent : s'.world.LeadsTo (.handling e) w)
    (hend : Happens ⟨w, .handling e⟩ (.handled e) ⟨w', .idle⟩) : s.world.LeadsTo .idle w' := by
  obtain ⟨l, hl⟩ := hevent
  have hfirst : Course ⟨s.world, .idle⟩ [_] ⟨s'.world, .handling e⟩ :=
    Course.nil.snoc (.take rfl rfl htake)
  exact ⟨_, (hfirst.append hl).snoc hend⟩

instance : Cumulative fun loop w w' => w.LeadsTo loop w' where
  preorder _ := { refl := .refl, trans := fun _ _ _ => .trans }
  change h := h.leadsTo
  dispatch htake h := leadsTo_of_handled htake h (.finish rfl)
  handle he htake h := leadsTo_of_handled htake (.refl _) (.handle rfl he rfl h)

end World

namespace Run

def Leads {α : Type} (loop : Loop) (m : Run α) (s : State) : Prop :=
  s.world.LeadsTo loop (s.afterRun m).world

end Run

end ScriptPlayer
