import ScriptPlayer.Proofs.Run.Events
import ScriptPlayer.Proofs.Timer.Clockwork

/-! What the built-ins of timers do to the state of each timer, to the runs and to the targets. What
they give up may be destroyed, so of any other timer it can only be said that it keeps its state as
long as it lives. -/
namespace ScriptPlayer

namespace Instance

def timer? (i : Instance) : Option TimerState :=
  match i.backing with
  | .host (.eventTarget _ timer) => timer
  | _ => none

variable {i : Instance} {timer : TimerState}

theorem timer?_of_timerState {t : ClassTable} (h : i.timerState t = .ok timer) :
    i.timer? = some timer := by
  unfold timerState at h
  cases hp : i.payload t with
  | error f => rw [hp] at h; cases h
  | ok p =>
    rw [hp] at h
    unfold timer?
    rw [backing_of_payload hp]
    cases p with
    | eventTarget l timer' =>
      cases timer' with
      | none => cases h
      | some timer' => exact congrArg some (Except.ok.inj h)
    | _ => cases h

theorem timer?_setTimerState (h : i.timer?.isSome) (timer : TimerState) :
    (i.setTimerState timer).timer? = some timer := by
  unfold setTimerState
  split
  · rfl
  · rename_i hb
    unfold timer? at h
    split at h
    · rename_i l t hb'
      exact absurd hb' (hb l t)
    · cases h

end Instance

def TimerState.changeAt (o : ObjectId) (g : TimerState → TimerState) (p : ObjectId)
    (t : TimerState) : TimerState :=
  if p = o then g t else t

@[simp] theorem TimerState.changeAt_self (o : ObjectId) (g : TimerState → TimerState)
    (t : TimerState) : TimerState.changeAt o g o t = g t :=
  if_pos rfl

namespace World

def timer? (w : World) (o : ObjectId) : Option TimerState := (w.instance? o).bind Instance.timer?

/-- What lives on of the timers has its state changed by `f`, and what is new is no timer. -/
structure Retimes (f : ObjectId → TimerState → TimerState) (w w' : World) : Prop where
  length : w.heap.cells.length ≤ w'.heap.cells.length
  timer : ∀ o j, w'.instance? o = some j →
    (∃ i, w.instance? o = some i ∧ j.timer? = i.timer?.map (f o)) ∨
      w.heap.cells.length ≤ o ∧ j.timer? = none

abbrev KeepsTimers : World → World → Prop := Retimes fun _ t => t

variable {w w' w'' : World} {f g : ObjectId → TimerState → TimerState} {o : ObjectId}

theorem length_of_timer? {t : TimerState} (ht : w.timer? o = some t) :
    o < w.heap.cells.length := by
  obtain ⟨i, hi, -⟩ := Option.bind_eq_some_iff.1 ht
  refine Nat.lt_of_not_le fun hle => ?_
  rw [instance?_eq_none_of_length_le hle] at hi
  cases hi

theorem Retimes.timer? (h : w.Retimes f w') {t : TimerState} (ht : w'.timer? o = some t) :
    ∃ t₀, w.timer? o = some t₀ ∧ t = f o t₀ := by
  obtain ⟨j, hj, ht⟩ := Option.bind_eq_some_iff.1 ht
  rcases h.timer o j hj with ⟨i, hi, hij⟩ | ⟨-, hn⟩
  · rw [hij] at ht
    obtain ⟨t₀, ht₀, rfl⟩ := Option.map_eq_some_iff.1 ht
    exact ⟨t₀, Option.bind_eq_some_iff.2 ⟨i, hi, ht₀⟩, rfl⟩
  · rw [hn] at ht
    cases ht

theorem KeepsTimers.refl (w : World) : w.KeepsTimers w where
  length := Nat.le_refl _
  timer o j hj := Or.inl ⟨j, hj, by simp⟩

theorem Retimes.trans (h : w.Retimes f w') (h' : w'.Retimes g w'') :
    w.Retimes (fun o t => g o (f o t)) w'' where
  length := Nat.le_trans h.length h'.length
  timer o k hk := by
    rcases h'.timer o k hk with ⟨j, hj, hjk⟩ | ⟨hlt, hn⟩
    · rcases h.timer o j hj with ⟨i, hi, hij⟩ | ⟨hlt, hn⟩
      · exact Or.inl ⟨i, hi, by rw [hjk, hij, Option.map_map]; rfl⟩
      · exact Or.inr ⟨hlt, by rw [hjk, hn]; rfl⟩
    · exact Or.inr ⟨Nat.le_trans h.length hlt, hn⟩

theorem Retimes.congr (h : w.Retimes f w') (hfg : ∀ o t, w.timer? o = some t → f o t = g o t) :
    w.Retimes g w' where
  length := h.length
  timer o j hj := by
    rcases h.timer o j hj with ⟨i, hi, hij⟩ | hn
    · refine Or.inl ⟨i, hi, ?_⟩
      rw [hij]
      cases ht : i.timer? with
      | none => rfl
      | some t => exact congrArg some (hfg o t (Option.bind_eq_some_iff.2 ⟨i, hi, ht⟩))
    · exact Or.inr hn

theorem Retimes.changeAt {t : TimerState} {g g' : TimerState → TimerState}
    (h : w.Retimes (TimerState.changeAt o g) w') (ht : w.timer? o = some t) (hg : g t = g' t) :
    w.Retimes (TimerState.changeAt o g') w' := by
  refine h.congr fun p t' ht' => ?_
  unfold TimerState.changeAt
  split
  · rename_i hp
    obtain rfl : t' = t := Option.some.inj (ht'.symm.trans (hp ▸ ht))
    exact hg
  · rfl

theorem keepsTimers_of_fades (h : w.heap.Fades w'.heap) : w.KeepsTimers w' where
  length := Nat.le_of_eq h.length.symm
  timer o j hj := Or.inl ⟨j, h.instance? hj, by simp⟩

theorem keepsTimers_of_heap (h : w'.heap = w.heap) : w.KeepsTimers w' :=
  keepsTimers_of_fades (h ▸ Heap.Fades.refl _)

theorem Retimes.fades (h : w.Retimes f w') (hf : w'.heap.Fades w''.heap) : w.Retimes f w'' :=
  h.trans (keepsTimers_of_fades hf)

theorem Retimes.heap (h : w.Retimes f w') (hw : w''.heap = w'.heap) : w.Retimes f w'' :=
  h.fades (hw ▸ Heap.Fades.refl _)

theorem Retimes.source (h : w'.Retimes f w'') (hw : w'.heap = w.heap) : w.Retimes f w'' :=
  (keepsTimers_of_heap hw).trans h

theorem Retimes.changeAt_trans {g g' : TimerState → TimerState}
    (h : w.Retimes (TimerState.changeAt o g) w') (h' : w'.Retimes (TimerState.changeAt o g') w'') :
    w.Retimes (TimerState.changeAt o (g' ∘ g)) w'' := by
  refine (h.trans h').congr fun p t _ => ?_
  unfold TimerState.changeAt
  split <;> rfl

theorem retimes_putInstance {i j : Instance} (hi : w.instance? o = some i)
    {g : TimerState → TimerState} (hj : j.timer? = i.timer?.map g) :
    w.Retimes (TimerState.changeAt o g) (w.putInstance o j) where
  length := Nat.le_of_eq (length_cells_putInstance w o j).symm
  timer p k hk := by
    have hk := instance?_putInstance hi j hk
    by_cases hp : p = o
    · rw [if_pos hp] at hk
      refine Or.inl ⟨i, hp ▸ hi, ?_⟩
      rw [hk, hj]
      cases i.timer? <;> simp [TimerState.changeAt, hp]
    · rw [if_neg hp] at hk
      refine Or.inl ⟨k, hk, ?_⟩
      cases k.timer? <;> simp [TimerState.changeAt, hp]

/-! The built-ins -/

/-- A timer gives up its run: the run is cancelled and its target forgotten. -/
structure Stops (w : World) (o : ObjectId) (t : TimerState) (w' : World) : Prop where
  timer : w.timer? o = some t
  retimes : w.Retimes (TimerState.changeAt o fun t => { t with run := none }) w'
  targets : ∀ e, e ∈ w'.targets ↔ e ∈ w.targets ∧ t.run ≠ some e.1
  clockwork : w'.clockwork = w.clockwork.giveUp t.run

/-- A timer gives up its run, if it has one, for a new one. -/
structure Starts (w : World) (o : ObjectId) (t : TimerState) (w' : World) : Prop where
  timer : w.timer? o = some t
  idle : ∀ r, t.run = some r → w.clockwork.isRunning r = false
  retimes : w.Retimes
    (TimerState.changeAt o fun t => { t with run := some w.clockwork.runs.length }) w'
  targets : ∀ e, e ∈ w'.targets ↔
    e ∈ w.targets ∧ t.run ≠ some e.1 ∨ e = (w.clockwork.runs.length, o)
  clockwork : ∃ delay, w'.clockwork =
    ((w.clockwork.giveUp t.run).newRun t.counter delay t.repeatCount).2

structure Resets (w : World) (o : ObjectId) (t : TimerState) (w' : World) : Prop where
  timer : w.timer? o = some t
  retimes : w.Retimes (TimerState.changeAt o fun t => { t with run := none }) w'
  targets : ∀ e, e ∈ w'.targets ↔ e ∈ w.targets ∧ t.run ≠ some e.1
  clockwork : w'.clockwork = (w.clockwork.giveUp t.run).setCount t.counter 0

structure Configures (w : World) (o : ObjectId) (w' : World) : Prop where
  retimes : ∃ delay repeatCount, w.Retimes
    (TimerState.changeAt o fun t => { t with delay := delay, repeatCount := repeatCount }) w'
  targets : w'.targets = w.targets
  clockwork : w'.clockwork = w.clockwork

theorem instance?_spawn_timer {cls : ClassId} {j : Instance}
    (hj : (w.spawn cls .timer).2.instance? o = some j) :
    w.instance? o = some j ∨ o = w.heap.cells.length ∧
      j.timer? = some ⟨.zero false, 0, w.clockwork.counters.length, none⟩ := by
  rcases instance?_spawn hj with hj | ⟨ho, rfl⟩
  · exact Or.inl hj
  · exact Or.inr ⟨ho, rfl⟩

end World

namespace Run

variable {α β : Type} {s s' : State} {o : ObjectId}

theorem timerOf_ok {t : TimerState} (h : timerOf o s = .ok t s') :
    s' = s ∧ s.world.timer? o = some t := by
  refine ⟨(reads_timerOf o).eq_of_ok h, ?_⟩
  obtain ⟨i, s₁, hi, h⟩ := exists_of_bind_ok h
  obtain rfl := (reads_instanceOf o).eq_of_ok hi
  cases hw : s₁.world.instance? o with
  | none => rw [instanceOf_dangling hw] at hi; cases hi
  | some i' =>
    rw [instanceOf_run hw] at hi
    obtain rfl : i' = i := (EStateM.Result.ok.inj hi).1
    refine Option.bind_eq_some_iff.2 ⟨i', hw, ?_⟩
    cases ht : i'.timerState s₁.world.classes with
    | ok t' =>
      rw [bind_of_ok (m := world) rfl, ht] at h
      obtain rfl : t' = t := (EStateM.Result.ok.inj h).1
      exact Instance.timer?_of_timerState ht
    | error f => rw [bind_of_ok (m := world) rfl, ht] at h; cases h

theorem putTimer_ok {t t' : TimerState} (h : putTimer o t' s = .ok () s')
    (ht : s.world.timer? o = some t) :
    ∃ w, s' = { s with world := w } ∧ w.clockwork = s.world.clockwork ∧
      w.targets = s.world.targets ∧ s.world.Retimes (TimerState.changeAt o fun _ => t') w := by
  obtain ⟨i, hi, hti⟩ := Option.bind_eq_some_iff.1 ht
  unfold putTimer at h
  rw [bind_of_ok (instanceOf_run hi)] at h
  refine ⟨_, (EStateM.Result.ok.inj h).2.symm, (World.reframes_putInstance ..).clockwork,
    (World.reframes_putInstance ..).targets, World.retimes_putInstance hi ?_⟩
  rw [hti]
  exact Instance.timer?_setTimerState (Option.isSome_iff_exists.2 ⟨t, hti⟩) t'

theorem stopTimer_ok (h : stopTimer o s = .ok () s') :
    (∃ w, s' = { s with world := w }) ∧ ∃ t, s.world.Stops o t s'.world := by
  obtain ⟨t, s₁, hread, hrest⟩ := exists_of_bind_ok h
  obtain ⟨rfl, ht⟩ := timerOf_ok hread
  cases hr : t.run with
  | none =>
    rw [hr] at hrest
    obtain rfl := (EStateM.Result.ok.inj hrest).2
    refine ⟨⟨_, rfl⟩, t, ht, ?_, by simp [hr], by rw [hr]; rfl⟩
    have hsame : s₁.world.Retimes (TimerState.changeAt o id) s₁.world :=
      (World.KeepsTimers.refl _).congr fun p t _ => by simp [TimerState.changeAt]
    exact hsame.changeAt ht (by rw [← hr]; rfl)
  | some r =>
    rw [hr] at hrest
    obtain ⟨_, s₂, hput, hrest⟩ := exists_of_bind_ok hrest
    obtain ⟨w, rfl, hclockwork, htargets, hretimes⟩ := putTimer_ok hput ht
    obtain rfl := (EStateM.Result.ok.inj hrest).2
    refine ⟨⟨_, rfl⟩, t, ht, ?_, fun e => ?_, by rw [hr]; exact congrArg (·.cancel r) hclockwork⟩
    · have hchange : s₁.world.Retimes (TimerState.changeAt o fun t => { t with run := none }) w :=
        hretimes.changeAt ht rfl
      exact hchange.fades (World.fades_putTargets
        { w with clockwork := w.clockwork.cancel r } (w.targets.filter fun e => e.1 != r))
    · change e ∈ w.targets.filter (fun e => e.1 != r) ↔ _
      rw [htargets, List.mem_filter, hr, bne_iff_ne, ne_comm, Option.some_inj.ne]

theorem resetTimer_ok (h : resetTimer o s = .ok () s') : ∃ t, s.world.Resets o t s'.world := by
  obtain ⟨_, s₁, hhalt, hrest⟩ := exists_of_bind_ok h
  obtain ⟨-, t, hstop⟩ := stopTimer_ok hhalt
  obtain ⟨t', s₂, hread, hend⟩ := exists_of_bind_ok hrest
  obtain ⟨rfl, ht'⟩ := timerOf_ok hread
  obtain rfl := (EStateM.Result.ok.inj hend).2
  -- the counter is that of the timer before, which nothing has changed
  obtain ⟨t₀, ht₀, rfl⟩ := hstop.retimes.timer? ht'
  obtain rfl : t₀ = t := Option.some.inj (ht₀.symm.trans hstop.timer)
  refine ⟨t₀, ht₀, ?_, hstop.targets, ?_⟩
  · exact hstop.retimes.heap rfl
  · rw [← hstop.clockwork]
    simp [TimerState.changeAt]

theorem isTimerRunning_ok {b : Bool} (h : isTimerRunning o s = .ok b s') :
    s' = s ∧ ∃ t, s.world.timer? o = some t ∧ b = t.run.any s.world.clockwork.isRunning := by
  refine ⟨(reads_isTimerRunning o).eq_of_ok h, ?_⟩
  obtain ⟨t, s₁, hread, hrest⟩ := exists_of_bind_ok h
  obtain ⟨rfl, ht⟩ := timerOf_ok hread
  refine ⟨t, ht, ?_⟩
  cases hr : t.run with
  | none => rw [hr] at hrest; exact (EStateM.Result.ok.inj hrest).1.symm
  | some r => rw [hr] at hrest; exact (EStateM.Result.ok.inj hrest).1.symm

theorem startTimer_ok (h : startTimer o s = .ok () s') :
    s' = s ∨ ∃ t, s.world.Starts o t s'.world := by
  obtain ⟨b, s₁, hb, hrest⟩ := exists_of_bind_ok h
  obtain ⟨rfl, t, ht, rfl⟩ := isTimerRunning_ok hb
  cases hrun : t.run.any s₁.world.clockwork.isRunning with
  | true =>
    rw [hrun] at hrest
    exact Or.inl (EStateM.Result.ok.inj hrest).2.symm
  | false =>
    rw [hrun, if_neg Bool.false_ne_true] at hrest
    obtain ⟨_, s₂, hhalt, hrest⟩ := exists_of_bind_ok hrest
    obtain ⟨⟨w, rfl⟩, t', hstop⟩ := stopTimer_ok hhalt
    obtain rfl : t' = t := Option.some.inj (hstop.timer.symm.trans ht)
    obtain ⟨t₂, s₃, hread, hrest⟩ := exists_of_bind_ok hrest
    obtain ⟨rfl, ht₂⟩ := timerOf_ok hread
    rw [bind_of_ok (m := world) rfl] at hrest
    cases hd : Nanos.ofDelay? t₂.delay w.minDelay with
    | none => rw [hd] at hrest; cases hrest
    | some delay =>
      rw [hd] at hrest
      obtain ⟨r, s₄, hnew, hrest⟩ := exists_of_bind_ok hrest
      obtain ⟨rfl, rfl⟩ := EStateM.Result.ok.inj hnew
      obtain ⟨_, s₅, hput, hrest⟩ := exists_of_bind_ok hrest
      obtain ⟨w', rfl, hclockwork, htargets, hretimes⟩ := putTimer_ok hput (t := t₂) ht₂
      obtain rfl := (EStateM.Result.ok.inj hrest).2
      obtain ⟨t₀, ht₀, h₂⟩ := hstop.retimes.timer? ht₂
      obtain rfl : t₀ = t' := Option.some.inj (ht₀.symm.trans ht)
      rw [TimerState.changeAt_self] at h₂
      have hlen : w.clockwork.runs.length = s₁.world.clockwork.runs.length := by
        rw [hstop.clockwork]
        cases t₀.run with
        | none => rfl
        | some r => exact List.length_modify _ _ _
      have htarget : ∀ e, e ∈ w'.targets ↔ e ∈ s₁.world.targets ∧ t₀.run ≠ some e.1 := by
        rw [htargets]
        exact hstop.targets
      refine Or.inr ⟨t₀, ht, fun r hr => ?_, ?_, fun e => ?_, delay, ?_⟩
      · rw [hr] at hrun
        exact hrun
      · have hboth := hstop.retimes.changeAt_trans (hretimes.source rfl)
        refine World.Retimes.fades (hboth.changeAt ht ?_) (World.fades_putTargets w' _)
        rw [Function.comp_apply, h₂, ← hlen]
      · change e ∈ w'.targets ++ [(w.clockwork.runs.length, o)] ↔ _
        rw [List.mem_append, List.mem_singleton, htarget, hlen]
      · change w'.clockwork = _
        rw [hclockwork, ← hstop.clockwork, h₂]
        rfl

theorem configures_of_putTimer {t t' : TimerState} (h : putTimer o t' s = .ok () s')
    (ht : s.world.timer? o = some t) {delay : Binary64} {repeatCount : UInt32}
    (ht' : t' = { t with delay := delay, repeatCount := repeatCount }) :
    s.world.Configures o s'.world := by
  obtain ⟨w, rfl, hclockwork, htargets, hretimes⟩ := putTimer_ok h ht
  exact ⟨⟨delay, repeatCount, hretimes.changeAt ht ht'⟩, htargets, hclockwork⟩

theorem ofError_ok {r : Except ScriptError α} {a : α} (h : ofError r s = .ok a s') :
    s' = s ∧ r = .ok a := by
  cases r with
  | ok b =>
    obtain ⟨rfl, rfl⟩ := EStateM.Result.ok.inj h
    exact ⟨rfl, rfl⟩
  | error e => cases h

theorem exists_delay {α : Type} {name : String} {args : List Value} {f : Binary64 → Run α} {a : α}
    (h : (do
      requireArgs name args 1
      let delay ← ofError (parseDelay (← world).naming (args.getD 0 .undefined))
      f delay) s = .ok a s') :
    ∃ delay, parseDelay s.world.naming (args.getD 0 .undefined) = .ok delay ∧
      f delay s = .ok a s' := by
  obtain ⟨_, s₁, hargs, h₁⟩ := exists_of_bind_ok h
  obtain rfl := (reads_requireArgs _ _ _).eq_of_ok hargs
  rw [bind_of_ok (m := world) rfl] at h₁
  obtain ⟨delay, s₂, hdelay, h₂⟩ := exists_of_bind_ok h₁
  obtain ⟨rfl, hparse⟩ := ofError_ok hdelay
  exact ⟨delay, hparse, h₂⟩

theorem initTimer_puts {args : List Value} (h : initTimer o args s = .ok () s') :
    ∃ t delay n, s.world.timer? o = some t ∧
      parseDelay s.world.naming (args.getD 0 .undefined) = .ok delay ∧
      putTimer o { t with delay := delay, repeatCount := n } s = .ok () s' := by
  obtain ⟨delay, hparse, h₁⟩ := exists_delay h
  obtain ⟨n, s₁, hn, h₂⟩ := exists_of_bind_ok h₁
  obtain ⟨rfl, -⟩ := ofError_ok hn
  obtain ⟨t, s₂, hread, hput⟩ := exists_of_bind_ok h₂
  obtain ⟨rfl, ht⟩ := timerOf_ok hread
  exact ⟨t, delay, n, ht, hparse, hput⟩

theorem setTimerDelay_puts {args : List Value} (h : setTimerDelay o args s = .ok () s') :
    ∃ t delay, s.world.timer? o = some t ∧
      parseDelay s.world.naming (args.getD 0 .undefined) = .ok delay ∧
      putTimer o { t with delay := delay } s = .ok () s' := by
  obtain ⟨delay, hparse, h₁⟩ := exists_delay h
  obtain ⟨t, s₁, hread, hput⟩ := exists_of_bind_ok h₁
  obtain ⟨rfl, ht⟩ := timerOf_ok hread
  exact ⟨t, delay, ht, hparse, hput⟩

theorem initTimer_ok {args : List Value} (h : initTimer o args s = .ok () s') :
    s.world.Configures o s'.world := by
  obtain ⟨t, delay, n, ht, -, hput⟩ := initTimer_puts h
  exact configures_of_putTimer hput ht rfl

theorem setTimerDelay_ok {args : List Value} (h : setTimerDelay o args s = .ok () s') :
    s.world.Configures o s'.world := by
  obtain ⟨t, delay, ht, -, hput⟩ := setTimerDelay_puts h
  exact configures_of_putTimer hput ht rfl

end Run

end ScriptPlayer
