import ScriptPlayer.Proofs.Number.Quotient
import ScriptPlayer.Proofs.Player.Definitions
import ScriptPlayer.Proofs.Player.Histories

/-! Delays of timers. The delay of a timer is always a span of time: what the constructor or the
setter was given last, or the zero of a new timer. Whether the timer can be started is another
question, since a start needs a span in seconds, and those end at 2^64. -/
namespace ScriptPlayer

open Occurrence

theorem parseDelay_eq (naming : Naming) (v : Value) : parseDelay naming v =
    if v.toNumber.IsSpan then .ok v.toNumber else .error (.badDelay (v.toText naming)) := by
  unfold parseDelay
  dsimp only
  by_cases h : v.toNumber.IsSpan
  · rw [if_pos h, if_neg (by simp [h.finite, h.nonnegative])]
  · refine (if_pos ?_).trans (if_neg h).symm
    by_contra hsome
    rw [Bool.or_eq_true, Bool.not_eq_true', not_or, Bool.not_eq_false, Bool.not_eq_true] at hsome
    exact h ⟨hsome.1, hsome.2⟩

theorem isSpan_of_parseDelay {naming : Naming} {v : Value} {delay : Binary64}
    (h : parseDelay naming v = .ok delay) : delay.IsSpan := by
  rw [parseDelay_eq] at h
  split at h
  · rename_i hspan
    exact Except.ok.inj h ▸ hspan
  · cases h

namespace World

variable {w w' : World} {o : ObjectId} {t : TimerState}

theorem Retimes.timer?_eq {f : ObjectId → TimerState → TimerState} (h : w.Retimes f w')
    (ht : w.timer? o = some t) (hlive : (w'.instance? o).isSome) :
    w'.timer? o = some (f o t) := by
  obtain ⟨i, hi, hti⟩ := Option.bind_eq_some_iff.1 ht
  obtain ⟨j, hj⟩ := Option.isSome_iff_exists.1 hlive
  rcases h.timer o j hj with ⟨i', hi', hij⟩ | ⟨hlt, -⟩
  · obtain rfl := Option.some.inj (hi'.symm.trans hi)
    rw [hti] at hij
    exact Option.bind_eq_some_iff.2 ⟨j, hj, hij⟩
  · exact absurd (length_of_timer? ht) (Nat.not_lt.2 hlt)

end World

namespace Run

variable {s s' : State} {o : ObjectId} {t : TimerState}

/-! The built-ins, run on a timer -/

theorem timerOf_run (ht : s.world.timer? o = some t) : timerOf o s = .ok t s := by
  obtain ⟨i, hi, hti⟩ := Option.bind_eq_some_iff.1 ht
  have hstate : i.timerState s.world.classes = .ok t := by
    unfold Instance.timer? at hti
    unfold Instance.timerState Instance.payload
    split at hti
    · rename_i listeners timer hb
      rw [hb, hti]
      rfl
    · cases hti
  unfold timerOf
  rw [bind_of_ok (instanceOf_run hi), bind_of_ok (m := world) rfl, hstate]
  rfl

theorem isTimerRunning_run (ht : s.world.timer? o = some t) :
    isTimerRunning o s = .ok (t.run.any s.world.clockwork.isRunning) s := by
  unfold isTimerRunning
  rw [bind_of_ok (timerOf_run ht)]
  cases t.run <;> rfl

theorem putTimer_run (ht : s.world.timer? o = some t) (t' : TimerState) :
    ∃ w, putTimer o t' s = .ok () { s with world := w } ∧ w.minDelay = s.world.minDelay := by
  obtain ⟨i, hi, -⟩ := Option.bind_eq_some_iff.1 ht
  unfold putTimer
  rw [bind_of_ok (instanceOf_run hi)]
  exact ⟨_, rfl, (World.reframes_putInstance ..).minDelay⟩

theorem stopTimer_run (ht : s.world.timer? o = some t) :
    ∃ w, stopTimer o s = .ok () { s with world := w } ∧ w.minDelay = s.world.minDelay := by
  unfold stopTimer
  rw [bind_of_ok (timerOf_run ht)]
  cases t.run with
  | none => exact ⟨s.world, rfl, rfl⟩
  | some r =>
    obtain ⟨w, hput, hleast⟩ := putTimer_run ht { t with run := none }
    dsimp only
    rw [bind_of_ok hput]
    exact ⟨_, rfl, hleast⟩

theorem timer?_of_putTimer (hs : s.world.Sound) (ho : s.world.Holds (.object o))
    (ht : s.world.timer? o = some t) {t' : TimerState} (h : putTimer o t' s = .ok () s') :
    s'.world.timer? o = some t' := by
  obtain ⟨w, rfl, -, -, hretimes⟩ := putTimer_ok h ht
  obtain ⟨hsteps, hgains, -⟩ := (ends_putTimer o t').of_ok h
  obtain ⟨j, hj⟩ := (hsteps.sound hs).exists_instance (ho.gains hgains)
  rw [hretimes.timer?_eq ht (Option.isSome_iff_exists.2 ⟨j, hj⟩), TimerState.changeAt_self]

theorem requireArgs_run {name : String} {args : List Value} {least : Nat}
    (h : least ≤ args.length) : requireArgs name args least s = .ok () s := by
  unfold requireArgs
  rw [if_pos h]
  rfl

theorem setTimerDelay_run (hs : s.world.Sound) (ho : s.world.Holds (.object o))
    (ht : s.world.timer? o = some t) (v : Value) (rest : List Value) :
    if v.toNumber.IsSpan then ∃ s', setTimerDelay o (v :: rest) s = .ok () s' ∧
      s'.world.timer? o = some { t with delay := v.toNumber }
    else setTimerDelay o (v :: rest) s =
      .error (.error (.badDelay (v.toText s.world.naming))) s := by
  have hargs : requireArgs "Timer.delay" (v :: rest) 1 s = .ok () s := requireArgs_run (by simp)
  unfold setTimerDelay
  rw [bind_of_ok hargs, bind_of_ok (m := world) rfl, List.getD_cons_zero, parseDelay_eq]
  split
  · rw [bind_of_ok (m := ofError _) rfl, bind_of_ok (timerOf_run ht)]
    obtain ⟨w, hput, -⟩ := putTimer_run ht { t with delay := v.toNumber }
    exact ⟨_, hput, timer?_of_putTimer hs ho ht hput⟩
  · rfl

theorem initTimer_run (hs : s.world.Sound) (ho : s.world.Holds (.object o))
    (ht : s.world.timer? o = some t) (v : Value) {rest : List Value} {n : UInt32}
    (hn : parseRepeat (rest.getD 0 .undefined) = .ok n) :
    if v.toNumber.IsSpan then ∃ s', initTimer o (v :: rest) s = .ok () s' ∧
      s'.world.timer? o = some { t with delay := v.toNumber, repeatCount := n }
    else initTimer o (v :: rest) s =
      .error (.error (.badDelay (v.toText s.world.naming))) s := by
  have hargs : requireArgs "Timer" (v :: rest) 1 s = .ok () s := requireArgs_run (by simp)
  unfold initTimer
  rw [bind_of_ok hargs, bind_of_ok (m := world) rfl, List.getD_cons_zero, List.getD_cons_succ,
    parseDelay_eq, hn]
  split
  · rw [bind_of_ok (m := ofError _) rfl, bind_of_ok (m := ofError _) rfl,
      bind_of_ok (timerOf_run ht)]
    obtain ⟨w, hput, -⟩ := putTimer_run ht { t with delay := v.toNumber, repeatCount := n }
    exact ⟨_, hput, timer?_of_putTimer hs ho ht hput⟩
  · rfl

theorem timer?_of_stopTimer (hs : s.world.Sound) (ho : s.world.Holds (.object o))
    (ht : s.world.timer? o = some t) (h : stopTimer o s = .ok () s') :
    s'.world.timer? o = some { t with run := none } := by
  obtain ⟨-, t', hstop⟩ := stopTimer_ok h
  obtain ⟨hsteps, hgains, -⟩ := (ends_stopTimer hs o).of_ok h
  obtain ⟨j, hj⟩ := (hsteps.sound hs).exists_instance (ho.gains hgains)
  rw [hstop.retimes.timer?_eq ht (Option.isSome_iff_exists.2 ⟨j, hj⟩), TimerState.changeAt_self]

theorem startTimer_of_live (ht : s.world.timer? o = some t)
    (hlive : t.run.any s.world.clockwork.isRunning = true) : startTimer o s = .ok () s := by
  unfold startTimer
  rw [bind_of_ok (isTimerRunning_run ht), hlive]
  rfl

theorem startTimer_run (hs : s.world.Sound) (ho : s.world.Holds (.object o))
    (ht : s.world.timer? o = some t) (hidle : t.run.any s.world.clockwork.isRunning = false) :
    match Nanos.ofDelay? t.delay s.world.minDelay with
    | some delay => ∃ s', startTimer o s = .ok () s' ∧ s.world.Starts o t s'.world ∧
        s'.world.clockwork.run? s.world.clockwork.runs.length =
          some ⟨t.counter, delay, t.repeatCount, false, false, .queued⟩
    | none => ∃ s', startTimer o s = .error (.abort .durationRange) s' ∧
        s.world.Stops o t s'.world := by
  obtain ⟨w, hhalt, hleast⟩ := stopTimer_run ht
  have ht₁ := timer?_of_stopTimer hs ho ht hhalt
  obtain ⟨-, t', hstop⟩ := stopTimer_ok hhalt
  obtain rfl : t' = t := Option.some.inj (hstop.timer.symm.trans ht)
  have hstart : startTimer o s = _ := bind_of_ok (isTimerRunning_run ht) _
  rw [hidle, if_neg Bool.false_ne_true, bind_of_ok hhalt, bind_of_ok (timerOf_run ht₁),
    bind_of_ok (m := world) rfl] at hstart
  dsimp only at hstart
  rw [hleast] at hstart
  cases hdelay : Nanos.ofDelay? t'.delay s.world.minDelay with
  | none =>
    rw [hdelay] at hstart
    exact ⟨_, hstart, hstop⟩
  | some delay =>
    rw [hdelay] at hstart
    let s₁ : State := { s with world := { w with
      clockwork := (w.clockwork.newRun t'.counter delay t'.repeatCount).2 } }
    obtain ⟨w', hput, -⟩ :=
      putTimer_run (s := s₁) ht₁ { t' with run := some w.clockwork.runs.length }
    obtain ⟨_, heq, hclockwork, -⟩ := putTimer_ok hput (s := s₁) ht₁
    obtain rfl := congrArg State.world heq
    replace hstart := hstart.trans (bind_of_ok (m := updateWorld _) rfl _)
    replace hstart := hstart.trans (bind_of_ok hput _)
    have hlength : w.clockwork.runs.length = s.world.clockwork.runs.length := by
      rw [hstop.clockwork, Clockwork.length_runs_giveUp]
    have hrun : w'.clockwork.run? s.world.clockwork.runs.length =
        some ⟨t'.counter, delay, t'.repeatCount, false, false, .queued⟩ := by
      rw [hclockwork, ← hlength]
      exact List.getElem?_concat_length
    refine ⟨_, hstart, ?_, hrun⟩
    rcases startTimer_ok hstart with hsame | ⟨t, hstarts⟩
    · -- the run was not there before
      have hsame := congrArg (fun s' : State => s'.world.clockwork.runs.length) hsame
      have hlater := (List.getElem?_eq_some_iff.1 hrun).1
      exact absurd hlater (Nat.not_lt.2 (Nat.le_of_eq hsame))
    · exact Option.some.inj (hstarts.timer.symm.trans ht) ▸ hstarts

/-! What the constructor and the setter may store -/

theorem initTimer_stores {args : List Value} (h : initTimer o args s = .ok () s') :
    ∃ t', t'.delay.IsSpan ∧ s.world.Retimes (TimerState.changeAt o fun _ => t') s'.world := by
  obtain ⟨t, delay, n, ht, hparse, hput⟩ := initTimer_puts h
  obtain ⟨w, rfl, -, -, hretimes⟩ := putTimer_ok hput ht
  exact ⟨_, isSpan_of_parseDelay hparse, hretimes⟩

theorem setTimerDelay_stores {args : List Value} (h : setTimerDelay o args s = .ok () s') :
    ∃ t', t'.delay.IsSpan ∧ s.world.Retimes (TimerState.changeAt o fun _ => t') s'.world := by
  obtain ⟨t, delay, ht, hparse, hput⟩ := setTimerDelay_puts h
  obtain ⟨w, rfl, -, -, hretimes⟩ := putTimer_ok hput ht
  exact ⟨_, isSpan_of_parseDelay hparse, hretimes⟩

end Run

variable {l : List Occurrence} {m m' : Moment} {a : Occurrence} {o : ObjectId} {t : TimerState}

namespace World

/-- The delay of every timer is a span of time. -/
def Spanned (w : World) : Prop := ∀ o t, w.timer? o = some t → t.delay.IsSpan

theorem Spanned.retimes {w w' : World} {f : ObjectId → TimerState → TimerState} (h : w.Spanned)
    (hf : w.Retimes f w') (hkeep : ∀ o t, t.delay.IsSpan → (f o t).delay.IsSpan) : w'.Spanned := by
  intro o t ht
  obtain ⟨t₀, ht₀, rfl⟩ := hf.timer? ht
  exact hkeep o t₀ (h o t₀ ht₀)

theorem Spanned.changeAt {w w' : World} {g : TimerState → TimerState} (h : w.Spanned)
    (hf : w.Retimes (TimerState.changeAt o g) w')
    (hg : ∀ t, t.delay.IsSpan → (g t).delay.IsSpan) : w'.Spanned := by
  refine h.retimes hf fun p t ht => ?_
  unfold TimerState.changeAt
  split
  · exact hg t ht
  · exact ht

end World

theorem Happens.spanned (h : Happens m a m') (hw : m.world.Spanned) : m'.world.Spanned := by
  have hkept : ∀ {w : World}, m.world.KeepsTimers w → w.Spanned :=
    fun hkeep => hw.retimes hkeep fun _ _ => id
  cases h with
  | elsewhere h => exact hkept h.timers
  | create cls =>
    intro o t ht
    obtain ⟨j, hj, htimer⟩ := Option.bind_eq_some_iff.1 ht
    rcases World.instance?_spawn_timer hj with hj | ⟨-, hnew⟩
    · exact hw o t (Option.bind_eq_some_iff.2 ⟨j, hj, htimer⟩)
    · obtain rfl := Option.some.inj (hnew.symm.trans htimer)
      exact ⟨rfl, rfl⟩
  | init hs h =>
    obtain ⟨t', ht', hretimes⟩ := Run.initTimer_stores h
    exact hw.changeAt (hs ▸ hretimes) fun _ _ => ht'
  | setDelay hs h =>
    obtain ⟨t', ht', hretimes⟩ := Run.setTimerDelay_stores h
    exact hw.changeAt (hs ▸ hretimes) fun _ _ => ht'
  | start hs h hnew =>
    obtain ⟨-, -, t, hstarts⟩ := Happens.starts (.start hs h hnew)
    exact hw.changeAt hstarts.retimes fun _ => id
  | stop hs h =>
    obtain ⟨-, -, t, hstops⟩ := Happens.stops (.stop hs h)
    exact hw.changeAt hstops.retimes fun _ => id
  | reset hs h =>
    obtain ⟨-, -, t, hresets⟩ := Happens.resets (.reset hs h)
    exact hw.changeAt hresets.retimes fun _ => id
  | work => exact hkept (World.keepsTimers_of_heap rfl)
  | take hl hs h =>
    obtain ⟨rest, -, hafter⟩ := Run.takeEvent_ok h
    rw [hs] at hafter
    exact hkept (World.keepsTimers_of_heap (by rw [hafter]))
  | handle hl he hs h =>
    rcases Run.handle_ok h he with ⟨q, -, hafter⟩ | ⟨r, -, hafter⟩
    · rw [hs] at hafter
      exact hkept (World.keepsTimers_of_heap (by rw [hafter]))
    · rw [hs] at hafter
      exact hkept (hafter ▸ World.keepsTimers_of_fades (World.fades_putTargets _ _))
  | finish => exact hw
  | shutDown => exact hkept (World.keepsTimers_of_fades (World.fades_putTargets m.world []))
  | close => exact hkept (World.keepsTimers_of_heap rfl)

theorem History.spanned (h : History l m) : m.world.Spanned := by
  induction h with
  | fresh h =>
    intro o t ht
    rw [h.timers o] at ht
    cases ht
  | snoc _ hs ih => exact hs.spanned ih

/-- At every moment the delay of a timer is a span of time, and those are what its constructor and
its setter take. Its start does nothing to a live run; else it makes a run that waits for the delay
or the configured minimum, whichever is longer, as long as the delay is below 2^64 seconds. From
there on it aborts, after it has given up the last run. -/
theorem History.start_of_delay {s : State} {loop : Loop} (h : History l ⟨s.world, loop⟩)
    (hs : s.world.Sound) (ho : s.world.Holds (.object o)) (ht : s.world.timer? o = some t) :
    t.delay.IsSpan ∧
    (∀ (v : Value) (rest : List Value),
      if v.toNumber.IsSpan then ∃ s', Run.setTimerDelay o (v :: rest) s = .ok () s' ∧
        s'.world.timer? o = some { t with delay := v.toNumber }
      else Run.setTimerDelay o (v :: rest) s =
        .error (.error (.badDelay (v.toText s.world.naming))) s) ∧
    (∀ (v : Value) (rest : List Value) (n : UInt32),
      parseRepeat (rest.getD 0 .undefined) = .ok n →
      if v.toNumber.IsSpan then ∃ s', Run.initTimer o (v :: rest) s = .ok () s' ∧
        s'.world.timer? o = some { t with delay := v.toNumber, repeatCount := n }
      else Run.initTimer o (v :: rest) s =
        .error (.error (.badDelay (v.toText s.world.naming))) s) ∧
    if t.run.any s.world.clockwork.isRunning then Run.startTimer o s = .ok () s
    else if t.delay.quanta < 1000 * (UInt64.size * Binary64.one) then
      ∃ span s', Nanos.ofSeconds? (t.delay.div (.ofNat 1000)) = some span ∧
        Run.startTimer o s = .ok () s' ∧ s.world.Starts o t s'.world ∧
        s'.world.clockwork.run? s.world.clockwork.runs.length = some
          ⟨t.counter, max span s.world.minDelay, t.repeatCount, false, false, .queued⟩
    else ∃ s', Run.startTimer o s = .error (.abort .durationRange) s' ∧
      s.world.Stops o t s'.world := by
  have hspan := h.spanned o t ht
  refine ⟨hspan, Run.setTimerDelay_run hs ho ht,
    fun v rest n hn => Run.initTimer_run hs ho ht v hn, ?_⟩
  cases hlive : t.run.any s.world.clockwork.isRunning with
  | true => exact Run.startTimer_of_live ht hlive
  | false =>
    have hlimit := Binary64.ofSeconds?_thousandth hspan
    have hstart := Run.startTimer_run hs ho ht hlive
    rw [if_neg Bool.false_ne_true]
    unfold Nanos.ofDelay? at hstart
    cases hseconds : Nanos.ofSeconds? (t.delay.div (.ofNat 1000)) with
    | none =>
      rw [hseconds] at hstart
      rw [if_neg (Nat.not_lt.2 (hlimit.1 hseconds))]
      exact hstart
    | some span =>
      rw [hseconds] at hstart
      rw [if_pos (Nat.lt_of_not_le fun hle => by cases hseconds.symm.trans (hlimit.2 hle))]
      obtain ⟨s', hrun, hstarts, hnew⟩ := hstart
      exact ⟨span, s', rfl, hrun, hstarts, hnew⟩

def delayedTimer (delay : Binary64) : Session :=
  .ask (.perform .look) fun w =>
  .ask (.perform (.construct (w.runtime.elim 0 PlayerClasses.timer) none
    [.number delay, .int 1])) fun
  | .ok timer => .ask (.assign 0 (.object timer)) fun _ => .done
  | .error _ => .done

theorem History.start_of_delay_longest :
    let start : State := ⟨(World.ofOptions .defaults 1).withPlaces 1, [], 99, []⟩
    let longest : Binary64 := ⟨false, 1096, 0xF_3FFF_FFFF_FFFF⟩
    let s : State := { start.afterRun (Run.embed 3 (delayedTimer longest)) with
      budget := 0, interference := [] }
    s.Reachable ∧ s.world.Holds (.object 21) ∧ ∃ t, s.world.timer? 21 = some t ∧
      t.delay = longest ∧ t.run.any s.world.clockwork.isRunning = false ∧
      t.delay.quanta < 1000 * (UInt64.size * Binary64.one) ∧
      ∃ span s', Run.startTimer 21 s = .ok () s' ∧ s.world.Starts 21 t s'.world ∧
        s'.world.clockwork.run? s.world.clockwork.runs.length = some
          ⟨t.counter, max span s.world.minDelay, t.repeatCount, false, false, .queued⟩ := by
  intro start longest s
  have h : s.Reachable := .embed (.player .defaults 1 1 99 []) 3 (delayedTimer longest) 0 []
  have ho : s.world.Holds (.object 21) := by decide +kernel
  have hfacts : (s.world.timer? 21).any fun t => decide (t.delay = longest) &&
      !t.run.any s.world.clockwork.isRunning := by decide +kernel
  obtain ⟨t, ht, hfacts⟩ := (Option.any_eq_true _ _).1 hfacts
  rw [Bool.and_eq_true, decide_eq_true_iff, Bool.not_eq_true'] at hfacts
  obtain ⟨hdelay, hidle⟩ := hfacts
  have hbelow : t.delay.quanta < 1000 * (UInt64.size * Binary64.one) := by
    rw [hdelay]
    decide +kernel
  obtain ⟨l, hl⟩ := h.exists_history
  have hstart := (History.start_of_delay hl h.sound.1 ho ht).2.2.2
  rw [if_neg (by simp [hidle]), if_pos hbelow] at hstart
  obtain ⟨span, s', -, hrun, hstarts, hnew⟩ := hstart
  exact ⟨h, ho, t, ht, hdelay, hidle, hbelow, span, s', hrun, hstarts, hnew⟩

/-- The constructor takes 2^64 seconds, and the start of that timer aborts. -/
theorem startTimer_aborts_limit :
    let s : State := ⟨(World.ofOptions .defaults 1).withPlaces 1, [], 99, []⟩
    let limit : Binary64 := ⟨false, 1096, 0xF_4000_0000_0000⟩
    let make : Run (Except ScriptError ObjectId) := Run.perform (Run.callFunction 3)
      (.construct (s.world.runtime.elim 0 PlayerClasses.timer) none [.number limit, .int 1])
    s.Reachable ∧ limit.IsSpan ∧ ∃ o s₁ s₂, make s = .ok (.ok o) s₁ ∧
      Run.startTimer o s₁ = .error (.abort .durationRange) s₂ := by
  intro s limit make
  obtain ⟨s₁, hmake⟩ : ∃ s₁, make s = .ok (.ok 21) s₁ := Run.exists_of_gives (by decide +kernel)
  have hafter : s₁ = s.afterRun make := by rw [State.afterRun, hmake]
  obtain ⟨s₂, hstart⟩ : ∃ s₂, Run.startTimer 21 s₁ = .error (.abort .durationRange) s₂ := by
    rw [hafter]
    exact Run.exists_of_aborts (by decide +kernel)
  exact ⟨.player .defaults 1 1 99 [], by decide +kernel, 21, s₁, s₂, hmake, hstart⟩

end ScriptPlayer
