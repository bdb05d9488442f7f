import ScriptPlayer.Proofs.Run.Builtins
import ScriptPlayer.Proofs.Run.Changes

/-! What operations are made of, change by change: properties, new instances, events and timers. The
built-ins of timers are changes of their own. -/
namespace ScriptPlayer

open World

namespace Instance

variable {i j : Instance} {t : ClassTable} {key : Key}

theorem timer?_congr (h : j.backing = i.backing) : j.timer? = i.timer? := by
  unfold timer?
  rw [h]

theorem timer?_eq_none (h : ∀ p, i.backing ≠ .host p) : i.timer? = none := by
  unfold timer?
  split
  · rename_i hb
    exact absurd hb (h _)
  · rfl

theorem timer?_putBacking {b : Backing} (hi : ∀ p, i.backing ≠ .host p) (hb : ∀ p, b ≠ .host p) :
    Instance.timer? { i with backing := b } = i.timer? := by
  rw [timer?_eq_none hi, timer?_eq_none hb]

theorem timer?_of_write {v : Value} (h : i.write t key v = .ok (.stored j)) :
    j.timer? = i.timer? := by
  unfold write at h
  simp only at h
  split at h
  · split at h
    · rename_i d hd
      obtain rfl := Written.stored.inj (Except.ok.inj h)
      exact timer?_putBacking (by simp [hd]) (by simp)
    · split at h
      · cases h
      · obtain rfl := Written.stored.inj (Except.ok.inj h)
        exact timer?_congr rfl
  · split at h
    · rename_i b hb
      split at h
      · obtain rfl := Written.stored.inj (Except.ok.inj h)
        exact timer?_putBacking (by simp [hb]) (by simp)
      · cases h
    · cases h
  · split at h
    · rename_i d hd
      obtain rfl := Written.stored.inj (Except.ok.inj h)
      exact timer?_putBacking (by simp [hd]) (by simp)
    · cases h

theorem timer?_of_removeSlot {name : QName} (h : i.removeSlot t name = .ok (some j)) :
    j.timer? = i.timer? := by
  unfold removeSlot at h
  split at h
  · obtain rfl := Option.some.inj (Except.ok.inj h)
    exact timer?_congr rfl
  · split at h <;> cases h

theorem timer?_of_remove (h : i.remove t key = .ok (some j)) : j.timer? = i.timer? := by
  unfold remove at h
  simp only at h
  split at h
  · split at h
    · rename_i d hd
      split at h
      · obtain rfl := Option.some.inj (Except.ok.inj h)
        exact timer?_putBacking (by simp [hd]) (by simp)
      · exact timer?_of_removeSlot h
    · exact timer?_of_removeSlot h
  · split at h <;> cases h
  · split at h
    · rename_i d hd
      split at h
      · obtain rfl := Option.some.inj (Except.ok.inj h)
        exact timer?_putBacking (by simp [hd]) (by simp)
      · cases h
    · cases h

theorem timer?_setListeners (i : Instance) (l : Listeners) :
    (i.setListeners l).timer? = i.timer? := by
  unfold setListeners
  split
  · rename_i l' timer hb
    unfold timer?
    rw [hb]
  · rfl

end Instance

namespace Run

variable {R : Loop → World → World → Prop} [Cumulative R] {loop : Loop} {call : Caller} {s : State}
  {α β : Type}

theorem relates_putInstance {o : ObjectId} {i j : Instance} (hi : s.world.instance? o = some i)
    (hj : j.timer? = i.timer?) : Relates (R loop) (putInstance o j) s :=
  relates_modifyWorld (Cumulative.change (.put hi hj))

/-! Properties -/

def CallsRelate (R : World → World → Prop) (call : Caller) : Prop :=
  ∀ f this args s, Relates R (call f this args) s

theorem relates_found (hcall : CallsRelate (R loop) call) (o : ObjectId) (found : Found)
    (s : State) : Relates (R loop) (match found with
      | .value v => do hold v; return some v
      | .getter f => return some (← call f o [])
      | .absent => return none : Run (Option Value)) s := by
  cases found with
  | value v => exact (relates_hold v s).bind fun _ _ _ => relates_pure _ _
  | getter f => exact (hcall f o [] s).bind fun _ _ _ => relates_pure _ _
  | absent => exact relates_pure _ _

theorem relates_getDefault (hcall : CallsRelate (R loop) call) (o : ObjectId) (name : QName)
    (s : State) : Relates (R loop) (getDefault call o name) s := by
  apply relates_instanceOf_bind
  intro i hi
  apply relates_world_bind
  exact relates_found hcall o _ s

theorem relates_setGuard (o : ObjectId) (active : Bool) (s : State) :
    Relates (R loop) (setGuard o active) s := by
  apply relates_instanceOf_bind
  intro i hi
  split
  · rename_i b hb
    exact relates_putInstance hi (Instance.timer?_putBacking (by simp [hb]) (by simp))
  · exact relates_pure _ _

theorem relates_guarded {m : Run Value} (o : ObjectId) (hm : ∀ s, Relates (R loop) m s)
    (s : State) : Relates (R loop) (guarded o m) s := by
  apply (relates_setGuard o true s).bind
  intro _ s₁ _
  apply (hm _).framed.attempt.bind
  intro r s₂ _
  cases r with
  | ok v => exact (relates_setGuard o false s₂).bind fun _ _ _ => relates_pure _ _
  | error e => exact (relates_setGuard o false s₂).bind fun _ _ _ => relates_throw _ _

theorem relates_interceptGet (hcall : CallsRelate (R loop) call) (o : ObjectId) (key : Key)
    (s : State) : Relates (R loop) (interceptGet call o key) s := by
  apply relates_instanceOf_bind
  intro i hi
  split
  · apply (relates_getDefault hcall o overrideName s).bind
    intro r s₁ _
    split
    · apply relates_world_bind
      exact (relates_guarded o (hcall _ o _) s₁).bind fun _ _ _ => relates_pure _ _
    · exact relates_throw _ _
    · exact relates_pure _ _
  · exact relates_pure _ _

theorem relates_get (hcall : CallsRelate (R loop) call) (o : ObjectId) (key : Key) (s : State) :
    Relates (R loop) (get call o key) s := by
  apply (relates_interceptGet hcall o key s).bind
  intro r s₁ _
  cases r with
  | some v => exact relates_pure _ _
  | none =>
    apply relates_instanceOf_bind
    intro i hi
    apply relates_world_bind
    apply relates_ofHalt_bind
    intro found _
    exact relates_found hcall o found s₁

theorem relates_set (hcall : CallsRelate (R loop) call) (o : ObjectId) (key : Key) (v : Value)
    (s : State) : Relates (R loop) (set call o key v) s := by
  apply relates_instanceOf_bind
  intro i hi
  apply relates_world_bind
  apply relates_ofHalt_bind
  intro written hw
  cases written with
  | stored j => exact relates_putInstance hi (Instance.timer?_of_write hw)
  | setter f => exact (hcall f o [v] _).forEffect

theorem relates_delete (o : ObjectId) (key : Key) (s : State) :
    Relates (R loop) (delete o key) s := by
  apply relates_instanceOf_bind
  intro i hi
  apply relates_world_bind
  apply relates_ofHalt_bind
  intro removed hr
  cases removed with
  | some j =>
    exact (relates_putInstance hi (Instance.timer?_of_remove hr)).bind fun _ _ _ => relates_pure _ _
  | none => exact relates_pure _ _

theorem relates_callMethod (hcall : CallsRelate (R loop) call) (o : ObjectId) (name : QName)
    (args : List Value) (s : State) : Relates (R loop) (callMethod call o name args) s := by
  apply (relates_getDefault hcall o name s).bind
  intro r s₁ _
  split
  · exact hcall _ o args s₁
  · exact relates_throw _ _
  · apply relates_instanceOf_bind
    intro i _
    apply relates_world_bind
    exact relates_throw _ _

/-! New instances -/

theorem relates_instantiate (cls : ClassId) (backing : Option BackingSpec) (s : State) :
    Relates (R loop) (instantiate cls backing) s :=
  relates_updateWorld (Cumulative.change (.spawn cls _))

theorem relates_newFunction (name : String) (captured : List Value) (code : CodeRef) (s : State) :
    Relates (R loop) (newFunction name captured code) s :=
  relates_updateWorld (Cumulative.change (.newFunction _))

theorem relates_bind (o : ObjectId) (kind : TraitKind) (name : QName) (f : FunctionId) (s : State) :
    Relates (R loop) (bind o kind name f) s := by
  apply relates_instanceOf_bind
  intro i hi
  exact relates_putInstance hi (Instance.timer?_congr rfl)

theorem relates_trace (items : List Snapshot) (s : State) : Relates (R loop) (trace items) s := by
  have htrace : R loop s.world { s.world with trace := items :: s.world.trace } :=
    Cumulative.change (.trace items)
  exact htrace

theorem relates_hookStep (o : ObjectId) {again : Run Unit} (hagain : ∀ s, Relates (R loop) again s)
    (step : HookStep) (s : State) : Relates (R loop) (hookStep o again step) s := by
  cases step with
  | trace items => exact relates_trace items s
  | bind kind name source =>
    cases source with
    | shared f => exact relates_bind o kind name f s
    | fresh functionName code =>
      apply Relates.forEffect
      apply (relates_newFunction functionName [] code _).bind
      intro f s₁ _
      exact relates_bind o kind name f s₁
  | install => exact hagain s

theorem relates_installWith (o : ObjectId) {again : Run Unit}
    (hagain : ∀ s, Relates (R loop) again s) (s : State) :
    Relates (R loop) (installWith o again) s := by
  apply relates_instanceOf_bind
  intro i hi
  split
  · exact relates_pure _ _
  · refine (relates_putInstance hi ?_).bind fun _ s₁ _ => ?_
    · exact Instance.timer?_congr rfl
    apply relates_world_bind
    exact relates_forM (fun steps _ => relates_forM fun step _ => relates_hookStep o hagain step) s₁

theorem relates_installTraits (o : ObjectId) (s : State) : Relates (R loop) (installTraits o) s :=
  relates_installWith o (relates_installWith o (relates_pure _)) s

theorem relates_construct (hcall : CallsRelate (R loop) call) (cls : ClassId)
    (backing : Option BackingSpec) (args : List Value) (s : State) :
    Relates (R loop) (construct call cls backing args) s := by
  apply (relates_instantiate cls backing s).bind
  intro o s₁ _
  apply (relates_installTraits o s₁).bind
  intro _ s₂ _
  apply relates_world_bind
  split
  · exact (hcall _ o args _).forEffect.bind fun _ _ _ => relates_pure _ _
  · exact relates_pure _ _

theorem relates_newObject (s : State) : Relates (R loop) newObject s := by
  apply relates_world_bind
  apply (relates_instantiate _ none s).bind
  intro o s₁ _
  exact (relates_installTraits o s₁).bind fun _ _ _ => relates_pure _ _

theorem relates_registerClass (d : ClassDecl) (s : State) :
    Relates (R loop) (registerClass d) s := by
  apply relates_world_bind
  apply relates_ofFatal_bind
  rintro ⟨c, w⟩ hw
  exact (relates_modifyWorld (Cumulative.change (.registerClass hw))).bind
    fun _ _ _ => relates_pure _ _

/-! Events -/

theorem reads_listenersOf (o : ObjectId) : Reads (listenersOf o) :=
  (reads_instanceOf o).bind fun _ => reads_world.bind fun _ => reads_ofFatal _

theorem relates_updateListeners (o : ObjectId) (f : Listeners → α × Listeners) (s : State) :
    Relates (R loop) (updateListeners o f) s := by
  apply relates_reads_bind (reads_listenersOf o)
  intro l _
  apply relates_instanceOf_bind
  intro i hi
  exact (relates_putInstance hi (i.timer?_setListeners _)).bind fun _ _ _ => relates_pure _ _

theorem relates_addListener (o : ObjectId) (kind : String) (f : FunctionId) (s : State) :
    Relates (R loop) (addListener o kind f) s :=
  relates_updateListeners o (fun l => ((), l.add kind f)) s

theorem relates_removeListener (o : ObjectId) (kind : String) (f : FunctionId) (s : State) :
    Relates (R loop) (removeListener o kind f) s :=
  relates_updateListeners o (fun l => l.remove kind f) s

theorem reads_eventClass : Reads eventClass := by
  apply reads_world.bind
  intro w
  split
  · exact reads_pure _
  · exact reads_throw _

theorem relates_notify (hcall : CallsRelate (R loop) call) (target event : ObjectId)
    (listener : FunctionId) (s : State) : Relates (R loop) (notify call target event listener) s :=
  (hcall listener target [.object event] _).forEffect.attempt.discard

theorem relates_dispatch (hcall : CallsRelate (R loop) call) (target : ObjectId) (kind : String)
    (s : State) : Relates (R loop) (dispatch call target kind) s := by
  apply relates_reads_bind (reads_listenersOf target)
  intro l _
  dsimp only
  split
  · exact relates_pure _ _
  · apply (relates_forM (fun f _ => relates_hold (.function f)) s).bind
    intro _ s₁ _
    apply relates_reads_bind reads_eventClass
    intro cls _
    apply (relates_construct hcall cls none [.string kind] s₁).bind
    intro event s₂ _
    apply (relates_set hcall event (.pub "target") (.object target) s₂).bind
    intro _ s₃ _
    exact (relates_forM (fun f _ => relates_notify hcall target event f) s₃).bind
      fun _ _ _ => relates_pure _ _

/-! Timers -/

/-- A run that leaves the world alone when it fails. -/
def FailsInPlace (m : Run α) : Prop := ∀ s e s', m s = .error e s' → s' = s

theorem Reads.failsInPlace {m : Run α} (hm : Reads m) : FailsInPlace m := by
  intro s e s' h
  have hr := hm s
  rw [h] at hr
  exact hr

theorem Reads.bind_failsInPlace {m : Run α} {k : α → Run β} (hm : Reads m)
    (hk : ∀ a, FailsInPlace (k a)) : FailsInPlace (m >>= k) := by
  intro s e s' h
  rcases cases_of_bind_error h with h | ⟨a, s₁, hs, hrest⟩
  · exact hm.failsInPlace s e s' h
  · obtain rfl := hm.eq_of_ok hs
    exact hk a _ e s' hrest

theorem FailsInPlace.bind {m : Run α} {k : α → Run β} (hm : FailsInPlace m)
    (hk : ∀ a s, ∃ b s', k a s = .ok b s') : FailsInPlace (m >>= k) := by
  intro s e s' h
  rcases cases_of_bind_error h with h | ⟨a, s₁, -, hrest⟩
  · exact hm s e s' h
  · obtain ⟨b, s₂, hok⟩ := hk a s₁
    cases hok.symm.trans hrest

theorem relates_of_failsInPlace {m : Run α} (hm : FailsInPlace m)
    (h : ∀ a s', m s = .ok a s' → R loop s.world s'.world) : Relates (R loop) m s := by
  refine relates_of_ends h fun e s' hs => ?_
  obtain rfl := hm s e s' hs
  exact refl_of (R loop) _

theorem failsInPlace_putTimer (o : ObjectId) (t : TimerState) : FailsInPlace (putTimer o t) :=
  (reads_instanceOf o).bind_failsInPlace fun _ s e s' h => by cases h

theorem failsInPlace_stopTimer (o : ObjectId) : FailsInPlace (stopTimer o) := by
  refine (reads_timerOf o).bind_failsInPlace fun t => ?_
  cases t.run with
  | none => exact (reads_pure ()).failsInPlace
  | some r => exact (failsInPlace_putTimer o _).bind fun _ _ => ⟨_, _, rfl⟩

theorem relates_initTimer (o : ObjectId) (args : List Value) (s : State) :
    Relates (R loop) (initTimer o args) s := by
  refine relates_of_failsInPlace ?_ fun _ s' h =>
    Cumulative.change (.initTimer rfl h)
  refine (reads_requireArgs _ _ _).bind_failsInPlace fun _ => ?_
  refine reads_world.bind_failsInPlace fun _ => ?_
  refine (reads_ofError _).bind_failsInPlace fun _ => ?_
  refine (reads_ofError _).bind_failsInPlace fun _ => ?_
  exact (reads_timerOf o).bind_failsInPlace fun _ => failsInPlace_putTimer o _

theorem relates_setTimerDelay (o : ObjectId) (args : List Value) (s : State) :
    Relates (R loop) (setTimerDelay o args) s := by
  refine relates_of_failsInPlace ?_ fun _ s' h =>
    Cumulative.change (.setTimerDelay rfl h)
  refine (reads_requireArgs _ _ _).bind_failsInPlace fun _ => ?_
  refine reads_world.bind_failsInPlace fun _ => ?_
  refine (reads_ofError _).bind_failsInPlace fun _ => ?_
  exact (reads_timerOf o).bind_failsInPlace fun _ => failsInPlace_putTimer o _

theorem relates_stopTimer (o : ObjectId) (s : State) : Relates (R loop) (stopTimer o) s :=
  relates_of_failsInPlace (failsInPlace_stopTimer o) fun _ _ h =>
    Cumulative.change (.stopTimer rfl h)

theorem resetTimer_error {o : ObjectId} {e : Halt} {s' : State}
    (h : resetTimer o s = .error e s') : s' = s ∨ stopTimer o s = .ok () s' := by
  rcases cases_of_bind_error h with h | ⟨_, s₁, hstop, h₁⟩
  · exact Or.inl (failsInPlace_stopTimer o s e s' h)
  · rcases cases_of_bind_error h₁ with h₁ | ⟨t, s₂, -, h₂⟩
    · obtain rfl := (reads_timerOf o).failsInPlace s₁ e s' h₁
      exact Or.inr hstop
    · cases h₂

/-- Once a timer is stopped and its delay is known to be one, nothing can fail any more. -/
theorem startTimer_error {o : ObjectId} {e : Halt} {s' : State}
    (h : startTimer o s = .error e s') : s' = s ∨ stopTimer o s = .ok () s' := by
  rcases cases_of_bind_error h with h | ⟨b, s₁, hb, h₁⟩
  · exact Or.inl ((reads_isTimerRunning o).failsInPlace s e s' h)
  obtain rfl := (reads_isTimerRunning o).eq_of_ok hb
  cases b with
  | true => cases h₁
  | false =>
    rw [if_neg Bool.false_ne_true] at h₁
    rcases cases_of_bind_error h₁ with h₁ | ⟨_, s₂, hstop, h₂⟩
    · exact Or.inl (failsInPlace_stopTimer o s₁ e s' h₁)
    suffices hsame : s' = s₂ from Or.inr (hsame ▸ hstop)
    rcases cases_of_bind_error h₂ with h₂ | ⟨t, s₃, hread, h₃⟩
    · exact (reads_timerOf o).failsInPlace s₂ e s' h₂
    obtain ⟨rfl, ht⟩ := timerOf_ok hread
    obtain ⟨i, hi, -⟩ := Option.bind_eq_some_iff.1 ht
    rw [bind_of_ok (m := world) rfl] at h₃
    cases hd : Nanos.ofDelay? t.delay s₃.world.minDelay with
    | none =>
      rw [hd] at h₃
      exact (EStateM.Result.error.inj h₃).2.symm
    | some delay =>
      rw [hd] at h₃
      rcases cases_of_bind_error h₃ with h₃ | ⟨r, s₄, hnew, h₄⟩
      · cases h₃
      have hi₄ : s₄.world.instance? o = some i := by
        rw [← (EStateM.Result.ok.inj hnew).2]
        exact hi
      rcases cases_of_bind_error h₄ with h₄ | ⟨_, s₅, -, h₅⟩
      · unfold putTimer at h₄
        rw [bind_of_ok (instanceOf_run hi₄)] at h₄
        cases h₄
      · cases h₅

theorem relates_resetTimer (o : ObjectId) (s : State) : Relates (R loop) (resetTimer o) s := by
  refine relates_of_ends (fun _ s' h => Cumulative.change (.resetTimer rfl h)) fun e s' h => ?_
  rcases resetTimer_error h with rfl | hstop
  · exact refl_of (R loop) _
  · exact Cumulative.change (.stopTimer rfl hstop)

theorem relates_startTimer (o : ObjectId) (s : State) : Relates (R loop) (startTimer o) s := by
  refine relates_of_ends (fun _ s' h => Cumulative.change (.startTimer rfl h)) fun e s' h => ?_
  rcases startTimer_error h with rfl | hstop
  · exact refl_of (R loop) _
  · exact Cumulative.change (.stopTimer rfl hstop)

end Run

end ScriptPlayer
