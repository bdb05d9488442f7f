import ScriptPlayer.Proofs.Run.Access
import ScriptPlayer.Proofs.World.Litter

/-! Runs that leave no more than litter behind. Reads, guarded reads and constructions are such runs
as long as the functions that they call are; a write that raises an error has not changed anything
yet. -/
namespace ScriptPlayer.Run

open World

variable {α β : Type} {b : World} {s s' : State} {m : Run α} {Q Q' : α → World → Prop}

/-- Whether the run returns or raises an error, all that it leaves is litter. -/
def Tidy (b : World) (m : Run α) (s : State) (Q : α → World → Prop) : Prop :=
  ∀ fs, b.Litters fs s.world →
    match m s with
    | .ok a s' => b.Litters fs s'.world ∧ Q a s'.world
    | .error (.error _) s' => b.Litters fs s'.world
    | .error _ _ => True

def Stumbles (b : World) (m : Run α) (s : State) : Prop :=
  ∀ fs e s', b.Litters fs s.world → m s = .error (.error e) s' → b.Litters fs s'.world

theorem Tidy.of_ok {fs : List Frame} (h : Tidy b m s Q) (hl : b.Litters fs s.world) {a : α}
    (hm : m s = .ok a s') : b.Litters fs s'.world ∧ Q a s'.world := by
  have h := h fs hl
  rwa [hm] at h

theorem Tidy.of_error {fs : List Frame} (h : Tidy b m s Q) (hl : b.Litters fs s.world)
    {e : ScriptError} (hm : m s = .error (.error e) s') : b.Litters fs s'.world := by
  have h := h fs hl
  rwa [hm] at h

theorem Tidy.stumbles (h : Tidy b m s Q) : Stumbles b m s := fun _ _ _ hl => h.of_error hl

theorem Tidy.imp (h : Tidy b m s Q) (hQ : ∀ a w, Q a w → Q' a w) : Tidy b m s Q' := by
  intro fs hl
  cases hrun : m s with
  | ok a s₁ => exact (h.of_ok hl hrun).imp_right (hQ a s₁.world)
  | error e s₁ =>
    cases e with
    | error e => exact h.of_error hl hrun
    | abort f => trivial
    | exhausted => trivial

theorem tidy_given (h : ∀ fs, b.Litters fs s.world → Tidy b m s Q) : Tidy b m s Q :=
  fun fs hl => h fs hl fs hl

theorem tidy_pure {a : α} (h : Q a s.world) : Tidy b (pure a) s Q := fun _ hl => ⟨hl, h⟩

theorem tidy_throw (e : Halt) : Tidy b (throw e : Run α) s Q := by
  intro fs hl
  cases e with
  | error e => exact hl
  | abort f => trivial
  | exhausted => trivial

theorem Tidy.bind {k : α → Run β} {Q' : β → World → Prop} (hm : Tidy b m s Q)
    (hk : ∀ a s', m s = .ok a s' → Q a s'.world → Tidy b (k a) s' Q') :
    Tidy b (m >>= k) s Q' := by
  intro fs hl
  rw [bind_run]
  cases hrun : m s with
  | ok a s₁ =>
    obtain ⟨hl₁, hq⟩ := hm.of_ok hl hrun
    exact hk a s₁ hrun hq fs hl₁
  | error e s₁ =>
    cases e with
    | error e => exact hm.of_error hl hrun
    | abort f => trivial
    | exhausted => trivial

theorem Tidy.bind_stumbles {k : α → Run β} (hm : Tidy b m s Q)
    (hk : ∀ a s', Q a s'.world → Stumbles b (k a) s') : Stumbles b (m >>= k) s := by
  intro fs e s' hl h
  rcases cases_of_bind_error h with hrun | ⟨a, s₁, ha, hrun⟩
  · exact hm.of_error hl hrun
  · obtain ⟨hl₁, hq⟩ := hm.of_ok hl ha
    exact hk a s₁ hq fs e s' hl₁ hrun

theorem tidy_of_reads (hm : Reads m) (h : ∀ a, m s = .ok a s → Q a s.world) : Tidy b m s Q := by
  intro fs hl
  have hr := hm s
  cases hrun : m s with
  | ok a s₁ =>
    rw [hrun] at hr
    obtain rfl : s₁ = s := hr
    exact ⟨hl, h a hrun⟩
  | error e s₁ =>
    rw [hrun] at hr
    obtain rfl : s₁ = s := hr
    cases e with
    | error e => exact hl
    | abort f => trivial
    | exhausted => trivial

theorem Reads.tidy (hm : Reads m) (s : State) : Tidy b m s fun _ _ => True :=
  tidy_of_reads hm fun _ _ => trivial

theorem tidy_reads_bind {k : α → Run β} {Q' : β → World → Prop} (hm : Reads m)
    (hk : ∀ a, m s = .ok a s → Tidy b (k a) s Q') : Tidy b (m >>= k) s Q' := by
  refine (hm.tidy s).bind fun a s₁ ha _ => ?_
  obtain rfl := hm.eq_of_ok ha
  exact hk a ha

theorem tidy_world_bind {k : World → Run β} {Q' : β → World → Prop}
    (h : Tidy b (k s.world) s Q') : Tidy b (world >>= k) s Q' := h

theorem tidy_instanceOf_bind {o : ObjectId} {k : Instance → Run β} {Q' : β → World → Prop}
    (h : ∀ i, s.world.instance? o = some i → Tidy b (k i) s Q') :
    Tidy b (instanceOf o >>= k) s Q' := by
  refine tidy_reads_bind (reads_instanceOf o) fun i hi => h i ?_
  cases hw : s.world.instance? o with
  | none =>
    rw [instanceOf_dangling hw] at hi
    cases hi
  | some i' =>
    rw [instanceOf_run hw] at hi
    exact congrArg some (EStateM.Result.ok.inj hi).1

theorem tidy_modifyWorld {f : World → World} {Q : Unit → World → Prop}
    (h : ∀ fs, b.Litters fs s.world → b.Litters fs (f s.world) ∧ Q () (f s.world)) :
    Tidy b (modifyWorld f) s Q := h

theorem tidy_updateWorld {f : World → α × World}
    (h : ∀ fs, b.Litters fs s.world → b.Litters fs (f s.world).2 ∧ Q (f s.world).1 (f s.world).2) :
    Tidy b (updateWorld f) s Q := h

theorem Tidy.attempt (h : Tidy b m s Q) :
    Tidy b (attempt m) s fun r w => ∀ a, r = .ok a → Q a w := by
  intro fs hl
  unfold Run.attempt
  cases hrun : m s with
  | ok a s₁ =>
    obtain ⟨hl₁, hq⟩ := h.of_ok hl hrun
    exact ⟨hl₁, fun a' ha' => Except.ok.inj ha' ▸ hq⟩
  | error e s₁ =>
    cases e with
    | error e => exact ⟨h.of_error hl hrun, nofun⟩
    | abort f => trivial
    | exhausted => trivial

/-- The frame of a run gives up what the run has taken, but for what is kept. -/
theorem Tidy.framed {p : Purpose} {keep : α → List Value}
    (h : Tidy b m { s with world := s.world.pushFrame p } fun a w => ∀ v ∈ keep a, w.isValid v) :
    Tidy b (framed p keep m) s fun a w => ∀ v ∈ keep a, w.isValid v := by
  intro fs hl
  obtain ⟨f, hf⟩ := hl.frames
  have hpush := hl.pushFrame hf p
  unfold Run.framed
  cases hrun : m { s with world := s.world.pushFrame p } with
  | ok a s₁ =>
    obtain ⟨hl₁, hkeep⟩ := h.of_ok hpush hrun
    have hl₂ := hl₁.popFrame hkeep hl.above
    obtain ⟨g, hg⟩ := hl₁.frames
    refine ⟨hl₂, fun v hv => hl₂.isValid_of_mem_roots ?_⟩
    refine (World.roots_perm _).mem_iff.2 ?_
    rw [frames_popFrame hg]
    simp [hv]
  | error e s₁ =>
    cases e with
    | error e => exact (h.of_error hpush hrun).popFrame (by simp) hl.above
    | abort f => trivial
    | exhausted => trivial

theorem Tidy.forEffect (h : Tidy b m { s with world := s.world.pushFrame .operation } Q) :
    Tidy b (forEffect m) s fun _ _ => True := by
  have hdiscard : Tidy b (discard m) { s with world := s.world.pushFrame .operation } fun _ w =>
      ∀ v ∈ ([] : List Value), w.isValid v :=
    h.bind fun _ _ _ _ => tidy_pure fun v hv => absurd hv List.not_mem_nil
  exact hdiscard.framed.imp fun _ _ _ => trivial

theorem tidy_forM {l : List α} {f : α → Run Unit}
    (hf : ∀ a ∈ l, ∀ s, Tidy b (f a) s fun _ _ => True) (s : State) :
    Tidy b (l.forM f) s fun _ _ => True := by
  induction l generalizing s with
  | nil => exact tidy_pure trivial
  | cons a l ih =>
    change Tidy b (f a >>= fun _ => l.forM f) s _
    exact (hf a List.mem_cons_self s).bind fun _ s' _ _ =>
      ih (fun c hc => hf c (List.mem_cons_of_mem a hc)) s'

theorem tidy_hold (v : Value) (s : State) :
    Tidy b (hold v) s fun _ _ => True := by
  by_cases hv : s.world.isValid v
  · intro fs hl
    rw [hold_run hv]
    exact ⟨hl.hold hv, trivial⟩
  · intro fs hl
    have hrun : hold v s = .error (.abort (.dangling (v.cell?.getD 0))) s :=
      bind_of_error (requireValid_dangling hv) _
    rw [hrun]
    trivial

theorem tidy_pulse (s : State) : Tidy b pulse s fun _ _ => True := by
  intro fs hl
  unfold pulse
  cases s.budget with
  | zero => trivial
  | succ budget => exact ⟨hl.background (Background.moveAll _ _) (hl.drifts.moveAll _), trivial⟩

/-! Property access -/

def TidyCalls (b : World) (call : Caller) : Prop :=
  ∀ f this args s, Tidy b (call f this args) s fun v w => w.isValid v

variable {call : Caller}

theorem tidy_conclude (hcall : TidyCalls b call) (o : ObjectId) (found : Found) (s : State) :
    Tidy b (conclude call o found) s fun _ _ => True := by
  cases found with
  | value v => exact (tidy_hold v s).bind fun _ _ _ _ => tidy_pure trivial
  | getter f => exact (hcall f o [] s).bind fun _ _ _ _ => tidy_pure trivial
  | absent => exact tidy_pure trivial

theorem tidy_getDefault (hcall : TidyCalls b call) (o : ObjectId) (name : QName) (s : State) :
    Tidy b (getDefault call o name) s fun _ _ => True := by
  apply tidy_instanceOf_bind
  intro i _
  apply tidy_world_bind
  exact tidy_conclude hcall o _ s

theorem tidy_setGuard (o : ObjectId) (active : Bool) (s : State) :
    Tidy b (setGuard o active) s fun _ _ => True := by
  apply tidy_instanceOf_bind
  intro i hi
  split
  · rename_i before hb
    exact tidy_modifyWorld fun fs hl => ⟨hl.withGuard hi hb active, trivial⟩
  · exact tidy_pure trivial

theorem tidy_guarded {m : Run Value} (o : ObjectId)
    (hm : ∀ s, Tidy b m s fun v w => w.isValid v) (s : State) :
    Tidy b (guarded o m) s fun _ _ => True := by
  apply (tidy_setGuard o true s).bind
  intro _ s₁ _ _
  have hframed : Tidy b (framed (.override o) (fun v => [v]) m) s₁ fun v w =>
      ∀ u ∈ [v], w.isValid u :=
    ((hm _).imp fun v w hv u hu => List.mem_singleton.1 hu ▸ hv).framed
  apply hframed.attempt.bind
  intro r s₂ _ _
  cases r with
  | ok v => exact (tidy_setGuard o false s₂).bind fun _ _ _ _ => tidy_pure trivial
  | error e => exact (tidy_setGuard o false s₂).bind fun _ _ _ _ => tidy_throw _

theorem tidy_interceptGet (hcall : TidyCalls b call) (o : ObjectId) (key : Key) (s : State) :
    Tidy b (interceptGet call o key) s fun _ _ => True := by
  apply tidy_instanceOf_bind
  intro i _
  split
  · apply (tidy_getDefault hcall o overrideName s).bind
    intro r s₁ _ _
    split
    · apply tidy_world_bind
      exact (tidy_guarded o (hcall _ o _) s₁).bind fun _ _ _ _ => tidy_pure trivial
    · exact tidy_throw _
    · exact tidy_pure trivial
  · exact tidy_pure trivial

theorem tidy_get (hcall : TidyCalls b call) (o : ObjectId) (key : Key) (s : State) :
    Tidy b (get call o key) s fun _ _ => True := by
  apply (tidy_interceptGet hcall o key s).bind
  intro r s₁ _ _
  cases r with
  | some v => exact tidy_pure trivial
  | none =>
    apply tidy_instanceOf_bind
    intro i _
    apply tidy_world_bind
    apply ((reads_ofHalt _).tidy s₁).bind
    intro found s₂ _ _
    exact tidy_conclude hcall o found s₂

/-- What a write stores it stores at the end. -/
theorem stumbles_set (hcall : TidyCalls b call) (o : ObjectId) (key : Key) (v : Value)
    (s : State) : Stumbles b (set call o key v) s := by
  refine ((reads_instanceOf o).tidy s).bind_stumbles fun i s₁ _ => ?_
  refine (reads_world.tidy s₁).bind_stumbles fun w s₂ _ => ?_
  refine ((reads_ofHalt (i.write w.classes key v)).tidy s₂).bind_stumbles fun written s₃ _ => ?_
  cases written with
  | stored j => exact fun fs e s' _ h => nomatch h
  | setter f => exact (hcall f o [v] _).forEffect.stumbles

theorem tidy_callMethod (hcall : TidyCalls b call) (o : ObjectId) (name : QName)
    (args : List Value) (s : State) : Tidy b (callMethod call o name args) s fun _ _ => True := by
  apply (tidy_getDefault hcall o name s).bind
  intro r s₁ _ _
  split
  · exact (hcall _ o args s₁).imp fun _ _ _ => trivial
  · exact tidy_throw _
  · apply tidy_instanceOf_bind
    intro i _
    apply tidy_world_bind
    exact tidy_throw _

/-! New instances -/

theorem tidy_instantiate (cls : ClassId) (backing : Option BackingSpec) (s : State) :
    Tidy b (instantiate cls backing) s fun o _ => b.heap.cells.length ≤ o :=
  tidy_updateWorld fun _ hl => ⟨hl.spawn cls _, hl.le_spawn cls _⟩

theorem tidy_newFunction (name : String) (code : CodeRef) (s : State) :
    Tidy b (newFunction name [] code) s fun f w => w.isValid (.function f) := by
  refine tidy_updateWorld fun fs hl => ?_
  have hl' : b.Litters fs (s.world.newFunction ⟨name, [], code⟩).2 := hl.newFunction rfl
  obtain ⟨f, hf⟩ := hl.frames
  refine ⟨hl', hl'.isValid_of_mem_roots ((World.roots_perm _).mem_iff.2 ?_)⟩
  rw [frames_newFunction hf]
  simp

theorem tidy_bind {o : ObjectId} (ho : b.heap.cells.length ≤ o) (kind : TraitKind) (name : QName)
    {f : FunctionId} (hf : s.world.isValid (.function f)) :
    Tidy b (bind o kind name f) s fun _ _ => True := by
  apply tidy_instanceOf_bind
  intro i hi
  refine tidy_modifyWorld fun fs hl => ⟨?_, trivial⟩
  exact hl.update ho hi (.bind kind name f) (fun v hv => List.mem_singleton.1 hv ▸ hf) (by simp)

theorem tidy_hookStep {o : ObjectId} (ho : b.heap.cells.length ≤ o) {again : Run Unit}
    (hagain : ∀ s, Tidy b again s fun _ _ => True) {step : HookStep}
    (hstep : ∀ kind name f, step = .bind kind name (.shared f) →
      Value.function f ∈ b.classes.handles) (s : State) :
    Tidy b (hookStep o again step) s fun _ _ => True := by
  cases step with
  | trace items => exact fun fs hl => ⟨hl.trace items, trivial⟩
  | bind kind name source =>
    cases source with
    | shared f =>
      exact tidy_given fun fs hl => tidy_bind ho kind name
        (hl.isValid_of_class (hstep kind name f rfl))
    | fresh functionName code =>
      apply Tidy.forEffect
      apply (tidy_newFunction functionName code _).bind
      intro f s₁ _ hf
      exact tidy_bind ho kind name hf
  | install => exact hagain s

theorem tidy_installWith {o : ObjectId} (ho : b.heap.cells.length ≤ o) {again : Run Unit}
    (hagain : ∀ s, Tidy b again s fun _ _ => True) (s : State) :
    Tidy b (installWith o again) s fun _ _ => True := by
  apply tidy_instanceOf_bind
  intro i hi
  split
  · exact tidy_pure trivial
  · have hput : Tidy b (putInstance o { i with installed := true }) s fun _ _ => True :=
      tidy_modifyWorld fun fs hl => ⟨hl.update ho hi .install (by simp) (by simp), trivial⟩
    apply hput.bind
    intro _ s₁ _ _
    apply tidy_world_bind
    refine tidy_given fun fs hl => ?_
    rw [hl.fixtures.classes]
    refine tidy_forM (fun steps hsteps => tidy_forM fun step hstep => ?_) s₁
    exact tidy_hookStep ho hagain fun kind name f he =>
      ClassTable.mem_handles_of_hook hsteps (he ▸ hstep)

theorem tidy_installTraits {o : ObjectId} (ho : b.heap.cells.length ≤ o) (s : State) :
    Tidy b (installTraits o) s fun _ _ => True :=
  tidy_installWith ho (tidy_installWith ho fun _ => tidy_pure trivial) s

theorem tidy_construct (hcall : TidyCalls b call) (cls : ClassId) (backing : Option BackingSpec)
    (args : List Value) (s : State) :
    Tidy b (construct call cls backing args) s fun _ _ => True := by
  apply (tidy_instantiate cls backing s).bind
  intro o s₁ _ ho
  apply (tidy_installTraits ho s₁).bind
  intro _ s₂ _ _
  apply tidy_world_bind
  split
  · exact (hcall _ o args _).forEffect.bind fun _ _ _ _ => tidy_pure trivial
  · exact tidy_pure trivial

end ScriptPlayer.Run
