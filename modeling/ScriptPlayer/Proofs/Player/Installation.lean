import ScriptPlayer.Proofs.Player.Definitions
import ScriptPlayer.Proofs.Run.Slots

/-! Installing the traits of an instance: each hook of the class chain runs once, root first,
however often the installation is asked for and whoever asks, and the slots stay as they are. -/
namespace ScriptPlayer

open World Run

/-! The mark that an installation sets is never taken away. -/

theorem Instance.Becomes.installed {t : ClassTable} {i j : Instance} (h : i.Becomes t j)
    (hi : i.installed) : j.installed := by
  cases h with
  | guard active => exact hi
  | update h =>
    cases h with
    | install => rfl
    | _ => exact hi

theorem World.Steps.installed {w w' : World} (h : Steps w w') {o : ObjectId} {i j : Instance}
    (hi : w.instance? o = some i) (hj : w'.instance? o = some j) (hinstalled : i.installed) :
    j.installed := by
  induction h generalizing j with
  | refl =>
    obtain rfl := Option.some.inj (hi.symm.trans hj)
    exact hinstalled
  | tail hsteps hstep ih =>
    have hlt := Nat.lt_of_lt_of_le (lt_of_instance? hi) hsteps.later.length
    obtain ⟨k, hk, hbecomes⟩ := hstep.becomes hlt hj
    exact hbecomes.installed (ih hk)

def World.Marked (w : World) (o : ObjectId) : Prop :=
  ∃ k, w.instance? o = some k ∧ k.installed

/-! What the hooks report -/

def HookStep.reports : HookStep → List (List Snapshot)
  | trace items => [items]
  | _ => []

namespace Run

variable {α β γ : Type} {s s' : State} {o : ObjectId} {i k : Instance}

def Reports (m : Run α) (items : List (List Snapshot)) : Prop :=
  ∀ s a s', m s = .ok a s' → s'.world.trace = items.reverse ++ s.world.trace

theorem Reports.bind {m : Run α} {f : α → Run β} {items items' : List (List Snapshot)}
    (h : Reports m items) (h' : ∀ a, Reports (f a) items') :
    Reports (m >>= f) (items ++ items') := by
  intro s b s' hrun
  obtain ⟨a, s₁, hm, hf⟩ := exists_of_bind_ok hrun
  rw [h' a s₁ b s' hf, h s a s₁ hm, List.reverse_append, List.append_assoc]

theorem reports_pure (a : α) : Reports (pure a : Run α) [] := by
  rintro s a s' ⟨⟩
  rfl

theorem reports_forM {f : γ → Run Unit} {items : γ → List (List Snapshot)} {l : List γ}
    (h : ∀ a ∈ l, Reports (f a) (items a)) : Reports (l.forM f) (l.flatMap items) := by
  induction l with
  | nil => exact reports_pure ()
  | cons a l ih =>
    rw [List.flatMap_cons]
    exact (h a List.mem_cons_self).bind fun _ => ih fun b hb => h b (List.mem_cons_of_mem a hb)

theorem reports_instanceOf (o : ObjectId) : Reports (instanceOf o) [] := by
  intro s i s' hrun
  rw [(reads_instanceOf o).eq_of_ok hrun]
  rfl

theorem reports_putInstance (o : ObjectId) (j : Instance) : Reports (putInstance o j) [] := by
  rintro s a s' ⟨⟩
  change (s.world.putInstance o j).trace = s.world.trace
  unfold World.putInstance
  cases s.world.instance? o <;> rfl

theorem reports_newFunction (name : String) (captured : List Value) (code : CodeRef) :
    Reports (newFunction name captured code) [] := by
  rintro s a s' ⟨⟩
  change (s.world.newFunction ⟨name, captured, code⟩).2.trace = s.world.trace
  unfold World.newFunction
  cases s.world.frames <;> rfl

theorem Reports.forEffect {m : Run α} {items : List (List Snapshot)} (h : Reports m items) :
    Reports (forEffect m) items := by
  intro s a s' hrun
  have htrace : ∀ w : World, (w.popFrame []).trace = w.trace := fun w => by
    unfold World.popFrame
    split <;> rfl
  unfold Run.forEffect framed at hrun
  cases hm : discard m { s with world := s.world.pushFrame .operation } with
  | ok a' s₁ =>
    rw [hm] at hrun
    cases hrun
    obtain ⟨b, s₂, hb, hend⟩ := exists_of_bind_ok hm
    cases hend
    exact (htrace _).trans (h { s with world := s.world.pushFrame .operation } b _ hb)
  | error e s₁ =>
    rw [hm] at hrun
    cases e <;> cases hrun

theorem reports_bind (o : ObjectId) (kind : TraitKind) (name : QName) (f : FunctionId) :
    Reports (Run.bind o kind name f) [] :=
  (reports_instanceOf o).bind fun _ => reports_putInstance o _

theorem reports_hookStep (o : ObjectId) (step : HookStep) :
    Reports (hookStep o (pure ()) step) step.reports := by
  cases step with
  | trace items =>
    rintro s a s' ⟨⟩
    rfl
  | install => exact reports_pure ()
  | bind kind name f =>
    cases f with
    | shared f => exact reports_bind o kind name f
    | fresh functionName code =>
      exact Reports.forEffect
        ((reports_newFunction functionName [] code).bind fun g => reports_bind o kind name g)

/-! One pass over the hooks -/

/-- Mark the instance and run each hook once, root first. Asking for the installation once more does
nothing. -/
def hooksOnce (o : ObjectId) (i : Instance) (hooks : List (List HookStep)) : Run Unit := do
  putInstance o { i with installed := true }
  hooks.forM fun steps => steps.forM (hookStep o (pure ()))

theorem reports_hooksOnce (o : ObjectId) (i : Instance) (hooks : List (List HookStep)) :
    Reports (hooksOnce o i hooks) (hooks.flatMap fun steps => steps.flatMap HookStep.reports) :=
  (reports_putInstance o _).bind fun _ => reports_forM fun _ _ =>
    reports_forM fun step _ => reports_hookStep o step

theorem forM_congr {f g : γ → Run Unit} (P : World → Prop) {l : List γ} (hs : s.world.Sound)
    (hP : P s.world)
    (h : ∀ a ∈ l, ∀ s', Steps s.world s'.world → s'.world.Sound →
      Gains s.world.frames s'.world.frames → P s'.world →
      f a s' = g a s' ∧ Returns (f a) s' fun _ w => P w) : l.forM f s = l.forM g s := by
  induction l generalizing s with
  | nil => rfl
  | cons a l ih =>
    obtain ⟨heq, _, s₁, hrun, hsteps, hgains, hP₁⟩ :=
      h a List.mem_cons_self s (.refl _) hs (.same _) hP
    refine (bind_of_ok hrun fun _ => l.forM f).trans ?_
    refine Eq.trans ?_ (bind_of_ok (heq.symm.trans hrun) fun _ => l.forM g).symm
    exact ih (hsteps.sound hs) hP₁ fun b hb s' hsteps' hs' hgains' =>
      h b (List.mem_cons_of_mem a hb) s' (hsteps.trans hsteps') hs' (hgains.trans hgains')

theorem hookStep_marked (hi : s.world.instance? o = some i) (hinstalled : i.installed)
    (step : HookStep) :
    hookStep o (installWith o (pure ())) step s = hookStep o (pure ()) step s := by
  cases step with
  | install => exact installWith_of_installed hi hinstalled _
  | trace items => rfl
  | bind kind name f => cases f <;> rfl

theorem returns_hookStep_marked (hs : s.world.Sound) (ho : s.world.Holds (.object o))
    (hmarked : s.world.Marked o) {step : HookStep}
    (hstep : ∀ kind name f, step = .bind kind name (.shared f) → s.world.isValid (.function f)) :
    Returns (hookStep o (installWith o (pure ())) step) s fun _ w => w.Marked o := by
  obtain ⟨k, hk, hinstalled⟩ := hmarked
  have hequipped : k.Equipped s.world [] k := ⟨rfl, rfl, rfl, hinstalled, fun _ _ => rfl⟩
  refine (returns_hookStep hs ho hk hequipped hstep).imp fun _ w _ _ hw => ?_
  obtain ⟨j, hj, hequipped⟩ := hw
  exact ⟨j, hj, hequipped.installed⟩

/-- One hook, on an instance that is marked. It binds functions that it shares with its class. -/
theorem hook_marked (hs : s.world.Sound) (ho : s.world.Holds (.object o))
    (hmarked : s.world.Marked o) {steps : List HookStep}
    (hshared : ∀ kind name f, HookStep.bind kind name (.shared f) ∈ steps →
      Value.function f ∈ s.world.classes.handles) :
    steps.forM (hookStep o (installWith o (pure ()))) s = steps.forM (hookStep o (pure ())) s ∧
      Returns (steps.forM (hookStep o (installWith o (pure ())))) s fun _ w => w.Marked o := by
  have hround : ∀ step ∈ steps, ∀ s', Steps s.world s'.world → s'.world.Sound →
      Gains s.world.frames s'.world.frames → s'.world.Marked o →
      Returns (hookStep o (installWith o (pure ())) step) s' fun _ w => w.Marked o := by
    intro step hstep s' hsteps hs' hgains hm
    refine returns_hookStep_marked hs' (ho.gains hgains) hm fun kind name f he => ?_
    exact hs'.isValid_of_class
      (hsteps.later.handles_subset (hshared kind name f (he ▸ hstep)))
  constructor
  · refine forM_congr (·.Marked o) hs hmarked fun step hstep s' hsteps hs' hgains hm => ?_
    obtain ⟨k, hk, hinstalled⟩ := hm
    exact ⟨hookStep_marked hk hinstalled step,
      hround step hstep s' hsteps hs' hgains ⟨k, hk, hinstalled⟩⟩
  · refine returns_forM (fun _ w => w.Marked o) hs hmarked
      fun done step rest hsplit s' hsteps hs' hgains hm => ?_
    have hstep : step ∈ steps := hsplit ▸ List.mem_append_right done List.mem_cons_self
    exact hround step hstep s' hsteps hs' hgains hm

/-- An installation is one pass over the hooks, whatever they ask for. -/
theorem installTraits_once (hs : s.world.Sound) (ho : s.world.Holds (.object o))
    (hi : s.world.instance? o = some i) (hnew : i.installed = false) :
    installTraits o s = hooksOnce o i (s.world.classes.hooks i.cls) s := by
  obtain ⟨_, s₁, hmark, hsteps₁, hgains₁, hclasses, hmarked⟩ := returns_mark hs ho hi
  have hs₁ := hsteps₁.sound hs
  have hinstall : installTraits o s = ((s.world.classes.hooks i.cls).forM fun steps =>
      steps.forM (hookStep o (installWith o (pure ())))) s₁ := by
    unfold installTraits installWith
    rw [bind_of_ok (instanceOf_run hi), if_neg (by rw [hnew]; exact Bool.false_ne_true),
      bind_of_ok hmark, ← hclasses]
    rfl
  rw [hinstall, hooksOnce, bind_of_ok hmark]
  refine forM_congr (·.Marked o) hs₁ ⟨_, hmarked, rfl⟩
    fun steps hhook s₂ hsteps₂ hs₂ hgains₂ hm₂ => ?_
  refine hook_marked hs₂ (ho.gains (hgains₁.trans hgains₂)) hm₂ fun kind name f hf => ?_
  exact (hsteps₁.trans hsteps₂).later.handles_subset (ClassTable.mem_handles_of_hook hhook hf)

def repeated : Nat → Run Unit → Run Unit
  | 0, _ => pure ()
  | n + 1, m => do
    m
    repeated n m

/-- What does nothing the second time does nothing any more. -/
theorem repeated_of_settled {m : Run Unit} (h : m s = .ok () s') (h' : m s' = .ok () s') (n : Nat) :
    repeated (n + 1) m s = .ok () s' := by
  refine (bind_of_ok h _).trans ?_
  induction n with
  | zero => rfl
  | succ n ih => exact (bind_of_ok h' _).trans ih

end Run

/-- The traits of the instance `o` are installed at `s`, which makes of `i` what `k` is at `s₁`. -/
structure Installation (s : State) (o : ObjectId) (i : Instance) (s₁ : State) (k : Instance) :
    Prop where
  /-- However often it is asked for, it takes place once. -/
  repeated : ∀ n, repeated (n + 1) (installTraits o) s = .ok () s₁
  again : ∀ s' j, Steps s₁.world s'.world → s'.world.instance? o = some j →
    installTraits o s' = .ok () s'
  /-- Each hook of the chain runs once, root first, and what it reports is reported. -/
  once : installTraits o s = hooksOnce o i (s.world.classes.hooks i.cls) s
  reported : s₁.world.trace = ((s.world.classes.hooks i.cls).flatMap fun steps =>
    steps.flatMap HookStep.reports).reverse ++ s.world.trace
  found : s₁.world.instance? o = some k
  installed : k.installed
  cls : k.cls = i.cls
  backing : k.backing = i.backing
  /-- A bound getter, setter or method is the last one that was bound, in this order. -/
  members : ∀ kind name, s₁.world.Leaves (i.bound.member? kind name)
    (HookStep.lastBinding? kind name (s.world.classes.hooks i.cls).flatten)
    (k.bound.member? kind name)
  slots : k.slots = i.slots
  /-- A slot goes before whatever has been bound under its name, -/
  looksUp : ∀ call name v, i.slots.get? name = some v →
    getDefault call o name s₁ = .ok (some v) { s₁ with world := s₁.world.hold v }
  /-- but an override of a proxy goes before the slots. -/
  reads : ∀ call name v, i.slots.get? name = some v → k.Unintercepted s₁.world.classes →
    get call o (Key.ofQName name) s₁ = .ok (some v) { s₁ with world := s₁.world.hold v }

variable {s₀ s : State} {o : ObjectId} {i : Instance}

/-- Whatever its class chain has for hooks, an instance gets its traits once and keeps its slots. -/
theorem State.Reachable.installation (h : s₀.Reachable) (hmoment : Steps s₀.world s.world)
    (ho : s.world.Holds (.object o)) (hi : s.world.instance? o = some i)
    (hnew : i.installed = false) : ∃ s₁ k, Installation s o i s₁ k := by
  have hs := hmoment.sound h.sound.1
  obtain ⟨_, s₁, hrun, hsteps, -, k, hk, hequipped⟩ := returns_installTraits hs ho hi hnew
  have hs₁ := hsteps.sound hs
  have honce := installTraits_once hs ho hi hnew
  have hagain : ∀ s' j, Steps s₁.world s'.world → s'.world.instance? o = some j →
      installTraits o s' = .ok () s' := fun s' j hlater hj =>
    installWith_of_installed hj (hlater.installed hk hj hequipped.installed) _
  have hslot : ∀ name v, i.slots.get? name = some v → k.slots.get? name = some v :=
    fun name v hv => hequipped.slots.symm ▸ hv
  have hvalid : ∀ name v, i.slots.get? name = some v → s₁.world.isValid v := fun name v hv =>
    hs₁.isValid_of_mem_handles hk (Instance.mem_handles_of_slot (hslot name v hv))
  refine ⟨s₁, k, ?_⟩
  constructor
  case repeated => exact repeated_of_settled hrun (hagain s₁ k (.refl _) hk)
  case again => exact hagain
  case once => exact honce
  case reported => exact reports_hooksOnce o i _ s _ s₁ (honce ▸ hrun)
  case found => exact hk
  case installed => exact hequipped.installed
  case cls => exact hequipped.cls
  case backing => exact hequipped.backing
  case members => exact hequipped.members
  case slots => exact hequipped.slots
  case looksUp =>
    intro call name v hv
    rw [getDefault_run hk, Instance.lookup_of_slot (hslot name v hv)]
    exact conclude_value (hvalid name v hv)
  case reads =>
    intro call name v hv hint
    -- a dictionary has no slots
    have hd : ∀ d, k.backing ≠ .dictionary d := fun d hb => by
      have hwf := hs₁.wellFormed hk
      have hlookup := hslot name v hv
      rw [hwf.slots.get?_eq_lookup, hwf.slotless d hb] at hlookup
      cases hlookup
    rw [get_run hk hint, Instance.read_ofQName hd, Instance.lookup_of_slot (hslot name v hv)]
    exact conclude_value (hvalid name v hv)

def slotBeforeTraits : Session :=
  .ask (.enter fun _ _ _ => .done (.int 1)) fun body =>
  .ask (.perform .look) fun w =>
  .ask (.perform (.registerClass ⟨QName.pub "Base", some w.core.object, [], none,
    some [.trace [.string "Base"], .bind .getter (QName.pub "x") (.fresh "base" (.script body)),
      .install], none⟩)) fun base =>
  .ask (.perform (.registerClass ⟨QName.pub "Derived", some base, [], none,
    some [.install, .bind .getter (QName.pub "x") (.fresh "derived" (.script body)),
      .trace [.string "Derived"]], none⟩)) fun derived =>
  .ask (.perform (.instantiate derived none)) fun o =>
  .ask (.assign 0 (.object o)) fun _ =>
  .ask (.perform (.set o (Key.ofQName (QName.pub "x")) (.int 5))) fun _ => .done

theorem installation_slotBeforeTraits :
    let start : State := ⟨World.initial.withPlaces 1, [], 30, []⟩
    let s : State := { start.afterRun (embed 3 slotBeforeTraits) with
      budget := 9, interference := [] }
    s.Reachable ∧ s.world.Holds (.object 4) ∧
      (s.afterRun (installTraits 4)).world.trace = [[.string "Derived"], [.string "Base"]] ∧
      ∃ i s₁ k, s.world.instance? 4 = some i ∧ i.installed = false ∧
        i.slots.get? (QName.pub "x") = some (.int 5) ∧ Installation s 4 i s₁ k := by
  intro start s
  have h : s.Reachable := .embed (.core 1 30 []) 3 slotBeforeTraits 9 []
  have ho : s.world.Holds (.object 4) := by decide +kernel
  have hfacts : (s.world.instance? 4).any fun i => !i.installed &&
      i.slots.get? (QName.pub "x") == some (.int 5) := by decide +kernel
  obtain ⟨i, hi, hfacts⟩ := (Option.any_eq_true _ _).1 hfacts
  rw [Bool.and_eq_true, Bool.not_eq_true', beq_iff_eq] at hfacts
  obtain ⟨s₁, k, hinstallation⟩ :=
    State.Reachable.installation h (.refl _) ho hi hfacts.1
  exact ⟨h, ho, by decide +kernel, i, s₁, k, hi, hfacts.1, hfacts.2, hinstallation⟩

def slotBeforeOverride : Session :=
  .ask (.enter fun _ _ _ => .done (.int 42)) fun body =>
  .ask (.perform .look) fun w =>
  .ask (.perform (.registerClass ⟨QName.pub "P", some w.core.proxy, [], none,
    some [.bind .method overrideName (.fresh "override" (.script body))], none⟩)) fun cls =>
  .ask (.perform (.instantiate cls none)) fun o =>
  .ask (.assign 0 (.object o)) fun _ =>
  .ask (.perform (.set o (Key.ofQName (QName.pub "x")) (.int 5))) fun _ => .done

/-- The slot is read before the installation, and the override answers after it. -/
theorem interceptsSlot_slotBeforeOverride :
    let start : State := ⟨World.initial.withPlaces 1, [], 30, []⟩
    let s : State := { start.afterRun (embed 3 slotBeforeOverride) with
      budget := 9, interference := [] }
    let read : Run (Option Value) := get (callFunction 2) 4 (Key.ofQName (QName.pub "x"))
    s.Reachable ∧ s.world.Holds (.object 4) ∧
      (∃ i, s.world.instance? 4 = some i ∧ i.installed = false ∧
        i.slots.get? (QName.pub "x") = some (.int 5)) ∧
      (∃ s', read s = .ok (some (.int 5)) s') ∧
      (∃ s₁, installTraits 4 s = .ok () s₁) ∧
      ∃ s', read (s.afterRun (installTraits 4)) = .ok (some (.int 42)) s' := by
  intro start s read
  have h : s.Reachable := .embed (.core 1 30 []) 3 slotBeforeOverride 9 []
  have hfacts : (s.world.instance? 4).any fun i => !i.installed &&
      i.slots.get? (QName.pub "x") == some (.int 5) := by decide +kernel
  obtain ⟨i, hi, hfacts⟩ := (Option.any_eq_true _ _).1 hfacts
  rw [Bool.and_eq_true, Bool.not_eq_true', beq_iff_eq] at hfacts
  exact ⟨h, by decide +kernel, ⟨i, hi, hfacts.1, hfacts.2⟩, exists_of_gives (by decide +kernel),
    exists_of_gives (by decide +kernel), exists_of_gives (by decide +kernel)⟩

end ScriptPlayer
