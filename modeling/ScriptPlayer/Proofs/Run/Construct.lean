import ScriptPlayer.Proofs.Run.Property
import ScriptPlayer.Script.Construct

/-! Making instances goes through steps, whatever the hooks of the class chain bind. -/
namespace ScriptPlayer

open World

theorem ClassTable.mem_handles_of_hook {t : ClassTable} {c : ClassId} {steps : List HookStep}
    (hs : steps ∈ (t.chain c).reverse.filterMap Class.hook) {kind : TraitKind} {name : QName}
    {f : FunctionId} (hf : HookStep.bind kind name (.shared f) ∈ steps) :
    Value.function f ∈ t.handles := by
  obtain ⟨k, hk, hhook⟩ := List.mem_filterMap.1 hs
  obtain ⟨a, -, hget⟩ := List.mem_filterMap.1 (List.mem_reverse.1 hk)
  refine List.mem_flatMap.2 ⟨k, List.mem_of_getElem? hget, ?_⟩
  have : Value.function f ∈ (k.hook.getD []).flatMap HookStep.handles := by
    rw [hhook]
    exact List.mem_flatMap.2 ⟨_, hf, List.mem_singleton_self _⟩
  simp [Class.handles, this]

namespace World

variable {w w' : World}

theorem Later.handles_subset (h : w.Later w') {v : Value} (hv : v ∈ w.classes.handles) :
    v ∈ w'.classes.handles := by
  obtain ⟨k, hk, hv⟩ := List.mem_flatMap.1 hv
  exact List.mem_flatMap.2 ⟨k, h.classes.subset hk, hv⟩

theorem Sound.isValid_of_class (hs : w.Sound) {v : Value} (hv : v ∈ w.classes.handles) :
    w.isValid v := hs.isValid_of_mem_roots (by simp [roots, hv])

theorem frames_spawn {f : Frame} {rest : List Frame} (hf : w.frames = f :: rest) (cls : ClassId)
    (spec : BackingSpec) :
    (w.spawn cls spec).2.frames =
      { f with held := .object (w.spawn cls spec).1 :: f.held } :: rest := by
  have hf' : (w.newBacking spec).2.frames = f :: rest :=
    (sameOwners_newBacking w spec).frames.trans hf
  simp only [spawn, newInstance, hf']

theorem frames_newFunction {f : Frame} {rest : List Frame} (hf : w.frames = f :: rest)
    (fn : Function) :
    (w.newFunction fn).2.frames =
      { f with held := .function (w.newFunction fn).1 :: f.held } :: rest := by
  simp only [newFunction, hf]

end World

namespace Run

variable {call : Caller} {s : State}

theorem ends_instantiate (hs : s.world.Sound) {cls : ClassId} (hc : cls < s.world.classes.size)
    (backing : Option BackingSpec) :
    Ends Gains (instantiate cls backing) s fun o w => w.InHand (.object o) := by
  obtain ⟨f, rest, hf⟩ := hs.exists_frame
  have hframes := frames_spawn hf cls
    ((backing <|> s.world.classes.findBacking cls).getD .plain)
  refine ends_updateWorld (.newInstance _ hc) ?_ ⟨_, rest, hframes, List.mem_cons_self ..⟩
  have hg := Gains.more f.purpose f.held
    [.object (s.world.spawn cls ((backing <|> s.world.classes.findBacking cls).getD .plain)).1] rest
  rw [hf]
  exact hframes ▸ hg

theorem ends_newFunction (hs : s.world.Sound) (name : String) {captured : List Value}
    (hv : ∀ v ∈ captured, s.world.isValid v) (code : CodeRef) :
    Ends Gains (newFunction name captured code) s fun f w => w.InHand (.function f) := by
  obtain ⟨f, rest, hf⟩ := hs.exists_frame
  have hframes := frames_newFunction hf ⟨name, captured, code⟩
  refine ends_updateWorld (.newFunction hv) ?_ ⟨_, rest, hframes, List.mem_cons_self ..⟩
  have hg := Gains.more f.purpose f.held
    [.function (s.world.newFunction ⟨name, captured, code⟩).1] rest
  rw [hf]
  exact hframes ▸ hg

theorem ends_bind {o : ObjectId} {f : FunctionId} (hf : s.world.isValid (.function f))
    (kind : TraitKind) (name : QName) :
    Ends Gains (bind o kind name f) s fun _ _ => True := by
  apply ends_instanceOf_bind
  intro i hi
  refine (ends_update hi (.bind kind name f) fun v hv => ?_).imp fun _ _ _ _ _ => trivial
  exact List.mem_singleton.1 hv ▸ hf

theorem ends_trace (items : List Snapshot) : Ends Gains (trace items) s fun _ _ => True :=
  ends_modifyWorld (.background ⟨rfl, rfl, rfl, rfl, rfl, rfl, rfl⟩) (.same _) trivial

theorem ends_hookStep (hs : s.world.Sound) (o : ObjectId) {again : Run Unit}
    (hagain : Ends Gains again s fun _ _ => True) {step : HookStep}
    (hstep : ∀ kind name f, step = .bind kind name (.shared f) → s.world.isValid (.function f)) :
    Ends Gains (hookStep o again step) s fun _ _ => True := by
  cases step with
  | trace items => exact ends_trace items
  | bind kind name f =>
    cases f with
    | shared f => exact ends_bind (hstep kind name f rfl) kind name
    | fresh functionName code =>
      have hs' : (s.world.pushFrame .operation).Sound := (Step.push rfl).sound hs
      have hrun : Ends Gains (do
            let f ← newFunction functionName [] code
            bind o kind name f) { s with world := s.world.pushFrame .operation }
          fun _ _ => True :=
        (ends_newFunction hs' functionName (fun v hv => absurd hv List.not_mem_nil) code).bind hs'
          fun f s₁ _ hs₁ _ hf => ends_bind (hs₁.isValid_of_inHand hf) kind name
      exact (ends_forEffect hs (hrun.weaken fun _ _ => Gains.reheld)).imp
        fun _ _ _ _ _ => trivial
  | install => exact hagain

theorem ends_installWith (hs : s.world.Sound) (o : ObjectId) {again : Run Unit}
    (hagain : ∀ s', s'.world.Sound → Ends Gains again s' fun _ _ => True) :
    Ends Gains (installWith o again) s fun _ _ => True := by
  apply ends_instanceOf_bind
  intro i hi
  split
  · exact ends_pure trivial
  · apply (ends_update hi .install fun v hv => absurd hv List.not_mem_nil).bind hs
    intro _ s₁ _ hs₁ _ _
    apply ends_world_bind
    apply ends_forM (fun _ => True) hs₁ trivial
    intro steps hsteps s₂ hst₂ hs₂ _ _
    apply ends_forM (fun _ => True) hs₂ trivial
    intro step hstep s₃ hst₃ hs₃ _ _
    refine ends_hookStep hs₃ o (hagain s₃ hs₃) fun kind name f he => ?_
    have hmem := ClassTable.mem_handles_of_hook hsteps (he ▸ hstep)
    exact hs₃.isValid_of_class ((hst₂.trans hst₃).later.handles_subset hmem)

theorem ends_installTraits (hs : s.world.Sound) (o : ObjectId) :
    Ends Gains (installTraits o) s fun _ _ => True :=
  ends_installWith hs o fun _ hs' => ends_installWith hs' o fun _ _ => ends_pure trivial

def finish (call : Caller) (cls : ClassId) (o : ObjectId) (args : List Value) : Run ObjectId := do
  match (← world).classes.findConstructor cls with
  | some f => forEffect (call f o args)
  | none => pure ()
  return o

theorem construct_eq (call : Caller) (cls : ClassId) (backing : Option BackingSpec)
    (args : List Value) : construct call cls backing args = (do
      let o ← instantiate cls backing
      installTraits o
      finish call cls o args) := rfl

theorem ends_finish (hcall : Calls call) (hs : s.world.Sound) (hst : s.world.Staffed)
    (cls : ClassId) {o : ObjectId} (ho : s.world.InHand (.object o)) (args : List Value) :
    Ends Gains (finish call cls o args) s fun r w => r = o ∧ w.InHand (.object o) := by
  apply ends_world_bind
  split
  · rename_i f hf
    have hstep : Step s.world (s.world.pushFrame .operation) := .push rfl
    have hrun := hcall f o args { s with world := s.world.pushFrame .operation } (hstep.sound hs)
      (hstep.staffed hst)
    exact (ends_forEffect hs (hrun.weaken fun _ _ => Gains.reheld)).bind hs
      fun _ s₁ _ _ hg _ => ends_pure ⟨rfl, ho.gains hg⟩
  · exact ends_pure ⟨rfl, ho⟩

theorem ends_construct (hcall : Calls call) (hs : s.world.Sound) (hst : s.world.Staffed)
    {cls : ClassId} (hc : cls < s.world.classes.size) (backing : Option BackingSpec)
    (args : List Value) :
    Ends Gains (construct call cls backing args) s fun o w => w.InHand (.object o) := by
  rw [construct_eq]
  apply (ends_instantiate hs hc backing).bind hs
  intro o s₁ hst₁ hs₁ _ ho
  apply (ends_installTraits hs₁ o).bind hs₁
  intro _ s₂ hst₂ hs₂ hg₂ _
  refine (ends_finish hcall hs₂ (hst₂.staffed (hst₁.staffed hst)) cls (ho.gains hg₂) args).imp
    fun r w _ _ h => ?_
  rw [h.1]
  exact h.2

theorem ends_newObject (hs : s.world.Sound) (hst : s.world.Staffed) :
    Ends Gains newObject s fun o w => w.InHand (.object o) := by
  apply ends_world_bind
  apply (ends_instantiate hs hst.object none).bind hs
  intro o s₁ _ hs₁ _ ho
  apply (ends_installTraits hs₁ o).bind hs₁
  intro _ s₂ _ _ hg _
  exact ends_pure (ho.gains hg)

end Run

end ScriptPlayer
