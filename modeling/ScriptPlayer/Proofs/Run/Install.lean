import ScriptPlayer.Player.Session
import ScriptPlayer.Proofs.Run.Construct
import ScriptPlayer.Proofs.World.Members

/-! What the hooks of a class chain bind. They run root first, so for each kind of member under a
name the hook of the most derived class that binds it has the last word; slots and storage stay as
they were. An installation always comes to an end, also where a hook asks for it once more. -/
namespace ScriptPlayer

open World

namespace HookStep

def binding? (kind : TraitKind) (name : QName) : HookStep → Option HookFunction
  | bind kind' name' f => if name = name' ∧ kind = kind' then some f else none
  | _ => none

def lastBinding? (kind : TraitKind) (name : QName) (steps : List HookStep) : Option HookFunction :=
  steps.reverse.findSome? (binding? kind name)

theorem lastBinding?_append (kind : TraitKind) (name : QName) (l l' : List HookStep) :
    lastBinding? kind name (l ++ l') =
      (lastBinding? kind name l').or (lastBinding? kind name l) := by
  unfold lastBinding?
  rw [List.reverse_append, List.findSome?_append]

theorem lastBinding?_append_singleton (kind : TraitKind) (name : QName) (l : List HookStep)
    (step : HookStep) : lastBinding? kind name (l ++ [step]) =
      (step.binding? kind name).or (lastBinding? kind name l) := by
  rw [lastBinding?_append]
  congr 1
  unfold lastBinding?
  rw [List.reverse_singleton, List.findSome?_singleton]

end HookStep

/-- What the hook of a class binds as this member. -/
def Class.hookMember? (k : Class) (kind : TraitKind) (name : QName) : Option HookFunction :=
  HookStep.lastBinding? kind name (k.hook.getD [])

namespace ClassTable

def hookMember? (t : ClassTable) (c : ClassId) (kind : TraitKind) (name : QName) :
    Option HookFunction :=
  (t.chain c).findSome? fun k => k.hookMember? kind name

def hooks (t : ClassTable) (c : ClassId) : List (List HookStep) :=
  (t.chain c).reverse.filterMap Class.hook

/-- The hook that runs last is that of the most derived class. -/
theorem lastBinding?_hooks (t : ClassTable) (c : ClassId) (kind : TraitKind) (name : QName) :
    HookStep.lastBinding? kind name (t.hooks c).flatten = t.hookMember? c kind name := by
  unfold hooks hookMember?
  induction t.chain c with
  | nil => rfl
  | cons k l ih =>
    rw [List.reverse_cons, List.filterMap_append, List.flatten_append,
      HookStep.lastBinding?_append, ih, List.findSome?_cons]
    have hlast : HookStep.lastBinding? kind name ([k].filterMap Class.hook).flatten =
        k.hookMember? kind name := by
      unfold Class.hookMember?
      cases hk : k.hook with
      | none => simp [hk]
      | some steps => simp [hk]
    rw [hlast]
    cases k.hookMember? kind name <;> rfl

end ClassTable

/-- `f` is the function that a step of a hook binds: the one it holds, or one that was made from its
code. -/
def HookFunction.Serves (w : World) : HookFunction → FunctionId → Prop
  | shared g, f => f = g
  | fresh name code, f => w.heap.function? f = some ⟨name, [], code⟩

theorem World.Later.function? {w w' : World} (h : w.Later w') {f : FunctionId} {fn : Function}
    (hf : w.heap.function? f = some fn) (hv : w'.isValid (.function f)) :
    w'.heap.function? f = some fn := by
  obtain ⟨n, hc⟩ := Heap.content?_eq_some_iff.1 (Heap.function?_eq_some_iff.1 hf)
  obtain ⟨fn', hf'⟩ := Option.isSome_iff_exists.1 hv
  obtain ⟨x, hx, hsame⟩ :=
    h.content f _ (Heap.lt_of_get? hc) (Heap.function?_eq_some_iff.1 hf')
  obtain rfl := Option.some.inj ((Heap.function?_eq_some_iff.1 hf).symm.trans hx)
  cases hsame with
  | functionOf => exact hf'

theorem HookFunction.Serves.later {w w' : World} {hf : HookFunction} {f : FunctionId}
    (h : hf.Serves w f) (hl : w.Later w') (hv : w'.isValid (.function f)) : hf.Serves w' f := by
  cases hf with
  | shared g => exact h
  | fresh name code => exact hl.function? h hv

def World.Leaves (w : World) (before : Option FunctionId) :
    Option HookFunction → Option FunctionId → Prop
  | some f, after => ∃ g, after = some g ∧ f.Serves w g
  | none, after => after = before

theorem World.Leaves.later {w w' : World} {before after : Option FunctionId}
    {f : Option HookFunction} (h : w.Leaves before f after) (hl : w.Later w')
    (hv : ∀ g, after = some g → w'.isValid (.function g)) : w'.Leaves before f after := by
  cases f with
  | none => exact h
  | some f =>
    obtain ⟨g, hg, hserves⟩ := h
    exact ⟨g, hg, hserves.later hl (hv g hg)⟩

namespace Instance

/-- The instance `i` has become `j` by steps of hooks that have run on it. -/
structure Equipped (w : World) (i : Instance) (steps : List HookStep) (j : Instance) : Prop where
  cls : j.cls = i.cls
  slots : j.slots = i.slots
  backing : j.backing = i.backing
  installed : j.installed
  members : ∀ kind name, w.Leaves (i.bound.member? kind name)
    (HookStep.lastBinding? kind name steps) (j.bound.member? kind name)

variable {w w' : World} {o : ObjectId} {i j : Instance} {steps : List HookStep}

theorem equipped_nil (w : World) (i : Instance) :
    i.Equipped w [] { i with installed := true } where
  cls := rfl
  slots := rfl
  backing := rfl
  installed := rfl
  members _ _ := rfl

theorem isValid_of_member? (hs : w.Sound) (hj : w.instance? o = some j) {kind : TraitKind}
    {name : QName} {f : FunctionId} (h : j.bound.member? kind name = some f) :
    w.isValid (.function f) := by
  have hmem := TraitTable.mem_handles_of_member? h
  exact hs.isValid_of_mem_handles hj (by simp [handles, hmem])

theorem member?_bind (i : Instance) (kind : TraitKind) (name : QName) (f : FunctionId) :
    (i.bind kind name f).bound.member? kind name = some f :=
  (TraitTable.member?_define i.bound name name kind kind f).trans (if_pos ⟨rfl, rfl⟩)

theorem Equipped.later (h : i.Equipped w steps j) (hl : w.Later w') (hs : w'.Sound)
    (hj : w'.instance? o = some j) : i.Equipped w' steps j where
  cls := h.cls
  slots := h.slots
  backing := h.backing
  installed := h.installed
  members kind name := (h.members kind name).later hl fun _ => isValid_of_member? hs hj

theorem Equipped.idle (h : i.Equipped w steps j) {step : HookStep}
    (hstep : ∀ kind name, step.binding? kind name = none) :
    i.Equipped w (steps ++ [step]) j := by
  refine ⟨h.cls, h.slots, h.backing, h.installed, fun kind name => ?_⟩
  rw [HookStep.lastBinding?_append_singleton, hstep, Option.none_or]
  exact h.members kind name

theorem Equipped.bind (h : i.Equipped w steps j) (hl : w.Later w') (hs : w'.Sound)
    {kind : TraitKind} {name : QName} {f : HookFunction} {g : FunctionId}
    (hj : w'.instance? o = some (j.bind kind name g)) (hg : f.Serves w' g) :
    i.Equipped w' (steps ++ [.bind kind name f]) (j.bind kind name g) := by
  refine ⟨h.cls, h.slots, h.backing, h.installed, fun kind' name' => ?_⟩
  have hmember : (j.bind kind name g).bound.member? kind' name' =
      if name' = name ∧ kind' = kind then some g else j.bound.member? kind' name' :=
    TraitTable.member?_define j.bound name name' kind kind' g
  rw [HookStep.lastBinding?_append_singleton, HookStep.binding?]
  by_cases hsame : name' = name ∧ kind' = kind
  · rw [if_pos hsame, Option.some_or]
    exact ⟨g, hmember.trans (if_pos hsame), hg⟩
  · rw [if_neg hsame] at hmember
    rw [if_neg hsame, Option.none_or, hmember]
    exact (h.members kind' name').later hl fun _ hf => isValid_of_member? hs hj (hmember.trans hf)

end Instance

theorem World.instance?_spawn_self {w : World} (hs : w.Sound) (cls : ClassId)
    (spec : BackingSpec) : (w.spawn cls spec).1 = w.heap.cells.length ∧
      (w.spawn cls spec).2.instance? (w.spawn cls spec).1 =
        some (.fresh cls (w.newBacking spec).1) := by
  have hsame := sameOwners_newBacking w spec
  obtain ⟨f, rest, hf⟩ := hs.exists_frame
  have hf' := hsame.frames.trans hf
  have hid : (w.spawn cls spec).1 = (w.newBacking spec).2.heap.cells.length := by
    unfold spawn newInstance
    dsimp only
    rw [hf']
    exact Heap.length_cells_retainAll _ _
  have hcontent := content?_newInstance (i := .fresh cls (w.newBacking spec).1) hf'
  exact ⟨hid.trans (congrArg (fun h => h.cells.length) hsame.heap),
    Heap.instance?_eq_some_iff.2 ((hcontent _).trans (if_pos hid))⟩

namespace Run

variable {s : State} {o : ObjectId} {i j : Instance} {α : Type}

theorem returns_instanceOf_bind (hi : s.world.instance? o = some i) {k : Instance → Run α}
    {Q : α → World → Prop} (h : Returns (k i) s Q) : Returns (instanceOf o >>= k) s Q := by
  unfold Returns
  rw [bind_of_ok (instanceOf_run hi)]
  exact h

theorem returns_bind (hs : s.world.Sound) (ho : s.world.Holds (.object o))
    (hi : s.world.instance? o = some i) {f : FunctionId} (hf : s.world.isValid (.function f))
    (kind : TraitKind) (name : QName) : Returns (bind o kind name f) s fun _ w =>
      w.instance? o = some (i.bind kind name f) := by
  have hrun : bind o kind name f s =
      .ok () { s with world := s.world.putInstance o (i.bind kind name f) } :=
    bind_of_ok (instanceOf_run hi) _
  obtain ⟨a, s', hok, hsteps, hg, hw, -⟩ := (ends_bind hf kind name).returns hrun
  refine ⟨a, s', hok, hsteps, hg, ?_⟩
  obtain ⟨j, hj⟩ := (hsteps.sound hs).exists_instance (ho.gains hg)
  have hput := instance?_putInstance hi (i.bind kind name f) (hw ▸ hj)
  rw [if_pos rfl] at hput
  exact hput ▸ hj

theorem returns_newFunction (hs : s.world.Sound) (hi : s.world.instance? o = some i)
    (name : String) (code : CodeRef) : Returns (newFunction name [] code) s fun f w =>
      w.InHand (.function f) ∧ w.heap.function? f = some ⟨name, [], code⟩ ∧
        w.instance? o = some i := by
  have hnone : ∀ v ∈ ([] : List Value), s.world.isValid v :=
    fun v hv => absurd hv List.not_mem_nil
  obtain ⟨f, rest, hf⟩ := hs.exists_frame
  have hcontent : ∀ id, (s.world.newFunction ⟨name, [], code⟩).2.heap.content? id = _ :=
    content?_newFunction hf
  have hid : (s.world.newFunction ⟨name, [], code⟩).1 = s.world.heap.cells.length := by
    unfold World.newFunction
    rw [hf]
    exact Heap.length_cells_retainAll _ _
  obtain ⟨hsteps, hgains, hhand⟩ := (ends_newFunction hs name hnone code).of_ok rfl
  refine ⟨_, _, rfl, hsteps, hgains, hhand, Heap.function?_eq_some_iff.2 ?_,
    Heap.instance?_eq_some_iff.2 ?_⟩
  · exact (hcontent _).trans (if_pos hid)
  · exact ((hcontent o).trans (if_neg (Nat.ne_of_lt (lt_of_instance? hi)))).trans
      (Heap.instance?_eq_some_iff.1 hi)

theorem returns_bindNew (hs : s.world.Sound) (ho : s.world.Holds (.object o))
    (hi : s.world.instance? o = some i) (kind : TraitKind) (name : QName) (functionName : String)
    (code : CodeRef) :
    Returns (do
        let f ← newFunction functionName [] code
        bind o kind name f) s
      fun _ w => ∃ g, w.instance? o = some (i.bind kind name g) ∧
        (HookFunction.fresh functionName code).Serves w g := by
  apply (returns_newFunction hs hi functionName code).bind hs
  intro g s₁ hsteps₁ hs₁ hgains₁ hnew
  refine (returns_bind hs₁ (ho.gains hgains₁) hnew.2.2 (hs₁.isValid_of_inHand hnew.1) kind name).imp
    fun _ w hsteps _ hk => ?_
  have hvalid := Instance.isValid_of_member? (hsteps.sound hs₁) hk (i.member?_bind kind name g)
  exact ⟨g, hk, hsteps.later.function? hnew.2.1 hvalid⟩

theorem Returns.forEffect {m : Run α} {Q : α → World → Prop} (hs : s.world.Sound)
    (h : Returns m { s with world := s.world.pushFrame .operation } Q) :
    Returns (forEffect m) s fun _ w => ∃ a w', Q a w' ∧ w = w'.popFrame [] := by
  obtain ⟨a, s', hok, hsteps, hg, hq⟩ := h
  have hends : Ends Reheld m { s with world := s.world.pushFrame .operation } fun _ _ => True := by
    unfold Ends
    rw [hok]
    exact ⟨hsteps, hg.reheld, trivial⟩
  have hdiscard : discard m { s with world := s.world.pushFrame .operation } = .ok () s' :=
    bind_of_ok hok _
  have hrun : Run.forEffect m s = .ok () { s' with world := s'.world.popFrame [] } := by
    unfold Run.forEffect framed
    rw [hdiscard]
  exact ((ends_forEffect hs hends).returns hrun).imp fun _ w _ _ hw =>
    ⟨a, s'.world, hq, hw.1⟩

/-- An instance that is marked is left alone. -/
theorem installWith_of_installed (hi : s.world.instance? o = some i) (hinstalled : i.installed)
    (again : Run Unit) : installWith o again s = .ok () s := by
  unfold installWith
  rw [bind_of_ok (instanceOf_run hi), if_pos hinstalled]
  rfl

theorem returns_again (hi : s.world.instance? o = some i) (hinstalled : i.installed) :
    Returns (installWith o (pure ())) s fun _ w => w = s.world :=
  ⟨(), s, installWith_of_installed hi hinstalled _, .refl _, .same _, rfl⟩

theorem returns_hookStep (hs : s.world.Sound) (ho : s.world.Holds (.object o))
    (hj : s.world.instance? o = some j) {done : List HookStep}
    (h : i.Equipped s.world done j) {step : HookStep}
    (hstep : ∀ kind name f, step = .bind kind name (.shared f) → s.world.isValid (.function f)) :
    Returns (hookStep o (installWith o (pure ())) step) s fun _ w =>
      ∃ k, w.instance? o = some k ∧ i.Equipped w (done ++ [step]) k := by
  cases step with
  | trace items =>
    refine ((ends_trace items).returns rfl).imp fun _ w hsteps _ hw => ?_
    have hk : w.instance? o = some j := by
      rw [hw.1]
      exact hj
    exact ⟨j, hk, (h.later hsteps.later (hsteps.sound hs) hk).idle fun _ _ => rfl⟩
  | install =>
    refine (returns_again hj h.installed).imp fun _ w _ _ hw => ?_
    rw [hw]
    exact ⟨j, hj, h.idle fun _ _ => rfl⟩
  | bind kind name f =>
    cases f with
    | shared f =>
      refine (returns_bind hs ho hj (hstep kind name f rfl) kind name).imp
        fun _ w hsteps _ hk => ?_
      exact ⟨_, hk, h.bind hsteps.later (hsteps.sound hs) hk rfl⟩
    | fresh functionName code =>
      have hs₁ : (s.world.pushFrame .operation).Sound := (Step.push rfl).sound hs
      have ho₁ : (s.world.pushFrame .operation).Holds (.object o) := by
        obtain ⟨f, hf, hheld⟩ := ho
        exact ⟨f, List.mem_cons_of_mem _ hf, hheld⟩
      have hrun := (returns_bindNew (s := { s with world := s.world.pushFrame .operation })
        hs₁ ho₁ hj kind name functionName code).forEffect hs
      refine hrun.imp fun _ w hsteps hgains hw => ?_
      obtain ⟨_, w', ⟨g, hk', hg⟩, rfl⟩ := hw
      -- the frame that closes held the new function, but the instance has it now
      have hs' := hsteps.sound hs
      have hfades := fades_popFrame w' []
      obtain ⟨k, hk⟩ := hs'.exists_instance (ho.gains hgains)
      obtain rfl := Option.some.inj (hk'.symm.trans (hfades.instance? hk))
      have hlater := later_of_fades hfades (reframes_popFrame w' []).classes
      have hvalid := Instance.isValid_of_member? hs' hk (j.member?_bind kind name g)
      have hserves := hg.later hlater hvalid
      exact ⟨_, hk, h.bind hsteps.later hs' hk hserves⟩

theorem returns_hooks (hs : s.world.Sound) (ho : s.world.Holds (.object o))
    (hj : s.world.instance? o = some j) (h : i.Equipped s.world [] j)
    {hooks : List (List HookStep)}
    (hshared : ∀ steps ∈ hooks, ∀ kind name f, HookStep.bind kind name (.shared f) ∈ steps →
      Value.function f ∈ s.world.classes.handles) :
    Returns (hooks.forM fun steps => steps.forM (hookStep o (installWith o (pure ())))) s
      fun _ w => ∃ k, w.instance? o = some k ∧ i.Equipped w hooks.flatten k := by
  apply returns_forM
    (fun done w => ∃ k, w.instance? o = some k ∧ i.Equipped w done.flatten k) hs ⟨j, hj, h⟩
  intro done steps rest hhooks s₁ hsteps₁ hs₁ hgains₁ hdone
  rw [List.flatten_append, List.flatten_singleton]
  apply returns_forM
    (fun part w => ∃ k, w.instance? o = some k ∧ i.Equipped w (done.flatten ++ part) k) hs₁
  · rwa [List.append_nil]
  intro part step rest' hpart s₂ hsteps₂ hs₂ hgains₂ ⟨k, hk, hequipped⟩
  rw [← List.append_assoc]
  refine returns_hookStep hs₂ (ho.gains (hgains₁.trans hgains₂)) hk hequipped ?_
  rintro kind name f rfl
  have hmem : HookStep.bind kind name (.shared f) ∈ steps := by
    rw [hpart]
    exact List.mem_append_right part (List.mem_cons_self ..)
  have hhook : steps ∈ hooks := by
    rw [hhooks]
    exact List.mem_append_right done (List.mem_cons_self ..)
  exact hs₂.isValid_of_class
    ((hsteps₁.trans hsteps₂).later.handles_subset (hshared steps hhook kind name f hmem))

theorem returns_mark (hs : s.world.Sound) (ho : s.world.Holds (.object o))
    (hi : s.world.instance? o = some i) :
    Returns (putInstance o { i with installed := true }) s fun _ w =>
      w.classes = s.world.classes ∧ w.instance? o = some { i with installed := true } := by
  obtain ⟨hsteps, hgains, -⟩ := (ends_update hi .install fun v hv =>
    absurd hv List.not_mem_nil).of_ok (s := s) rfl
  refine ⟨(), _, rfl, hsteps, hgains, (reframes_putInstance s.world o _).classes, ?_⟩
  obtain ⟨j, hj⟩ := (hsteps.sound hs).exists_instance (ho.gains hgains)
  have hput := instance?_putInstance hi { i with installed := true } hj
  rw [if_pos rfl] at hput
  exact hput ▸ hj

theorem returns_installTraits (hs : s.world.Sound) (ho : s.world.Holds (.object o))
    (hi : s.world.instance? o = some i) (hnew : i.installed = false) :
    Returns (installTraits o) s fun _ w => ∃ j, w.instance? o = some j ∧
      i.Equipped w (s.world.classes.hooks i.cls).flatten j := by
  unfold installTraits installWith
  apply returns_instanceOf_bind hi
  rw [if_neg (by rw [hnew]; exact Bool.false_ne_true)]
  apply (returns_mark hs ho hi).bind hs
  intro _ s₁ hsteps₁ hs₁ hgains₁ ⟨hclasses, hmarked⟩
  apply returns_world_bind
  rw [hclasses]
  refine returns_hooks hs₁ (ho.gains hgains₁) hmarked (Instance.equipped_nil s₁.world i)
    fun steps hsteps kind name f hf => ?_
  rw [hclasses]
  exact ClassTable.mem_handles_of_hook hsteps hf

theorem returns_instantiate (hs : s.world.Sound) {cls : ClassId}
    (hc : cls < s.world.classes.size) (backing : Option BackingSpec) :
    Returns (instantiate cls backing) s fun o w => o = s.world.heap.cells.length ∧
      w.InHand (.object o) ∧ w.classes = s.world.classes ∧
      ∃ storage, w.instance? o = some (.fresh cls storage) := by
  have hspawn := instance?_spawn_self hs cls
    ((backing <|> s.world.classes.findBacking cls).getD .plain)
  obtain ⟨hsteps, hgains, hhand⟩ := (ends_instantiate hs hc backing).of_ok rfl
  exact ⟨_, _, rfl, hsteps, hgains, hspawn.1, hhand, (sameClasses_spawn s.world cls _).classes,
    _, hspawn.2⟩

structure Constructs (call : Caller) (cls : ClassId) (backing : Option BackingSpec)
    (args : List Value) (s : State) (o : ObjectId) (s₁ : State) (i : Instance) : Prop where
  place : o = s.world.heap.cells.length
  found : s₁.world.instance? o = some i
  cls_eq : i.cls = cls
  slots : i.slots = .empty
  members : ∀ kind name, s₁.world.Leaves none (s.world.classes.hookMember? cls kind name)
    (i.bound.member? kind name)
  run : construct call cls backing args s = finish call cls o args s₁
  before : Steps s.world s₁.world
  rest : Steps s₁.world (s.afterRun (construct call cls backing args)).world

theorem exists_constructs {call : Caller} (hcall : Calls call) (hs : s.world.Sound)
    (hst : s.world.Staffed) {cls : ClassId} (hc : cls < s.world.classes.size)
    (backing : Option BackingSpec) (args : List Value) :
    ∃ o s₁ i, Constructs call cls backing args s o s₁ i := by
  obtain ⟨o, s₁, hrun₁, hsteps₁, hgains₁, hnew, hhand, hclasses, storage, hfresh⟩ :=
    returns_instantiate hs hc backing
  have hs₁ := hsteps₁.sound hs
  obtain ⟨_, s₂, hrun₂, hsteps₂, hgains₂, i, hi, hequipped⟩ :=
    returns_installTraits hs₁ hhand.holds hfresh rfl
  rw [hclasses] at hequipped
  have hsteps := hsteps₁.trans hsteps₂
  have hrun : construct call cls backing args s = finish call cls o args s₂ := by
    rw [construct_eq]
    exact (bind_of_ok hrun₁ _).trans (bind_of_ok hrun₂ _)
  have hends := ends_finish hcall (hsteps.sound hs) (hsteps.staffed hst) cls
    (hhand.gains hgains₂) args
  refine ⟨o, s₂, i, hnew, hi, hequipped.cls, hequipped.slots, fun kind name => ?_, hrun, hsteps,
    ?_⟩
  · rw [← ClassTable.lastBinding?_hooks]
    exact hequipped.members kind name
  · rw [State.afterRun, hrun]
    cases hm : finish call cls o args s₂ with
    | ok r s₃ => exact (hends.of_ok hm).1
    | error e s₃ => exact (hends.of_error hm).1

end Run

end ScriptPlayer
