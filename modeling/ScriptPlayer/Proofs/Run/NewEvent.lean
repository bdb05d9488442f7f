import ScriptPlayer.Proofs.Player.EventClass
import ScriptPlayer.Proofs.Run.Slots

/-! Making an event. The class of events declares nothing and its constructor is built in, so a
player makes an event without any script, and changes nothing but the cell of the event. -/
namespace ScriptPlayer

open World

namespace World

variable {w w' w'' : World} {e : ObjectId}

def Spares (e : ObjectId) (w w' : World) : Prop :=
  ∀ o i, o ≠ e → w'.instance? o = some i → w.instance? o = some i

theorem Spares.trans (h : Spares e w w') (h' : Spares e w' w'') : Spares e w w'' :=
  fun o i ho hi => h o i ho (h' o i ho hi)

theorem spares_of_fades (h : w.heap.Fades w'.heap) : Spares e w w' := fun _ _ _ hi => h.instance? hi

theorem spares_putInstance {i : Instance} (hi : w.instance? e = some i) (j : Instance) :
    Spares e w (w.putInstance e j) := by
  intro o k ho hk
  have h := instance?_putInstance hi j hk
  rwa [if_neg ho] at h

theorem spares_spawn (w : World) (cls : ClassId) (spec : BackingSpec) :
    Spares w.heap.cells.length w (w.spawn cls spec).2 := by
  intro o i ho hi
  rcases instance?_spawn hi with hi | ⟨he, -⟩
  · exact hi
  · exact absurd he ho

/-- A new object and what becomes of it, with nothing else changed but what is gone. -/
structure Shapes (w : World) (e : ObjectId) (j : Instance) (w' : World) : Prop where
  found : w'.instance? e = some j
  spares : Spares e w w'
  classes : w'.classes = w.classes

theorem Shapes.trans {i j : Instance} (h : w.Shapes e i w') (h' : w'.Shapes e j w'') :
    w.Shapes e j w'' :=
  ⟨h'.found, h.spares.trans h'.spares, h'.classes.trans h.classes⟩

theorem shapes_of_fades {j : Instance} (hs : w'.Sound) (ho : w'.Holds (.object e))
    (hj : w.instance? e = some j) (hf : w.heap.Fades w'.heap) (hc : w'.classes = w.classes) :
    w.Shapes e j w' := by
  obtain ⟨k, hk⟩ := hs.exists_instance ho
  obtain rfl := Option.some.inj ((hf.instance? hk).symm.trans hj)
  exact ⟨hk, spares_of_fades hf, hc⟩

theorem shapes_putInstance {i j : Instance} (hi : w.instance? e = some i)
    (hs : (w.putInstance e j).Sound) (ho : (w.putInstance e j).Holds (.object e)) :
    w.Shapes e j (w.putInstance e j) := by
  obtain ⟨k, hk⟩ := hs.exists_instance ho
  have hput := instance?_putInstance hi j hk
  rw [if_pos rfl] at hput
  exact ⟨hput ▸ hk, spares_putInstance hi j, (reframes_putInstance w e j).classes⟩

theorem shapes_spawn (hs : w.Sound) (cls : ClassId) :
    w.Shapes w.heap.cells.length (.fresh cls .plain) (w.spawn cls .plain).2 := by
  obtain ⟨hid, hfound⟩ := instance?_spawn_self hs cls .plain
  exact ⟨hid ▸ hfound, spares_spawn w cls .plain, (sameClasses_spawn w cls .plain).classes⟩

end World

def Instance.withSlot (i : Instance) (name : QName) (v : Value) : Instance :=
  { i with slots := (i.slots.insert name v).2 }

def Instance.asEvent (i : Instance) (kind : String) (target : Value) : Instance :=
  (i.withSlot (.pub "type") (.string kind)).withSlot (.pub "target") target

def Instance.marked (cls : ClassId) : Instance := { fresh cls .plain with installed := true }

namespace Run

variable {call : Caller} {s : State} {e : ObjectId} {i : Instance} {r : PlayerClasses}

theorem Returns.framed {α : Type} {m : Run α} {p : Purpose} (hp : p.isPlain)
    {keep : α → List Value} {Q : α → World → Prop} (hs : s.world.Sound)
    (h : Returns m { s with world := s.world.pushFrame p } fun a w =>
      (∀ v ∈ keep a, w.isValid v) ∧ Q a w) :
    Returns (framed p keep m) s fun a w => ∃ w', Q a w' ∧ w = w'.popFrame (keep a) := by
  obtain ⟨a, s', hm, hsteps, hg, hkeep, hq⟩ := h
  have hends : Ends Reheld m { s with world := s.world.pushFrame p } fun a w =>
      (∀ v ∈ keep a, w.isValid v) ∧ True := by
    unfold Ends
    rw [hm]
    exact ⟨hsteps, hg.reheld, hkeep, trivial⟩
  have hrun : Run.framed p keep m s = .ok a { s' with world := s'.world.popFrame (keep a) } := by
    unfold Run.framed
    rw [hm]
  obtain ⟨hsteps', hg', -⟩ := (ends_framed hp hs hends).of_ok hrun
  exact ⟨a, _, hrun, hsteps', hg', s'.world, hq, rfl⟩

/-- Nothing in the class chain has a part in writes. -/
def Bare (t : ClassTable) (i : Instance) : Prop :=
  i.backing = .plain ∧ i.bound = .empty ∧ ∀ k ∈ t.chain i.cls, k.traits = .empty

theorem Bare.setter? {t : ClassTable} (h : Bare t i) (name : QName) : i.setter? t name = none := by
  obtain ⟨-, hbound, htraits⟩ := h
  have hnone : t.findTrait i.cls name (fun trait => trait.setter.isSome) = none := by
    refine List.findSome?_eq_none_iff.2 fun k hk => ?_
    rw [htraits k hk]
    rfl
  unfold Instance.setter? ClassTable.findSetter
  rw [hbound, hnone]
  rfl

theorem returns_setSlot (hs : s.world.Sound) (ho : s.world.Holds (.object e))
    (hi : s.world.instance? e = some i) (hbare : Bare s.world.classes i) (name : QName)
    {v : Value} (hv : s.world.isValid v) :
    Returns (set call e (Key.ofQName name) v) s fun _ w =>
      s.world.Shapes e (i.withSlot name v) w := by
  have hwrite : i.write s.world.classes (Key.ofQName name) v =
      .ok (.stored (i.withSlot name v)) :=
    Instance.write_ofQName (fun d hd => by cases hbare.1.symm.trans hd) (hbare.setter? name) v
  have hrun : set call e (Key.ofQName name) v s = .ok ()
      { s with world := s.world.putInstance e (i.withSlot name v) } := by
    rw [set_concludes hi, hwrite]
    rfl
  have hset : i.Update s.world.classes (i.withSlot name v) [v] :=
    .slot name v (fun d hd => by cases hbare.1.symm.trans hd) (hbare.setter? name)
  obtain ⟨hsteps, hgains, -⟩ := (ends_update hi hset fun u hu =>
    List.mem_singleton.1 hu ▸ hv).of_ok (s := s) rfl
  exact ⟨(), _, hrun, hsteps, hgains, shapes_putInstance hi (hsteps.sound hs) (ho.gains hgains)⟩

theorem returns_initEvent (hs : s.world.Sound) (ho : s.world.Holds (.object e))
    (hi : s.world.instance? e = some i) (hbare : Bare s.world.classes i) (kind : String) :
    Returns (initEvent call e [.string kind]) s fun _ w =>
      s.world.Shapes e (i.asEvent kind .null) w := by
  have hstart : initEvent call e [.string kind] s = (do
      set call e (Key.ofQName (.pub "type")) (.string kind)
      set call e (Key.ofQName (.pub "target")) .null : Run Unit) s := rfl
  have hboth : Returns (do
      set call e (Key.ofQName (.pub "type")) (.string kind)
      set call e (Key.ofQName (.pub "target")) .null : Run Unit) s fun _ w =>
        s.world.Shapes e (i.asEvent kind .null) w := by
    apply (returns_setSlot hs ho hi hbare (.pub "type") (v := .string kind) rfl).bind hs
    intro _ s₁ _ hs₁ hg₁ h₁
    have hbare₁ : Bare s₁.world.classes (i.withSlot (.pub "type") (.string kind)) :=
      h₁.classes ▸ hbare
    exact (returns_setSlot hs₁ (ho.gains hg₁) h₁.found hbare₁ (.pub "target") rfl).imp
      fun _ _ _ _ h₂ => h₁.trans h₂
  unfold Returns
  rw [hstart]
  exact hboth

theorem returns_pulse_bind {α : Type} {k : Unit → Run α} {Q : α → World → Prop}
    (hb : 0 < s.budget) (h : Returns (k ()) (pulsed s) Q) : Returns (pulse >>= k) s Q := by
  have hown := sameOwners_pulsed s
  obtain ⟨a, s', hrun, hsteps, hg, hq⟩ := h
  exact ⟨a, s', (bind_of_ok (pulse_run hb) _).trans hrun,
    (Step.background hown).steps.trans hsteps, hown.frames ▸ hg, hq⟩

theorem functionOf_run {f : FunctionId} {fn : Function} (hf : s.world.heap.function? f = some fn) :
    functionOf f s = .ok fn s := by
  refine (bind_of_ok (m := world) rfl _).trans ?_
  rw [hf]
  rfl

theorem returns_callBuiltin (hs : s.world.Sound) (hb : 0 < s.budget) {f : FunctionId}
    {fn : Function} {b : Builtin} (hf : s.world.heap.function? f = some fn)
    (hcode : fn.code = .builtin b) {this : ObjectId} {args : List Value}
    (hvalid : ∀ v ∈ Value.function f :: .object this :: args, s.world.isValid v) (depth : Nat)
    {Q : Value → World → Prop}
    (h : ∀ s', Steps s.world s'.world → s'.world.Sound → SameContents s.world s'.world →
      s'.world.classes = s.world.classes → s'.world.InHand (.object this) →
      Returns (builtin (callFunction depth) b this args) s' fun v w => w.isValid v ∧ Q v w) :
    Returns (callFunction (depth + 1) f this args) s fun v w => ∃ w', Q v w' ∧
      w = w'.popFrame [v] := by
  let vs := Value.function f :: .object this :: args
  have hown := sameOwners_pulsed s
  have hpulse : Step s.world (pulsed s).world := .background hown
  have hpush : Step (pulsed s).world ((pulsed s).world.pushFrame (.call f)) := .push rfl
  have hs₁ := hpulse.sound hs
  have hs₂ := hpush.sound hs₁
  have hsame₂ : SameContents s.world ((pulsed s).world.pushFrame (.call f)) :=
    fun id => congrArg (Heap.content? · id) hown.heap
  have hvalid₂ : ∀ v ∈ vs, ((pulsed s).world.pushFrame (.call f)).isValid v :=
    fun v hv => (isValid_congr hsame₂ hown.classes v).2 (hvalid v hv)
  refine returns_pulse_bind hb (Returns.framed rfl hs₁ ?_)
  have hhold : Returns (vs.forM hold)
      { pulsed s with world := (pulsed s).world.pushFrame (.call f) } _ :=
    (ends_holdAll vs hs₂).returns (holdAll_run hvalid₂)
  apply hhold.bind hs₂
  intro _ s₃ hsteps₃ hs₃ _ ⟨hw, hhand, hsame₃⟩
  have hsame : SameContents s.world s₃.world := fun id => (hsame₃ id).trans (hsame₂ id)
  have hclasses : s₃.world.classes = s.world.classes := by
    rw [hw]
    dsimp only
    rw [holdAll_eq (w := (pulsed s).world.pushFrame (.call f)) rfl vs]
    exact hown.classes
  have hfn : s₃.world.heap.function? f = some fn := (Heap.function?_congr (hsame f)).trans hf
  have hrest : Returns (builtin (callFunction depth) b this args) s₃ fun v w =>
      (∀ u ∈ [v], w.isValid u) ∧ Q v w :=
    (h s₃ ((hpulse.steps.tail hpush).trans hsteps₃) hs₃ hsame hclasses
      (hhand _ (by simp [vs]))).imp fun v w _ _ hv =>
        ⟨fun u hu => List.mem_singleton.1 hu ▸ hv.1, hv.2⟩
  unfold Returns
  rw [bind_of_ok (functionOf_run hfn), hcode]
  exact hrest

theorem returns_callConstructor (hs : s.world.Sound) (hb : 0 < s.budget)
    (ho : s.world.Holds (.object e)) (hi : s.world.instance? e = some i)
    (hbare : Bare s.world.classes i) {f : FunctionId} {fn : Function}
    (hf : s.world.heap.function? f = some fn) (hcode : fn.code = .builtin .newEvent)
    (kind : String) (depth : Nat) :
    Returns (callFunction (depth + 1) f e [.string kind]) s fun _ w =>
      s.world.Shapes e (i.asEvent kind .null) w := by
  have hvalid : ∀ v ∈ [Value.function f, .object e, .string kind], s.world.isValid v := by
    intro v hv
    rcases List.mem_cons.1 hv with rfl | hv
    · exact Option.isSome_iff_exists.2 ⟨fn, hf⟩
    rcases List.mem_cons.1 hv with rfl | hv
    · exact Option.isSome_iff_exists.2 ⟨i, hi⟩
    · rw [List.mem_singleton.1 hv]
      rfl
  have hcall := returns_callBuiltin (Q := fun _ w => s.world.Shapes e (i.asEvent kind .null) w)
    hs hb hf hcode hvalid depth fun s' _ hs' hsame hclasses hhand => by
      have hi' : s'.world.instance? e = some i := (hsame.instance? e).trans hi
      have hbare' : Bare s'.world.classes i := hclasses ▸ hbare
      apply (returns_initEvent hs' hhand.holds hi' hbare' kind).bind hs'
      intro _ s₂ _ _ _ h₂
      refine returns_pure ⟨rfl, h₂.found, ?_, h₂.classes.trans hclasses⟩
      exact fun o j hj hoj => ((hsame.instance? o).symm.trans (h₂.spares o j hj hoj))
  obtain ⟨v, s', hrun, hsteps, hg, w', hw', hpop⟩ := hcall
  refine ⟨v, s', hrun, hsteps, hg, ?_⟩
  -- the frame of the call has closed, and the event is still held below it
  have hclose : w'.Shapes e (i.asEvent kind .null) s'.world :=
    shapes_of_fades (hsteps.sound hs) (ho.gains hg) hw'.found (hpop ▸ fades_popFrame w' [v])
      (hpop ▸ (reframes_popFrame w' [v]).classes)
  exact hw'.trans hclose

/-! Making the event -/

theorem instantiate_run {cls : ClassId} (h : s.world.classes.findBacking cls = none) :
    instantiate cls none s = .ok (s.world.spawn cls .plain).1
      { s with world := (s.world.spawn cls .plain).2 } := by
  have hspec : (none <|> s.world.classes.findBacking cls).getD .plain = .plain := by rw [h]; rfl
  unfold instantiate updateWorld
  dsimp only
  rw [hspec]
  rfl

theorem installTraits_run (hi : s.world.instance? e = some i) (hnew : i.installed = false)
    (hhooks : ∀ k ∈ s.world.classes.chain i.cls, k.hook = none) :
    installTraits e s =
      .ok () { s with world := s.world.putInstance e { i with installed := true } } := by
  have hnone : (s.world.classes.chain i.cls).reverse.filterMap Class.hook = [] :=
    List.filterMap_eq_nil_iff.2 fun k hk => hhooks k (List.mem_reverse.1 hk)
  have hput : putInstance e { i with installed := true } s =
      .ok () { s with world := s.world.putInstance e { i with installed := true } } := rfl
  unfold installTraits installWith
  rw [bind_of_ok (instanceOf_run hi), if_neg (by rw [hnew]; exact Bool.false_ne_true),
    bind_of_ok hput]
  refine (bind_of_ok (m := world) rfl _).trans ?_
  dsimp only
  rw [(reframes_putInstance s.world e _).classes, hnone]
  rfl

theorem bare_marked {w : World} (h : w.MakesEvents r) :
    Bare w.classes (.marked r.event) :=
  ⟨rfl, rfl, fun k hk => (h.plain k hk).1⟩

theorem returns_finish (hs : s.world.Sound) (hb : 0 < s.budget) (ho : s.world.Holds (.object e))
    (hi : s.world.instance? e = some i) (hbare : Bare s.world.classes i)
    (hr : s.world.MakesEvents r) (kind : String) (depth : Nat) :
    Returns (finish (callFunction (depth + 1)) r.event e [.string kind]) s fun o w => o = e ∧
      s.world.Shapes e (i.asEvent kind .null) w := by
  obtain ⟨f, fn, hf, hfn, hcode⟩ := hr.constructor
  have hstep : Step s.world (s.world.pushFrame .operation) := .push rfl
  have ho' : (s.world.pushFrame .operation).Holds (.object e) := by
    obtain ⟨g, hg, hv⟩ := ho
    exact ⟨g, List.mem_cons_of_mem _ hg, hv⟩
  have hcall := returns_callConstructor (s := { s with world := s.world.pushFrame .operation })
    (hstep.sound hs) hb ho' hi hbare hfn hcode kind depth
  have hshapes : Returns (forEffect (callFunction (depth + 1) f e [.string kind])) s fun _ w =>
      s.world.Shapes e (i.asEvent kind .null) w := by
    refine (Returns.forEffect hs hcall).imp fun _ w hsteps hg hw => ?_
    obtain ⟨v, w', hw', hpop⟩ := hw
    exact (⟨hw'.found, hw'.spares, hw'.classes⟩ : s.world.Shapes e _ w').trans
      (shapes_of_fades (hsteps.sound hs) (ho.gains hg) hw'.found (hpop ▸ fades_popFrame w' [])
        (hpop ▸ (reframes_popFrame w' []).classes))
  apply returns_world_bind
  rw [hf]
  exact hshapes.bind hs fun _ s₁ _ _ _ h => returns_pure ⟨rfl, h⟩

/-- A player makes an event at the next place of the heap and changes nothing else that stays. -/
theorem returns_construct (hs : s.world.Sound) (hst : s.world.Staffed) (hb : 0 < s.budget)
    (hrun : s.world.runtime = some r) (hr : s.world.MakesEvents r) (kind : String) (depth : Nat) :
    Returns (construct (callFunction (depth + 1)) r.event none [.string kind]) s fun o w =>
      o = s.world.heap.cells.length ∧ w.InHand (.object o) ∧
        s.world.Shapes o ((Instance.marked r.event).asEvent kind .null) w := by
  let o := s.world.heap.cells.length
  have hbacking : s.world.classes.findBacking r.event = none :=
    List.findSome?_eq_none_iff.2 fun k hk => (hr.plain k hk).2.2
  have hmake := instantiate_run hbacking
  have hid : (s.world.spawn r.event .plain).1 = o := (instance?_spawn_self hs r.event .plain).1
  rw [hid] at hmake
  obtain ⟨hsteps₁, hg₁, hhand₁⟩ := (ends_instantiate hs (hst.event r hrun) none).of_ok hmake
  have hs₁ := hsteps₁.sound hs
  have hshape₁ : s.world.Shapes o (.fresh r.event .plain) (s.world.spawn r.event .plain).2 :=
    shapes_spawn hs r.event
  have hchain : ∀ k ∈ (s.world.spawn r.event .plain).2.classes.chain r.event, k.hook = none := by
    rw [hshape₁.classes]
    exact fun k hk => (hr.plain k hk).2.1
  have hmark := installTraits_run (s := { s with world := (s.world.spawn r.event .plain).2 })
    hshape₁.found rfl hchain
  obtain ⟨hsteps₂, hg₂, -⟩ := (ends_installTraits hs₁ o).of_ok hmark
  have hs₂ := hsteps₂.sound hs₁
  have hhand₂ := hhand₁.gains hg₂
  have hshape₂ := hshape₁.trans (shapes_putInstance hshape₁.found hs₂ hhand₂.holds)
  have hsteps := hsteps₁.trans hsteps₂
  have hr₂ := hr.later hst.toRegistered (hst.event r hrun) hsteps.later hs₂
  have hbare := bare_marked hr₂
  obtain ⟨a, s₃, hfinish, hsteps₃, hg₃, rfl, hshape₃⟩ := returns_finish
    (s := { s with world := _ }) hs₂ hb hhand₂.holds hshape₂.found hbare hr₂ kind depth
  refine ⟨o, s₃, ?_, hsteps.trans hsteps₃, (hg₁.trans hg₂).trans hg₃, rfl, hhand₂.gains hg₃,
    hshape₂.trans hshape₃⟩
  rw [construct_eq, bind_of_ok hmake, bind_of_ok hmark]
  exact hfinish

end Run

end ScriptPlayer
