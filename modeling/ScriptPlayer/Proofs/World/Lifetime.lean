import ScriptPlayer.Proofs.World.Preservation
import ScriptPlayer.Proofs.World.Reframes

/-! What never changes: classes stay registered, a cell keeps its kind and its class for life, and
a cell that is gone does not come back. -/
namespace ScriptPlayer

/-- Two contents that one cell can have at different times: the same function, or instances of one
class with one kind of storage. -/
inductive Content.SameBody : Content → Content → Prop
  | instanceOf {i j : Instance} (hc : j.cls = i.cls) (hb : j.backing.kind = i.backing.kind) :
      SameBody (.instanceOf i) (.instanceOf j)
  | functionOf (f : Function) : SameBody (.functionOf f) (.functionOf f)

theorem Content.SameBody.refl (x : Content) : x.SameBody x := by
  cases x with
  | instanceOf i => exact .instanceOf rfl rfl
  | functionOf f => exact .functionOf f

theorem Content.SameBody.trans {x y z : Content} (h : x.SameBody y) (h' : y.SameBody z) :
    x.SameBody z := by
  cases h with
  | instanceOf hc hb =>
    cases h' with
    | instanceOf hc' hb' => exact .instanceOf (hc'.trans hc) (hb'.trans hb)
  | functionOf f =>
    cases h' with
    | functionOf => exact .functionOf f

theorem Instance.Update.sameBody {t : ClassTable} {i j : Instance} {new : List Value}
    (h : i.Update t j new) :
    Content.SameBody (.instanceOf i) (.instanceOf j) := by
  refine .instanceOf h.cls_eq ?_
  cases h with
  | same | slot | unslot | bind | install => rfl
  | bytes b b' h => simp [h, Backing.kind]
  | entry d key v h => simp [h, Backing.kind]
  | unentry d key h => simp [h, Backing.kind]
  | listen l timer kind f h => simp [h, Backing.kind]
  | unlisten l timer kind f h => simp [h, Backing.kind]
  | timer l old new h => simp [h, Backing.kind]
  | video old new h => simp [h, Backing.kind]

namespace World

/-- One world comes later than another: classes were only added, and what is left of an old cell is
still the same thing. -/
structure Later (w w' : World) : Prop where
  classes : w.classes.classes <+: w'.classes.classes
  length : w.heap.cells.length ≤ w'.heap.cells.length
  content : ∀ id x', id < w.heap.cells.length → w'.heap.content? id = some x' →
    ∃ x, w.heap.content? id = some x ∧ x.SameBody x'

theorem Later.refl (w : World) : w.Later w :=
  ⟨List.prefix_refl _, Nat.le_refl _, fun _ x _ hx => ⟨x, hx, .refl x⟩⟩

theorem Later.trans {w₁ w₂ w₃ : World} (h : w₁.Later w₂) (h' : w₂.Later w₃) : w₁.Later w₃ where
  classes := h.classes.trans h'.classes
  length := Nat.le_trans h.length h'.length
  content id x hlt hx := by
    obtain ⟨y, hy, hyx⟩ := h'.content id x (Nat.lt_of_lt_of_le hlt h.length) hx
    obtain ⟨z, hz, hzy⟩ := h.content id y hlt hy
    exact ⟨z, hz, hzy.trans hyx⟩

theorem Later.size_le {w w' : World} (h : w.Later w') : w.classes.size ≤ w'.classes.size :=
  h.classes.length_le

variable {w w' : World}

theorem later_of_fades (hf : w.heap.Fades w'.heap) (hc : w'.classes = w.classes) : w.Later w' :=
  ⟨hc ▸ List.prefix_refl _, Nat.le_of_eq hf.length.symm,
    fun id x _ hx => ⟨x, hf.content id x hx, .refl x⟩⟩

/-! The class table and the player's classes change only where a class is registered or a set-up
ends. -/

structure SameClasses (w w' : World) : Prop where
  classes : w'.classes = w.classes
  core : w'.core = w.core
  runtime : w'.runtime = w.runtime

theorem SameClasses.refl (w : World) : w.SameClasses w := ⟨rfl, rfl, rfl⟩

theorem SameClasses.trans {w₁ w₂ w₃ : World} (h : w₁.SameClasses w₂) (h' : w₂.SameClasses w₃) :
    w₁.SameClasses w₃ :=
  ⟨h'.classes.trans h.classes, h'.core.trans h.core, h'.runtime.trans h.runtime⟩

theorem SameOwners.sameClasses (h : w.SameOwners w') : w.SameClasses w' :=
  ⟨h.classes, h.core, h.runtime⟩

theorem Reframes.sameClasses (h : w.Reframes w') : w.SameClasses w' := by
  cases h
  exact ⟨rfl, rfl, rfl⟩

theorem sameClasses_spawn (w : World) (cls : ClassId) (spec : BackingSpec) :
    w.SameClasses (w.spawn cls spec).2 :=
  (sameOwners_newBacking w spec).sameClasses.trans (reframes_newInstance _ _).sameClasses

theorem later_putInstance {o : ObjectId} {i j : Instance} (hi : w.instance? o = some i)
    (hj : Content.SameBody (.instanceOf i) (.instanceOf j)) : w.Later (w.putInstance o j) where
  classes := (reframes_putInstance w o j).classes ▸ List.prefix_refl _
  length := Nat.le_of_eq (length_cells_putInstance w o j).symm
  content id x _ hx := by
    have := content?_putInstance hi j hx
    split at this
    · rename_i he
      rw [he, this]
      exact ⟨_, Heap.instance?_eq_some_iff.1 hi, hj⟩
    · exact ⟨x, this, .refl x⟩

theorem length_cells_newFunction (w : World) (fn : Function) :
    w.heap.cells.length ≤ (w.newFunction fn).2.heap.cells.length := by
  unfold newFunction
  cases w.frames with
  | nil => exact Nat.le_refl _
  | cons f rest =>
    dsimp only [Heap.allocate]
    rw [List.length_append, Heap.length_cells_retainAll]
    exact Nat.le_add_right _ _

theorem length_cells_newInstance (w : World) (i : Instance) :
    w.heap.cells.length ≤ (w.newInstance i).2.heap.cells.length := by
  unfold newInstance
  cases w.frames with
  | nil => exact Nat.le_refl _
  | cons f rest =>
    dsimp only [Heap.allocate]
    rw [List.length_append, Heap.length_cells_retainAll]
    exact Nat.le_add_right _ _

theorem later_newFunction (w : World) (fn : Function) : w.Later (w.newFunction fn).2 where
  classes := (reframes_newFunction w fn).classes ▸ List.prefix_refl _
  length := length_cells_newFunction w fn
  content id x hlt hx := by
    cases hf : w.frames with
    | nil =>
      unfold newFunction at hx
      rw [hf] at hx
      exact ⟨x, hx, .refl x⟩
    | cons f rest =>
      rw [content?_newFunction hf, if_neg (Nat.ne_of_lt hlt)] at hx
      exact ⟨x, hx, .refl x⟩

theorem later_newInstance (w : World) (i : Instance) : w.Later (w.newInstance i).2 where
  classes := by
    unfold newInstance
    cases w.frames <;> exact List.prefix_refl _
  length := length_cells_newInstance w i
  content id x hlt hx := by
    cases hf : w.frames with
    | nil =>
      unfold newInstance at hx
      rw [hf] at hx
      exact ⟨x, hx, .refl x⟩
    | cons f rest =>
      rw [content?_newInstance hf, if_neg (Nat.ne_of_lt hlt)] at hx
      exact ⟨x, hx, .refl x⟩

theorem SameOwners.later (h : w.SameOwners w') : w.Later w' :=
  later_of_fades (h.heap ▸ Heap.Fades.refl _) h.classes

theorem Step.later (h : Step w w') : w.Later w' := by
  cases h with
  | hold hv => exact later_of_fades (fades_hold w _) (reframes_hold w _).classes
  | letGo v => exact later_of_fades (fades_letGo w v) (reframes_letGo w v).classes
  | push hp => exact later_of_fades (Heap.Fades.refl _) rfl
  | pop hf hp hkeep => exact later_of_fades (fades_popFrame w _) (reframes_popFrame w _).classes
  | @enter o i hi hb ho =>
    have hk : BackingKind.proxy = i.backing.kind := congrArg Backing.kind hb.symm
    have h : w.Later (w.putInstance o (i.withGuard true)) :=
      later_putInstance hi (.instanceOf rfl hk)
    exact ⟨h.classes, h.length, h.content⟩
  | @leave o i held rest keep hf hkeep hi hb =>
    have hk : BackingKind.proxy = i.backing.kind := congrArg Backing.kind hb.symm
    have h : (w.popFrame keep).Later ((w.popFrame keep).putInstance o (i.withGuard false)) :=
      later_putInstance hi (.instanceOf rfl hk)
    exact (later_of_fades (fades_popFrame w _) (reframes_popFrame w _).classes).trans h
  | newInstance spec hc =>
    exact (sameOwners_newBacking w spec).later.trans (later_newInstance _ _)
  | newFunction hf => exact later_newFunction w _
  | update hi hj hnew => exact later_putInstance hi hj.sameBody
  | defineGlobal name hv => exact later_of_fades (fades_putGlobals w _) rfl
  | registerClass hr hsuper hd =>
    have hf := fades_registerClass hr
    refine ⟨?_, Nat.le_of_eq hf.length.symm, fun id x _ hx => ⟨x, hf.content id x hx, .refl x⟩⟩
    obtain ⟨-, -, rfl⟩ := registerClass_eq_ok hr
    exact List.prefix_append _ _
  | retarget ht => exact later_of_fades (fades_putTargets w _) rfl
  | background hw => exact hw.later
  | staff hcore hruntime => exact later_of_fades (Heap.Fades.refl _) rfl
  | assign i hv => exact later_of_fades (fades_assign w i _) (reframes_assign w i _).classes

theorem Steps.later (h : Steps w w') : w.Later w' := by
  induction h with
  | refl => exact Later.refl _
  | tail _ hs ih => exact ih.trans hs.later

end World

end ScriptPlayer
