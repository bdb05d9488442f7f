import ScriptPlayer.Proofs.World.Counts

/-! What cells hold after each change of a world. But for new cells and changed instances, what is
left of a heap is what was there. -/
namespace ScriptPlayer.World

variable {w : World}

theorem content?_hold (w : World) (v : Value) (id : Nat) :
    (w.hold v).heap.content? id = w.heap.content? id := by
  unfold World.hold
  cases w.frames with
  | nil => rfl
  | cons f rest => exact Heap.content?_retain w.heap v id

theorem fades_hold (w : World) (v : Value) : w.heap.Fades (w.hold v).heap := by
  refine ⟨?_, fun id x hx => (content?_hold w v id).symm.trans hx⟩
  unfold World.hold
  cases w.frames with
  | nil => rfl
  | cons f rest => exact Heap.length_cells_retain w.heap v

theorem fades_letGo (w : World) (v : Value) : w.heap.Fades (w.letGo v).heap := by
  unfold World.letGo
  cases w.frames with
  | nil => exact Heap.Fades.refl _
  | cons f rest =>
    dsimp only
    split
    · exact Heap.fades_releaseAll _ _
    · exact Heap.Fades.refl _

theorem fades_popFrame (w : World) (keep : List Value) : w.heap.Fades (w.popFrame keep).heap := by
  unfold World.popFrame
  split
  · exact (Heap.fades_retainAll _ _).trans (Heap.fades_releaseAll _ _)
  · exact Heap.fades_releaseAll _ _
  · exact Heap.Fades.refl _

theorem fades_putGlobals (w : World) (globals : PropertyMap) :
    w.heap.Fades (w.putGlobals globals).heap :=
  (Heap.fades_retainAll _ _).trans (Heap.fades_releaseAll _ _)

theorem fades_putTargets (w : World) (targets : List (RunId × ObjectId)) :
    w.heap.Fades (w.putTargets targets).heap :=
  (Heap.fades_retainAll _ _).trans (Heap.fades_releaseAll _ _)

theorem fades_registerClass {w' : World} {d : ClassDecl} {c : ClassId}
    (h : w.registerClass d = .ok (c, w')) : w.heap.Fades w'.heap := by
  obtain ⟨-, -, rfl⟩ := registerClass_eq_ok h
  refine Heap.Fades.trans ?_ (fades_putGlobals _ _)
  exact Heap.fades_retainAll _ _

theorem fades_assign (w : World) (i : Nat) (v : Value) : w.heap.Fades (w.assign i v).heap := by
  unfold World.assign
  cases w.frames.getLast? with
  | none => exact Heap.Fades.refl _
  | some f =>
    dsimp only
    cases f.held[i]? with
    | none => exact Heap.Fades.refl _
    | some old => exact (Heap.fades_retain _ _).trans (Heap.fades_releaseAll _ _)

theorem length_cells_putInstance (w : World) (o : ObjectId) (j : Instance) :
    (w.putInstance o j).heap.cells.length = w.heap.cells.length := by
  unfold World.putInstance
  cases w.instance? o with
  | none => rfl
  | some i =>
    rw [(Heap.fades_releaseAll _ _).length]
    exact (List.length_modify _ _ _).trans (Heap.length_cells_retainAll _ _)

theorem content?_putInstance {o : ObjectId} {i : Instance} (hi : w.instance? o = some i)
    (j : Instance) {id : Nat} {x : Content}
    (hx : (w.putInstance o j).heap.content? id = some x) :
    if id = o then x = .instanceOf j else w.heap.content? id = some x := by
  unfold World.putInstance at hx
  rw [hi] at hx
  have hx := (Heap.fades_releaseAll _ _).content id x hx
  have hold : (w.heap.retainAll j.handles).content? o = some (.instanceOf i) :=
    (Heap.content?_retainAll _ _ o).trans (Heap.instance?_eq_some_iff.1 hi)
  rw [Heap.content?_setContent hold] at hx
  split at hx
  · rename_i he
    rw [if_pos he]
    exact (Option.some.inj hx).symm
  · rename_i he
    rw [if_neg he, ← Heap.content?_retainAll w.heap j.handles id]
    exact hx

theorem instance?_putInstance {o : ObjectId} {i : Instance} (hi : w.instance? o = some i)
    (j : Instance) {o' : ObjectId} {i' : Instance}
    (h : (w.putInstance o j).instance? o' = some i') :
    if o' = o then i' = j else w.instance? o' = some i' := by
  have hx := content?_putInstance hi j (Heap.instance?_eq_some_iff.1 h)
  split at hx
  · rename_i he
    rw [if_pos he]
    exact Content.instanceOf.inj hx
  · rename_i he
    rw [if_neg he]
    exact Heap.instance?_eq_some_iff.2 hx

theorem content?_newInstance {i : Instance} {f : Frame} {rest : List Frame}
    (hf : w.frames = f :: rest) (id : Nat) :
    (w.newInstance i).2.heap.content? id =
      if id = w.heap.cells.length then some (.instanceOf i) else w.heap.content? id := by
  unfold World.newInstance
  rw [hf]
  dsimp only
  rw [Heap.content?_allocate, Heap.length_cells_retainAll, Heap.content?_retainAll]

theorem content?_newFunction {fn : Function} {f : Frame} {rest : List Frame}
    (hf : w.frames = f :: rest) (id : Nat) :
    (w.newFunction fn).2.heap.content? id =
      if id = w.heap.cells.length then some (.functionOf fn) else w.heap.content? id := by
  unfold World.newFunction
  rw [hf]
  dsimp only
  rw [Heap.content?_allocate, Heap.length_cells_retainAll, Heap.content?_retainAll]

end ScriptPlayer.World
