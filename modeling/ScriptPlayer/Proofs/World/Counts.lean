import ScriptPlayer.Proofs.World.Sound

/-! The counts of the heap are exact again after each change of a world. -/
namespace ScriptPlayer.World

variable {w : World}

def others (w : World) : List Value :=
  w.classes.handles ++ w.globals.values ++ targetHandles w.targets

theorem roots_perm (w : World) : w.roots.Perm (w.frames.flatMap Frame.held ++ w.others) := by
  unfold roots others
  refine (List.perm_append_comm.append_right _).trans ?_
  rw [List.append_assoc]

/-- The counts of a heap that serves these frames and these others. -/
def HeapSound (w : World) : Prop := w.heap.Sound w.classes.size w.roots

theorem heapSound_iff :
    w.HeapSound ↔
      w.heap.Sound w.classes.size (w.frames.flatMap Frame.held ++ w.others) :=
  ⟨fun h => h.perm w.roots_perm.symm, fun h => h.perm w.roots_perm⟩

theorem HeapSound.hold (h : w.HeapSound) {v : Value} (hv : w.isValid v) :
    (w.hold v).HeapSound := by
  rw [heapSound_iff] at h
  have hs := h.retain (isValid_iff_refers.1 hv)
  unfold World.hold
  cases hf : w.frames with
  | nil =>
    rw [heapSound_iff]
    exact h
  | cons f rest =>
    rw [hf] at hs
    rw [heapSound_iff]
    exact hs

theorem HeapSound.letGo (h : w.HeapSound) (v : Value) : (w.letGo v).HeapSound := by
  unfold World.letGo
  cases hf : w.frames with
  | nil => exact h
  | cons f rest =>
    by_cases hv : v ∈ f.held
    · have hc : f.held.contains v = true := List.contains_iff_mem.2 hv
      simp only [hc, if_true]
      rw [heapSound_iff] at h ⊢
      rw [hf] at h
      apply Heap.Sound.releaseAll
      apply h.perm
      exact ((List.perm_cons_erase hv).symm.append_right _).append_right _
    · have hc : ¬ f.held.contains v = true := fun h => hv (List.contains_iff_mem.1 h)
      simp only [if_neg hc]
      exact h

theorem HeapSound.pushFrame (h : w.HeapSound) (p : Purpose) : (w.pushFrame p).HeapSound := by
  rw [heapSound_iff] at h ⊢
  exact h

/-- A frame that closes is about to give up what it holds; the frame below has what is kept. -/
theorem HeapSound.closing (h : w.HeapSound) {f below : Frame} {rest : List Frame}
    (hf : w.frames = f :: below :: rest) {keep : List Value} (hkeep : ∀ v ∈ keep, w.isValid v) :
    (w.heap.retainAll keep).Sound w.classes.size
      (f.held ++ ((keep ++ below.held) ++ rest.flatMap Frame.held ++ w.others)) := by
  rw [heapSound_iff] at h
  have hs := h.retainAll fun v hv => isValid_iff_refers.1 (hkeep v hv)
  rw [hf] at hs
  apply hs.perm
  simp only [List.flatMap_cons, List.append_assoc]
  exact List.perm_append_comm_assoc _ _ _

theorem HeapSound.popFrame (h : w.HeapSound) {f below : Frame} {rest : List Frame}
    (hf : w.frames = f :: below :: rest) {keep : List Value} (hkeep : ∀ v ∈ keep, w.isValid v) :
    (w.popFrame keep).HeapSound := by
  have hs := h.closing hf hkeep
  rw [heapSound_iff]
  unfold World.popFrame
  rw [hf]
  exact hs.releaseAll

theorem HeapSound.replacing (h : w.HeapSound) {o : ObjectId} {i j : Instance}
    (hi : w.instance? o = some i) (hj : j.WellFormed)
    (hhandles : ∀ v ∈ j.handles, w.isValid v) :
    ((w.heap.retainAll j.handles).setContent o (.instanceOf j)).Sound w.classes.size
      (i.handles ++ w.roots) := by
  have hs := h.retainAll fun v hv => isValid_iff_refers.1 (hhandles v hv)
  have hold : (w.heap.retainAll j.handles).instance? o = some i :=
    (Heap.instance?_congr (Heap.content?_retainAll _ _ o)).trans hi
  exact hs.setContent hold hj

theorem HeapSound.putInstance (h : w.HeapSound) {o : ObjectId} {i j : Instance}
    (hi : w.instance? o = some i) (hj : j.WellFormed)
    (hhandles : ∀ v ∈ j.handles, w.isValid v) : (w.putInstance o j).HeapSound := by
  unfold World.putInstance
  rw [hi]
  exact (h.replacing hi hj hhandles).releaseAll

private theorem perm_exchange (a b c d : List Value) :
    (a ++ (c ++ (b ++ d))).Perm (b ++ (c ++ (a ++ d))) :=
  calc
    (a ++ (c ++ (b ++ d))).Perm (c ++ (a ++ (b ++ d))) := List.perm_append_comm_assoc _ _ _
    List.Perm _ (c ++ (b ++ (a ++ d))) := (List.perm_append_comm_assoc _ _ _).append_left _
    List.Perm _ (b ++ (c ++ (a ++ d))) := List.perm_append_comm_assoc _ _ _

theorem HeapSound.putGlobals (h : w.HeapSound) {globals : PropertyMap}
    (hv : ∀ v ∈ globals.values, w.isValid v) : (w.putGlobals globals).HeapSound := by
  have hs := h.retainAll fun v hm => isValid_iff_refers.1 (hv v hm)
  apply Heap.Sound.releaseAll
  apply hs.perm
  simp only [roots, World.putGlobals, List.append_assoc]
  exact perm_exchange _ _ _ _

theorem HeapSound.defineGlobal (h : w.HeapSound) (name : QName) {v : Value} (hv : w.isValid v) :
    (w.defineGlobal name v).HeapSound := by
  apply h.putGlobals
  intro u hu
  rcases PropertyMap.mem_values_insert hu with hu | rfl
  · exact isValid_iff_refers.2 (h.refers_outside (by simp [roots, hu]))
  · exact hv

theorem HeapSound.putTargets (h : w.HeapSound) {targets : List (RunId × ObjectId)}
    (ht : ∀ e ∈ targets, e ∈ w.targets ∨ w.isValid (.object e.2)) :
    (w.putTargets targets).HeapSound := by
  have hgood : ∀ v ∈ targetHandles targets, w.heap.Refers w.classes.size v := by
    intro v hv
    obtain ⟨e, he, rfl⟩ := List.mem_map.1 hv
    rcases ht e he with he | he
    · have : Value.object e.2 ∈ targetHandles w.targets :=
        List.mem_map_of_mem (f := fun e => Value.object e.2) he
      exact h.refers_outside (by simp [roots, this])
    · exact isValid_iff_refers.1 he
  have hs := h.retainAll hgood
  apply Heap.Sound.releaseAll
  apply hs.perm
  have hx := perm_exchange (targetHandles w.targets) (targetHandles targets)
    (w.classes.handles ++ w.globals.values ++ w.frames.flatMap Frame.held) []
  rw [List.append_nil, List.append_nil] at hx
  exact hx

theorem HeapSound.allocate (h : w.HeapSound) (content : Content) {f : Frame} {rest : List Frame}
    (hf : w.frames = f :: rest) (hformed : ∀ i, content = .instanceOf i → i.WellFormed)
    (hv : ∀ v ∈ content.handles, w.isValid v) :
    { w with
      heap := ((w.heap.retainAll content.handles).allocate content).2
      frames := { f with held := Heap.handleTo w.heap.cells.length content :: f.held } :: rest
    }.HeapSound := by
  rw [heapSound_iff] at h ⊢
  have hs := (h.retainAll fun v hm => isValid_iff_refers.1 (hv v hm)).allocate hformed
  rw [Heap.length_cells_retainAll, hf] at hs
  exact hs

theorem HeapSound.newFunction (h : w.HeapSound) {f : Function}
    (hv : ∀ v ∈ f.captured, w.isValid v) : (w.newFunction f).2.HeapSound := by
  unfold World.newFunction
  cases hf : w.frames with
  | nil => exact h
  | cons g rest =>
    have hs := h.allocate (.functionOf f) hf (by rintro i ⟨⟩) hv
    rw [← Heap.length_cells_retainAll w.heap (Content.functionOf f).handles] at hs
    exact hs

theorem SameOwners.roots_eq {w' : World} (h : w.SameOwners w') : w'.roots = w.roots := by
  unfold roots
  rw [h.classes, h.globals, h.frames, h.targets]

theorem HeapSound.background {w' : World} (h : w.HeapSound) (hw : w.SameOwners w') :
    w'.HeapSound := by
  unfold HeapSound
  rw [hw.heap, hw.classes, hw.roots_eq]
  exact h

theorem sameOwners_newBacking (w : World) (spec : BackingSpec) :
    w.SameOwners (w.newBacking spec).2 := by
  cases spec with
  | timer => exact ⟨rfl, rfl, rfl, rfl, rfl, rfl, rfl⟩
  | video => exact ⟨rfl, rfl, rfl, rfl, rfl, rfl, rfl⟩
  | _ => exact SameOwners.refl w

theorem handles_fresh_newBacking (w : World) (cls : ClassId) (spec : BackingSpec) :
    (Instance.fresh cls (w.newBacking spec).1).handles = [] := by
  cases spec <;> rfl

theorem wellFormed_fresh_newBacking (w : World) (cls : ClassId) (spec : BackingSpec) :
    (Instance.fresh cls (w.newBacking spec).1).WellFormed := by
  refine ⟨PropertyMap.wellFormed_empty, fun d hd => ?_, fun _ _ => rfl⟩
  cases spec with
  | dictionary => exact Backing.dictionary.inj hd ▸ Dictionary.wellFormed_empty
  | _ => cases hd

theorem HeapSound.newInstance (h : w.HeapSound) {i : Instance} (hi : i.WellFormed)
    (hv : ∀ v ∈ i.handles, w.isValid v) : (w.newInstance i).2.HeapSound := by
  unfold World.newInstance
  cases hf : w.frames with
  | nil => exact h
  | cons g rest =>
    have hs := h.allocate (.instanceOf i) hf (fun j hj => Content.instanceOf.inj hj ▸ hi) hv
    rw [← Heap.length_cells_retainAll w.heap (Content.instanceOf i).handles] at hs
    exact hs

theorem HeapSound.spawn (h : w.HeapSound) (cls : ClassId) (spec : BackingSpec) :
    (w.spawn cls spec).2.HeapSound := by
  apply (h.background (sameOwners_newBacking w spec)).newInstance
    (wellFormed_fresh_newBacking w cls spec)
  rw [handles_fresh_newBacking]
  intro v hv
  exact absurd hv List.not_mem_nil

theorem registerClass_eq_ok {w' : World} {d : ClassDecl} {c : ClassId}
    (h : w.registerClass d = .ok (c, w')) :
    w.classes.find? d.name = none ∧ c = w.classes.size ∧
      w' = { w with
        classes := ⟨w.classes.classes ++ [w.classes.describe d]⟩
        heap := w.heap.retainAll (w.classes.describe d).handles
        }.defineGlobal d.name (.classRef w.classes.size) := by
  unfold World.registerClass ClassTable.register at h
  cases hfind : w.classes.find? d.name with
  | some c' => simp [hfind, Except.map] at h
  | none =>
    simp only [hfind, Except.map, Except.ok.injEq, Prod.mk.injEq] at h
    exact ⟨rfl, h.1.symm, h.2.symm⟩

theorem HeapSound.registerClass {w' : World} (h : w.HeapSound) {d : ClassDecl} {c : ClassId}
    (hw : w.registerClass d = .ok (c, w'))
    (hd : ∀ v ∈ (w.classes.describe d).handles, w.isValid v) : w'.HeapSound := by
  obtain ⟨-, -, rfl⟩ := registerClass_eq_ok hw
  have hn : w.classes.size ≤ (w.classes.classes ++ [w.classes.describe d]).length := by
    rw [List.length_append]
    exact Nat.le_add_right _ _
  have hs := (h.retainAll fun v hv => isValid_iff_refers.1 (hd v hv)).mono hn
  apply HeapSound.defineGlobal
  · apply hs.perm
    simp only [roots, ClassTable.handles, List.flatMap_append, List.flatMap_cons,
      List.flatMap_nil, List.append_nil, List.append_assoc]
    exact List.perm_append_comm_assoc _ _ _
  · rw [isValid_iff_refers]
    change w.classes.size < (w.classes.classes ++ [w.classes.describe d]).length
    rw [List.length_append]
    exact Nat.lt_succ_self _

private theorem perm_set {l : List Value} {i : Nat} {old : Value} (h : l[i]? = some old)
    (v : Value) : (old :: l.set i v).Perm (v :: l) := by
  induction l generalizing i with
  | nil => simp at h
  | cons u l ih =>
    cases i with
    | zero =>
      obtain rfl : u = old := by simpa using h
      exact List.Perm.swap v u l
    | succ i =>
      have hl : l[i]? = some old := by simpa using h
      exact (List.Perm.swap u old _).trans (((ih hl).cons u).trans (List.Perm.swap v u l))

theorem HeapSound.assign (h : w.HeapSound) (i : Nat) {v : Value} (hv : w.isValid v) :
    (w.assign i v).HeapSound := by
  unfold World.assign
  cases hl : w.frames.getLast? with
  | none => exact h
  | some f =>
    cases ho : f.held[i]? with
    | none =>
      simp only [ho]
      exact h
    | some old =>
      simp only [ho]
      rw [heapSound_iff] at h ⊢
      have hframes : w.frames = w.frames.dropLast ++ [f] :=
        (List.dropLast_append_getLast? f hl).symm
      have hs := h.retain (isValid_iff_refers.1 hv)
      apply Heap.Sound.releaseAll
      apply hs.perm
      rw [hframes, List.dropLast_concat]
      simp only [List.flatMap_append, List.flatMap_cons, List.flatMap_nil, List.append_nil,
        List.append_assoc]
      have hcons := List.perm_append_comm_assoc (w.frames.dropLast.flatMap Frame.held) [old]
        (f.held.set i v ++ w.others)
      have hcons' := List.perm_append_comm_assoc (w.frames.dropLast.flatMap Frame.held) [v]
        (f.held ++ w.others)
      exact hcons.symm.trans ((((perm_set ho v).append_right _).append_left _).trans hcons')

end ScriptPlayer.World
