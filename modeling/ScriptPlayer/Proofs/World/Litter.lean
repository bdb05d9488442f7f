import ScriptPlayer.Proofs.World.Lifetime
import ScriptPlayer.Proofs.World.Resembles

/-! What a run that comes to nothing may have done so far: it has taken handles and made cells, both
of which go with its frames, and it has set guards. What every such change keeps is that the world
resembles the one before, but for the frames that are open. -/
namespace ScriptPlayer.World

variable {b w w' : World} {fs : List Frame}

structure SameWorkers (w w' : World) : Prop where
  screens : w'.screens = w.screens
  sources : w'.sources = w.sources
  clockwork : w'.clockwork = w.clockwork
  decoders : w'.decoders = w.decoders
  pool : w'.pool = w.pool

/-- What becomes of timer counters, screens and workers meanwhile: workers move, and new instances
get storage. Nothing else does anything to them. -/
inductive Drifts (w : World) : World → Prop
  | refl : Drifts w w
  | move {w₁ w₂ : World} {m : Move} (h : Drifts w w₁) (hm : w₁.move m = some w₂) : Drifts w w₂
  | storage {w₁ : World} (spec : BackingSpec) (h : Drifts w w₁) :
      Drifts w (w₁.newBacking spec).2
  | elsewhere {w₁ w₂ : World} (h : Drifts w w₁) (hsame : w₁.SameWorkers w₂) : Drifts w w₂

theorem Drifts.trans (h : b.Drifts w) (h' : w.Drifts w') : b.Drifts w' := by
  induction h' with
  | refl => exact h
  | move _ hm ih => exact ih.move hm
  | storage spec _ ih => exact ih.storage spec
  | elsewhere _ hsame ih => exact ih.elsewhere hsame

theorem Drifts.moveAll (h : b.Drifts w) (moves : List Move) : b.Drifts (w.moveAll moves) := by
  unfold World.moveAll
  induction moves generalizing w with
  | nil => exact h
  | cons m moves ih =>
    rw [List.foldl_cons]
    cases hm : w.move m with
    | none => exact ih h
    | some w' => exact ih (h.move hm)

structure SameFixtures (w w' : World) : Prop extends w.SameClasses w' where
  globals : w'.globals = w.globals
  targets : w'.targets = w.targets

theorem SameFixtures.refl (w : World) : w.SameFixtures w := ⟨.refl w, rfl, rfl⟩

theorem SameFixtures.trans {w₁ w₂ w₃ : World} (h : w₁.SameFixtures w₂)
    (h' : w₂.SameFixtures w₃) : w₁.SameFixtures w₃ :=
  ⟨h.toSameClasses.trans h'.toSameClasses, h'.globals.trans h.globals, h'.targets.trans h.targets⟩

theorem SameOwners.sameFixtures (h : w.SameOwners w') : w.SameFixtures w' :=
  ⟨h.sameClasses, h.globals, h.targets⟩

theorem SameFixtures.others_eq (h : w.SameFixtures w') : w'.others = w.others := by
  unfold others
  rw [h.classes, h.globals, h.targets]

structure SameRest (w w' : World) : Prop extends w.SameFixtures w', w.SameWorkers w'

theorem Reframes.sameRest (h : w.Reframes w') : w.SameRest w' := by
  cases h
  exact ⟨⟨⟨rfl, rfl, rfl⟩, rfl, rfl⟩, ⟨rfl, rfl, rfl, rfl, rfl⟩⟩

/-- Beyond what was in `b`, whose frames are all below the innermost one, there is only what goes
with the frames that have been opened since. -/
structure Litters (b : World) (fs : List Frame) (w : World) : Prop where
  base : b.HeapSound
  heap : w.HeapSound
  frames : ∃ f, w.frames = f :: fs
  above : ∀ f ∈ b.frames, f ∈ fs
  resembles : b.heap.Resembles w.heap
  fixtures : b.SameFixtures w
  drifts : b.Drifts w

namespace Litters

theorem size_eq (h : b.Litters fs w) : w.classes.size = b.classes.size := by
  rw [h.fixtures.classes]

theorem mem_of_mem_roots (h : b.Litters fs w) {v : Value} (hv : v ∈ b.roots) :
    v ∈ fs.flatMap Frame.held ++ w.others := by
  rw [List.mem_append]
  rcases List.mem_append.1 (b.roots_perm.mem_iff.1 hv) with hv | hv
  · obtain ⟨f, hf, hv⟩ := List.mem_flatMap.1 hv
    exact .inl (List.mem_flatMap.2 ⟨f, h.above f hf, hv⟩)
  · exact .inr (h.fixtures.others_eq ▸ hv)

theorem sound_base (h : b.Litters fs w) : b.heap.Sound w.classes.size b.roots :=
  h.size_eq ▸ h.base

theorem isValid_of_mem_roots (h : b.Litters fs w) {v : Value} (hv : v ∈ w.roots) :
    w.isValid v := isValid_iff_refers.2 (h.heap.refers_outside hv)

theorem isValid_of_class (h : b.Litters fs w) {v : Value} (hv : v ∈ b.classes.handles) :
    w.isValid v := by
  rw [← h.fixtures.classes] at hv
  exact h.isValid_of_mem_roots (by simp [roots, hv])

theorem start (hb : b.HeapSound) (p : Purpose) : b.Litters b.frames (b.pushFrame p) where
  base := hb
  heap := hb.pushFrame p
  frames := ⟨⟨p, []⟩, rfl⟩
  above _ hf := hf
  resembles := .refl b.heap
  fixtures := (reframes_pushFrame b p).sameRest.toSameFixtures
  drifts := Drifts.refl.elsewhere (reframes_pushFrame b p).sameRest.toSameWorkers

theorem background (h : b.Litters fs w) (hw : w.SameOwners w') (hd : b.Drifts w') :
    b.Litters fs w' where
  base := h.base
  heap := h.heap.background hw
  frames := hw.frames ▸ h.frames
  above := h.above
  resembles := hw.heap ▸ h.resembles
  fixtures := h.fixtures.trans hw.sameFixtures
  drifts := hd

theorem change (h : b.Litters fs w) (hheap : w'.HeapSound) (hframes : ∃ f, w'.frames = f :: fs)
    (hresembles : b.heap.Resembles w'.heap) (hrest : w.SameRest w') : b.Litters fs w' where
  base := h.base
  heap := hheap
  frames := hframes
  above := h.above
  resembles := hresembles
  fixtures := h.fixtures.trans hrest.toSameFixtures
  drifts := h.drifts.elsewhere hrest.toSameWorkers

theorem hold (h : b.Litters fs w) {v : Value} (hv : w.isValid v) : b.Litters fs (w.hold v) := by
  obtain ⟨f, hf⟩ := h.frames
  refine h.change (h.heap.hold hv) ?_ ?_ (reframes_hold w v).sameRest
  · unfold World.hold
    rw [hf]
    exact ⟨_, rfl⟩
  · exact h.resembles.congr (fades_hold w v).length (content?_hold w v)

theorem pushFrame (h : b.Litters fs w) {f : Frame} (hf : w.frames = f :: fs) (p : Purpose) :
    b.Litters (f :: fs) (w.pushFrame p) where
  base := h.base
  heap := h.heap.pushFrame p
  frames := ⟨⟨p, []⟩, congrArg _ hf⟩
  above g hg := List.mem_cons_of_mem f (h.above g hg)
  resembles := h.resembles
  fixtures := h.fixtures.trans (reframes_pushFrame w p).sameRest.toSameFixtures
  drifts := h.drifts.elsewhere (reframes_pushFrame w p).sameRest.toSameWorkers

/-- None of the old cells goes with what a frame gives up at its end. -/
theorem resembles_popFrame {below : Frame} (h : b.Litters (below :: fs) w) {keep : List Value}
    (hkeep : ∀ v ∈ keep, w.isValid v) : b.heap.Resembles (w.popFrame keep).heap := by
  obtain ⟨f, hf⟩ := h.frames
  have hretained : b.heap.Resembles (w.heap.retainAll keep) :=
    h.resembles.congr (Heap.length_cells_retainAll _ _) (Heap.content?_retainAll _ _)
  have hpop : (w.popFrame keep).heap = (w.heap.retainAll keep).releaseAll f.held := by
    unfold World.popFrame
    rw [hf]
  rw [hpop]
  refine hretained.releaseAll h.sound_base (h.heap.closing hf hkeep) fun v hv => ?_
  have hmem := h.mem_of_mem_roots hv
  simp only [List.flatMap_cons, List.mem_append] at hmem ⊢
  tauto

theorem popFrame {below : Frame} (h : b.Litters (below :: fs) w) {keep : List Value}
    (hkeep : ∀ v ∈ keep, w.isValid v) (habove : ∀ f ∈ b.frames, f ∈ fs) :
    b.Litters fs (w.popFrame keep) := by
  obtain ⟨f, hf⟩ := h.frames
  exact {
    base := h.base
    heap := h.heap.popFrame hf hkeep
    frames := ⟨_, frames_popFrame hf keep⟩
    above := habove
    resembles := h.resembles_popFrame hkeep
    fixtures := h.fixtures.trans (reframes_popFrame w keep).sameRest.toSameFixtures
    drifts := h.drifts.elsewhere (reframes_popFrame w keep).sameRest.toSameWorkers }

theorem putInstance (h : b.Litters fs w) {o : ObjectId} {i j : Instance}
    (hi : w.instance? o = some i) (hj : j.WellFormed) (hvalid : ∀ v ∈ j.handles, w.isValid v)
    (hold : o < b.heap.cells.length → j.unguarded = i.unguarded)
    (hnew : b.heap.cells.length ≤ o → (Content.instanceOf j).IsLitter b.heap.cells.length) :
    b.Litters fs (w.putInstance o j) := by
  have hretained : b.heap.Resembles (w.heap.retainAll j.handles) :=
    h.resembles.congr (Heap.length_cells_retainAll _ _) (Heap.content?_retainAll _ _)
  have hi' : (w.heap.retainAll j.handles).instance? o = some i :=
    (Heap.instance?_congr (Heap.content?_retainAll _ _ o)).trans hi
  have hput : (w.putInstance o j).heap =
      ((w.heap.retainAll j.handles).setContent o (.instanceOf j)).releaseAll i.handles := by
    unfold World.putInstance
    rw [hi]
  obtain ⟨f, hf⟩ := h.frames
  refine h.change (h.heap.putInstance hi hj hvalid) ⟨f, (frames_putInstance w o j).trans hf⟩ ?_
    (reframes_putInstance w o j).sameRest
  rw [hput]
  refine (hretained.setContent hi' hold hnew).releaseAll h.sound_base
    (h.heap.replacing hi hj hvalid) fun v hv => ?_
  have hmem := h.mem_of_mem_roots hv
  refine w.roots_perm.mem_iff.2 ?_
  rw [hf]
  simp only [List.flatMap_cons, List.mem_append] at hmem ⊢
  tauto

theorem withGuard (h : b.Litters fs w) {o : ObjectId} {i : Instance} {before : Bool}
    (hi : w.instance? o = some i) (hb : i.backing = .proxy before) (active : Bool) :
    b.Litters fs (w.putInstance o (i.withGuard active)) := by
  have hwf : i.WellFormed := h.heap.formed o i hi
  have hhandles : (i.withGuard active).handles = i.handles := by
    simp [Instance.handles, Instance.withGuard, hb, Backing.handles]
  refine h.putInstance hi ⟨hwf.slots, by rintro d ⟨⟩, by rintro d ⟨⟩⟩ (fun v hv => ?_)
    (fun _ => Instance.unguarded_withGuard hb active) fun hlt => ?_
  · obtain ⟨n, hc⟩ := Heap.content?_eq_some_iff.1 (Heap.instance?_eq_some_iff.1 hi)
    rw [hhandles] at hv
    exact isValid_iff_refers.2 (Heap.Sound.refers_content h.heap hc hv)
  · have hlitter := h.resembles.litter o _ hlt (Heap.instance?_eq_some_iff.1 hi)
    intro k hk
    exact hlitter k (hhandles ▸ hk)

theorem update (h : b.Litters fs w) {o : ObjectId} {i j : Instance} {new : List Value}
    (ho : b.heap.cells.length ≤ o) (hi : w.instance? o = some i) (hj : i.Update w.classes j new)
    (hnew : ∀ v ∈ new, w.isValid v) (hfunctions : ∀ k, Value.object k ∉ new) :
    b.Litters fs (w.putInstance o j) := by
  have hwf : i.WellFormed := h.heap.formed o i hi
  refine h.putInstance hi (hj.wellFormed hwf) (fun v hv => ?_)
    (fun hlt => absurd hlt (Nat.not_lt.2 ho)) fun _ k hk => ?_
  · rcases hj.mem_handles hwf hv with hv | hv
    · obtain ⟨n, hc⟩ := Heap.content?_eq_some_iff.1 (Heap.instance?_eq_some_iff.1 hi)
      exact isValid_iff_refers.2 (Heap.Sound.refers_content h.heap hc hv)
    · exact hnew v hv
  · have hlitter := h.resembles.litter o _ ho (Heap.instance?_eq_some_iff.1 hi)
    exact hlitter k ((hj.mem_handles hwf hk).resolve_right (hfunctions k))

theorem spawn (h : b.Litters fs w) (cls : ClassId) (spec : BackingSpec) :
    b.Litters fs (w.spawn cls spec).2 := by
  have howners := sameOwners_newBacking w spec
  have h' := h.background howners (h.drifts.storage spec)
  have hhandles := handles_fresh_newBacking w cls spec
  obtain ⟨f, hf⟩ := h'.frames
  refine h'.change (h.heap.spawn cls spec) ?_ ?_ (reframes_newInstance _ _).sameRest
  · unfold World.spawn World.newInstance
    simp only [hf]
    exact ⟨_, rfl⟩
  · unfold World.spawn World.newInstance
    simp only [hf]
    refine (h'.resembles.congr (Heap.length_cells_retainAll _ _)
      (Heap.content?_retainAll _ _)).allocate fun k hk => ?_
    rw [hhandles] at hk
    exact absurd hk List.not_mem_nil

theorem le_spawn (h : b.Litters fs w) (cls : ClassId) (spec : BackingSpec) :
    b.heap.cells.length ≤ (w.spawn cls spec).1 := by
  have howners := sameOwners_newBacking w spec
  obtain ⟨f, hf⟩ := h.frames
  have hid : (w.spawn cls spec).1 = (w.newBacking spec).2.heap.cells.length := by
    unfold World.spawn World.newInstance
    simp only [howners.frames.trans hf]
    exact Heap.length_cells_retainAll _ _
  rw [hid, howners.heap]
  exact h.resembles.length

theorem newFunction (h : b.Litters fs w) {fn : Function} (hfn : fn.captured = []) :
    b.Litters fs (w.newFunction fn).2 := by
  obtain ⟨f, hf⟩ := h.frames
  have hvalid : ∀ v ∈ fn.captured, w.isValid v := by simp [hfn]
  refine h.change (h.heap.newFunction hvalid) ?_ ?_ (reframes_newFunction _ _).sameRest
  · unfold World.newFunction
    rw [hf]
    exact ⟨_, rfl⟩
  · unfold World.newFunction
    rw [hf]
    exact (h.resembles.congr (Heap.length_cells_retainAll _ _)
      (Heap.content?_retainAll _ _)).allocate hfn

theorem trace (h : b.Litters fs w) (items : List Snapshot) :
    b.Litters fs { w with trace := items :: w.trace } :=
  h.change h.heap h.frames h.resembles
    ⟨⟨⟨rfl, rfl, rfl⟩, rfl, rfl⟩, ⟨rfl, rfl, rfl, rfl, rfl⟩⟩

end Litters

/-- A world in which nothing has changed that is not for the workers to change: every cell, with its
count, and everything that handles are kept in. -/
structure Unharmed (b w : World) : Prop where
  cells : ∀ id, w.heap.get? id = b.heap.get? id
  frames : w.frames = b.frames
  fixtures : b.SameFixtures w
  drifts : b.Drifts w

def letGoAll (w : World) (vs : List Value) : World := vs.foldl letGo w

theorem get?_letGoAll_congr (hcells : ∀ id, w'.heap.get? id = w.heap.get? id)
    (hframes : w'.frames = w.frames) (vs : List Value) (id : Nat) :
    (w'.letGoAll vs).heap.get? id = (w.letGoAll vs).heap.get? id := by
  induction vs generalizing w w' with
  | nil => exact hcells id
  | cons v vs ih =>
    have hstep : (∀ k, (w'.letGo v).heap.get? k = (w.letGo v).heap.get? k) ∧
        (w'.letGo v).frames = (w.letGo v).frames := by
      unfold letGo
      rw [hframes]
      cases w.frames with
      | nil => exact ⟨hcells, hframes⟩
      | cons f rest =>
        dsimp only
        split
        · exact ⟨Heap.get?_releaseAll_congr hcells, rfl⟩
        · exact ⟨hcells, hframes⟩
    exact ih hstep.1 hstep.2

theorem Unharmed.before (h : w.Unharmed w') (hw : b.SameOwners w) (hd : b.Drifts w) :
    b.Unharmed w' where
  cells id := (h.cells id).trans (congrArg (Heap.get? · id) hw.heap)
  frames := h.frames.trans hw.frames
  fixtures := hw.sameFixtures.trans h.fixtures
  drifts := hd.trans h.drifts

/-- Once its frame closes a run that only littered has changed nothing. -/
theorem Litters.unharmed_popFrame (h : b.Litters b.frames w) (hb : b.Sound)
    (hs : (w.popFrame []).Sound) : b.Unharmed (w.popFrame []) := by
  obtain ⟨below, rest, hframes⟩ := hb.exists_frame
  have h' := hframes ▸ h
  obtain ⟨f, hf⟩ := h'.frames
  have hpop : (w.popFrame []).frames = b.frames := by
    rw [frames_popFrame hf, hframes]
    rfl
  have hfixtures := h.fixtures.trans (reframes_popFrame w []).sameRest.toSameFixtures
  have hroots : (w.popFrame []).roots = b.roots := by
    unfold roots
    rw [hfixtures.classes, hfixtures.globals, hfixtures.targets, hpop]
  have hsize : (w.popFrame []).classes.size = b.classes.size := by rw [hfixtures.classes]
  refine ⟨fun id => ?_, hpop, hfixtures,
    h.drifts.elsewhere (reframes_popFrame w []).sameRest.toSameWorkers⟩
  refine (h'.resembles_popFrame (by simp)).get?_eq hb.heap (hroots ▸ hsize ▸ hs.heap)
    (fun o i j hi hj => ?_) id
  have hguard := hb.isGuarded_of_purposes hs (congrArg _ hpop) o
  rwa [isGuarded_of_instance hi, isGuarded_of_instance hj] at hguard

end ScriptPlayer.World
