import ScriptPlayer.Proofs.World.Contents

/-! Each step keeps a world sound, and no step revives a cell. -/
namespace ScriptPlayer

open World

/-! Frames -/

/-- The innermost frame holds something else; its purpose and the frames below are the same. -/
inductive Reheld : List Frame → List Frame → Prop
  | same (fs : List Frame) : Reheld fs fs
  | head (p : Purpose) (held held' : List Value) (rest : List Frame) :
      Reheld (⟨p, held⟩ :: rest) (⟨p, held'⟩ :: rest)

theorem Reheld.anchored {fs fs' : List Frame} (h : Reheld fs fs') (ha : Anchored fs) :
    Anchored fs' := by
  cases h with
  | same => exact ha
  | head p held held' rest => exact ha

theorem Reheld.purposes {fs fs' : List Frame} (h : Reheld fs fs') :
    fs'.map Frame.purpose = fs.map Frame.purpose := by
  cases h with
  | same => rfl
  | head p held held' rest => rfl

theorem grounded_iff {fs : List Frame} :
    Grounded fs ↔ (fs.map Frame.purpose).getLast? = some .embedder := by
  unfold Grounded
  rw [List.getLast?_map, Option.map_eq_some_iff]

theorem Anchored.replace_last {init : List Frame} {f f' : Frame} (h : Anchored (init ++ [f]))
    (hf : f.purpose = .embedder) (hf' : f'.purpose = .embedder) : Anchored (init ++ [f']) := by
  induction init with
  | nil => exact ⟨fun o ho => absurd (hf'.symm.trans ho) (by simp), trivial⟩
  | cons g init ih =>
    refine ⟨fun o ho => (h.1 o ho).mono fun k hk hp => ⟨k, ?_, hp, fun _ hv => hv⟩, ih h.2⟩
    rcases List.mem_append.1 hk with hk | hk
    · exact List.mem_append_left _ hk
    · rw [List.mem_singleton.1 hk] at hp
      exact absurd hf hp

namespace World

variable {w w' : World}

theorem overrideCalls_eq (w : World) (o : ObjectId) :
    w.overrideCalls o = (w.frames.map Frame.purpose).count (.override o) := by
  unfold overrideCalls
  rw [List.count, List.countP_map]
  rfl

theorem isGuarded_of_instance {o : ObjectId} {i : Instance} (hi : w.instance? o = some i) :
    w.isGuarded o = i.isActive := by
  rw [isGuarded, hi, Option.any_some]

theorem Sound.isGuarded_of_purposes (hs : w.Sound) (hs' : w'.Sound)
    (hp : w'.frames.map Frame.purpose = w.frames.map Frame.purpose) (o : ObjectId) :
    w'.isGuarded o = w.isGuarded o := by
  have hcalls := hs.guards o
  have hcalls' := hs'.guards o
  rw [overrideCalls_eq, hp, ← overrideCalls_eq, hcalls] at hcalls'
  cases hg : w.isGuarded o <;> cases hg' : w'.isGuarded o <;> simp_all

theorem Sound.of_purposes (hs : w.Sound) (hheap : w'.HeapSound) (hanch : Anchored w'.frames)
    (hp : w'.frames.map Frame.purpose = w.frames.map Frame.purpose)
    (hkept : ∀ o i, w'.instance? o = some i → i.isActive = w.isGuarded o) : w'.Sound where
  heap := hheap
  guards o := by
    apply guard_of_instance hheap hanch (w.isGuarded o) _ (hkept o)
    rw [overrideCalls_eq, hp, ← overrideCalls_eq]
    exact hs.guards o
  anchored := hanch
  grounded := by
    have hg := grounded_iff.1 hs.grounded
    rw [← hp] at hg
    exact grounded_iff.2 hg

theorem Sound.of_fades (hs : w.Sound) (hheap : w'.HeapSound) (hf : w.heap.Fades w'.heap)
    (hanch : Anchored w'.frames)
    (hp : w'.frames.map Frame.purpose = w.frames.map Frame.purpose) : w'.Sound :=
  hs.of_purposes hheap hanch hp fun _ _ hi => (isGuarded_of_instance (hf.instance? hi)).symm

theorem frames_popFrame {f below : Frame} {rest : List Frame} (hf : w.frames = f :: below :: rest)
    (keep : List Value) :
    (w.popFrame keep).frames = { below with held := keep ++ below.held } :: rest := by
  unfold popFrame
  rw [hf]

theorem reheld_hold (w : World) (v : Value) : Reheld w.frames (w.hold v).frames := by
  unfold hold
  cases hf : w.frames with
  | nil =>
    change Reheld [] w.frames
    rw [hf]
    exact .same []
  | cons f rest => exact .head f.purpose f.held _ rest

theorem reheld_letGo (w : World) (v : Value) : Reheld w.frames (w.letGo v).frames := by
  unfold letGo
  cases hf : w.frames with
  | nil =>
    change Reheld [] w.frames
    rw [hf]
    exact .same []
  | cons f rest =>
    dsimp only
    split
    · exact .head f.purpose f.held _ rest
    · rw [hf]
      exact .same _

theorem reheld_newInstance (w : World) (i : Instance) :
    Reheld w.frames (w.newInstance i).2.frames := by
  unfold newInstance
  cases hf : w.frames with
  | nil =>
    change Reheld [] w.frames
    rw [hf]
    exact .same []
  | cons f rest => exact .head f.purpose f.held _ rest

theorem reheld_newFunction (w : World) (fn : Function) :
    Reheld w.frames (w.newFunction fn).2.frames := by
  unfold newFunction
  cases hf : w.frames with
  | nil =>
    change Reheld [] w.frames
    rw [hf]
    exact .same []
  | cons f rest => exact .head f.purpose f.held _ rest

theorem frames_putInstance (w : World) (o : ObjectId) (j : Instance) :
    (w.putInstance o j).frames = w.frames := by
  unfold putInstance
  cases w.instance? o with
  | none => rfl
  | some i => rfl

theorem Sound.of_reheld (hs : w.Sound) (hheap : w'.HeapSound) (hf : w.heap.Fades w'.heap)
    (hr : Reheld w.frames w'.frames) : w'.Sound :=
  hs.of_fades hheap hf (hr.anchored hs.anchored) hr.purposes

theorem Sound.popFrame (hs : w.Sound) {f below : Frame} {rest : List Frame} {keep : List Value}
    (hf : w.frames = f :: below :: rest) (hkeep : ∀ v ∈ keep, w.isValid v) :
    (w.popFrame keep).HeapSound ∧ Anchored (w.popFrame keep).frames ∧
      Grounded (w.popFrame keep).frames := by
  have hanch := hs.anchored
  have hground := grounded_iff.1 hs.grounded
  rw [hf] at hanch hground
  refine ⟨HeapSound.popFrame hs.heap hf hkeep, ?_, ?_⟩
  · rw [frames_popFrame hf]
    exact hanch.2
  · rw [frames_popFrame hf, grounded_iff]
    exact hground

theorem isActive_fresh (w : World) (cls : ClassId) (spec : BackingSpec) :
    (Instance.fresh cls (w.newBacking spec).1).isActive = false := by
  cases spec <;> rfl

theorem instance?_eq_none_of_length_le {o : ObjectId} (ho : w.heap.cells.length ≤ o) :
    w.instance? o = none := by
  cases hi : w.instance? o with
  | none => rfl
  | some i =>
    obtain ⟨n, hc⟩ := Heap.content?_eq_some_iff.1 (Heap.instance?_eq_some_iff.1 hi)
    exact absurd (Heap.lt_of_get? hc) (Nat.not_lt.2 ho)

theorem instance?_spawn {cls : ClassId} {spec : BackingSpec} {o : ObjectId} {i : Instance}
    (hi : (w.spawn cls spec).2.instance? o = some i) :
    w.instance? o = some i ∨
      o = w.heap.cells.length ∧ i = .fresh cls (w.newBacking spec).1 := by
  have hown := sameOwners_newBacking w spec
  unfold spawn at hi
  cases hf : w.frames with
  | nil =>
    have hf' : (w.newBacking spec).2.frames = [] := hown.frames.trans hf
    dsimp only [newInstance] at hi
    rw [hf'] at hi
    have hi : (w.newBacking spec).2.heap.instance? o = some i := hi
    rw [hown.heap] at hi
    exact Or.inl hi
  | cons f rest =>
    have hf' : (w.newBacking spec).2.frames = f :: rest := hown.frames.trans hf
    have hx := Heap.instance?_eq_some_iff.1 hi
    rw [content?_newInstance hf', hown.heap] at hx
    split at hx
    · rename_i he
      exact Or.inr ⟨he, (Content.instanceOf.inj (Option.some.inj hx)).symm⟩
    · exact Or.inl (Heap.instance?_eq_some_iff.2 hx)

theorem instance?_newFunction {fn : Function} {o : ObjectId} {i : Instance}
    (hi : (w.newFunction fn).2.instance? o = some i) : w.instance? o = some i := by
  cases hf : w.frames with
  | nil =>
    unfold newFunction at hi
    rw [hf] at hi
    exact hi
  | cons f rest =>
    have hx := Heap.instance?_eq_some_iff.1 hi
    rw [content?_newFunction hf] at hx
    split at hx
    · exact absurd (Option.some.inj hx) (by simp)
    · exact Heap.instance?_eq_some_iff.2 hx

theorem Sound.update (hs : w.Sound) {o : ObjectId} {i j : Instance} {new : List Value}
    (hi : w.instance? o = some i) (hj : i.Update w.classes j new) (hnew : ∀ v ∈ new, w.isValid v) :
    (w.putInstance o j).Sound := by
  have hwf := hs.wellFormed hi
  have hheap : (w.putInstance o j).HeapSound := by
    apply HeapSound.putInstance hs.heap hi (hj.wellFormed hwf)
    intro v hv
    rcases hj.mem_handles hwf hv with hv | hv
    · exact hs.isValid_of_mem_handles hi hv
    · exact hnew v hv
  apply hs.of_purposes hheap
  · rw [frames_putInstance]
    exact hs.anchored
  · rw [frames_putInstance]
  · intro o' i' hi'
    have hput := instance?_putInstance hi j hi'
    split at hput
    · rename_i he
      rw [he, isGuarded_of_instance hi, hput, hj.isActive_eq]
    · exact (isGuarded_of_instance hput).symm

/-! The guard of a proxy -/

theorem overrideCalls_of_purposes {o : ObjectId}
    (hp : w'.frames.map Frame.purpose = .override o :: w.frames.map Frame.purpose)
    (o' : ObjectId) : w'.overrideCalls o' = w.overrideCalls o' + if o' = o then 1 else 0 := by
  rw [overrideCalls_eq, overrideCalls_eq, hp, List.count_cons]
  by_cases he : o' = o
  · simp [he]
  · simp [he, Ne.symm he]

theorem HeapSound.withGuard (h : w.HeapSound) {o : ObjectId} {i : Instance} {before : Bool}
    (hi : w.instance? o = some i) (hb : i.backing = .proxy before) (active : Bool) :
    (w.putInstance o (i.withGuard active)).HeapSound := by
  have hwf : i.WellFormed := h.formed o i hi
  have hj : (i.withGuard active).WellFormed := ⟨hwf.slots, by rintro d ⟨⟩, by rintro d ⟨⟩⟩
  apply h.putInstance hi hj
  intro v hv
  obtain ⟨n, hc⟩ := Heap.content?_eq_some_iff.1 (Heap.instance?_eq_some_iff.1 hi)
  apply isValid_iff_refers.2
  apply Heap.Sound.refers_content h hc
  simp only [Content.handles, Instance.handles, hb]
  exact hv

theorem instance?_withGuard {o o' : ObjectId} {i i' : Instance} {active : Bool}
    (hi : w.instance? o = some i)
    (h : (w.putInstance o (i.withGuard active)).instance? o' = some i') :
    o' = o ∧ i'.isActive = active ∨ o' ≠ o ∧ w.instance? o' = some i' := by
  have h := instance?_putInstance hi (i.withGuard active) h
  split at h
  · rename_i he
    exact Or.inl ⟨he, by rw [h]; rfl⟩
  · rename_i he
    exact Or.inr ⟨he, h⟩

/-- The guard is set as the frame for the call opens. -/
theorem Sound.enter (hs : w.Sound) {o : ObjectId} {i : Instance} (hi : w.instance? o = some i)
    (hb : i.backing = .proxy false) (ho : HeldBy w.frames (.object o)) :
    ((w.putInstance o (i.withGuard true)).pushFrame (.override o)).Sound := by
  have hheap := (HeapSound.withGuard hs.heap hi hb true).pushFrame (.override o)
  have hframes := frames_putInstance w o (i.withGuard true)
  have hanch : Anchored (⟨.override o, []⟩ :: (w.putInstance o (i.withGuard true)).frames) := by
    rw [hframes]
    exact ⟨fun o' ho' => Purpose.override.inj ho' ▸ ho, hs.anchored⟩
  have hpurposes : ((w.putInstance o (i.withGuard true)).pushFrame
      (.override o)).frames.map Frame.purpose = .override o :: w.frames.map Frame.purpose := by
    simp only [pushFrame, hframes, List.map_cons]
  have hclear : w.isGuarded o = false := by
    rw [isGuarded_of_instance hi]
    simp [Instance.isActive, hb]
  refine ⟨hheap, fun o' => ?_, hanch, ?_⟩
  · apply guard_of_instance hheap hanch (w.isGuarded o' || decide (o' = o))
    · rw [overrideCalls_of_purposes hpurposes, hs.guards o']
      by_cases he : o' = o
      · simp [he, hclear]
      · simp [he]
    · intro i' hi'
      rcases instance?_withGuard hi hi' with ⟨he, h⟩ | ⟨he, h⟩
      · simp [he, h]
      · simp [he, isGuarded_of_instance h]
  · rw [grounded_iff, hpurposes, List.getLast?_cons, grounded_iff.1 hs.grounded]
    rfl

/-- The guard is cleared as the frame of the call closes. -/
theorem Sound.leave (hs : w.Sound) {o : ObjectId} {i : Instance} {held : List Value}
    {rest : List Frame} {keep : List Value} (hf : w.frames = ⟨.override o, held⟩ :: rest)
    (hkeep : ∀ v ∈ keep, w.isValid v) (hi : (w.popFrame keep).instance? o = some i)
    (hb : i.backing = .proxy true) :
    ((w.popFrame keep).putInstance o (i.withGuard false)).Sound := by
  have hanch := hs.anchored
  rw [hf] at hanch
  cases rest with
  | nil =>
    obtain ⟨f, hm, -⟩ := hanch.1 o rfl
    exact absurd hm List.not_mem_nil
  | cons below rest =>
    obtain ⟨hpop, hanch', hground'⟩ := hs.popFrame hf hkeep
    have hheap := hpop.withGuard hi hb false
    have hframes := frames_putInstance (w.popFrame keep) o (i.withGuard false)
    rw [← hframes] at hanch' hground'
    have hpurposes : w.frames.map Frame.purpose = .override o ::
        ((w.popFrame keep).putInstance o (i.withGuard false)).frames.map Frame.purpose := by
      simp only [hframes, frames_popFrame hf, hf, List.map_cons]
    have hset : w.isGuarded o = true := by
      rw [isGuarded_of_instance ((fades_popFrame w keep).instance? hi)]
      simp [Instance.isActive, hb]
    refine ⟨hheap, fun o' => ?_, hanch', hground'⟩
    apply guard_of_instance hheap hanch' (w.isGuarded o' && !decide (o' = o))
    · have hcalls := overrideCalls_of_purposes hpurposes o'
      rw [hs.guards o'] at hcalls
      by_cases he : o' = o
      · rw [if_pos he, he, hset, if_pos rfl] at hcalls
        simp only [he, decide_true, Bool.not_true, Bool.and_false]
        exact (Nat.succ.inj hcalls).symm
      · rw [if_neg he] at hcalls
        simp only [he, decide_false, Bool.not_false, Bool.and_true]
        exact hcalls.symm
    · intro i' hi'
      rcases instance?_withGuard hi hi' with ⟨he, h⟩ | ⟨he, h⟩
      · simp [he, h]
      · simp [he, isGuarded_of_instance ((fades_popFrame w keep).instance? h)]

theorem Sound.spawn (hs : w.Sound) (cls : ClassId) (spec : BackingSpec) :
    (w.spawn cls spec).2.Sound := by
  have hheap : (w.spawn cls spec).2.HeapSound := HeapSound.spawn hs.heap cls spec
  have hr : Reheld w.frames (w.spawn cls spec).2.frames := by
    have h := reheld_newInstance (w.newBacking spec).2 (.fresh cls (w.newBacking spec).1)
    rw [(sameOwners_newBacking w spec).frames] at h
    exact h
  refine hs.of_purposes hheap (hr.anchored hs.anchored) hr.purposes fun o i hi => ?_
  rcases instance?_spawn hi with hi | ⟨ho, rfl⟩
  · exact (isGuarded_of_instance hi).symm
  · rw [isActive_fresh, isGuarded, instance?_eq_none_of_length_le (Nat.le_of_eq ho.symm)]
    rfl

theorem Sound.newFunction (hs : w.Sound) {fn : Function} (hv : ∀ v ∈ fn.captured, w.isValid v) :
    (w.newFunction fn).2.Sound := by
  have hr := reheld_newFunction w fn
  exact hs.of_purposes (HeapSound.newFunction hs.heap hv) (hr.anchored hs.anchored) hr.purposes
    fun _ _ hi => (isGuarded_of_instance (instance?_newFunction hi)).symm

theorem frames_assign (w : World) (i : Nat) (v : Value) :
    (w.assign i v).frames = w.frames ∨ ∃ f held, w.frames.getLast? = some f ∧
      (w.assign i v).frames = w.frames.dropLast ++ [{ f with held := held }] := by
  unfold World.assign
  cases hl : w.frames.getLast? with
  | none => exact Or.inl rfl
  | some f =>
    dsimp only
    cases f.held[i]? with
    | none => exact Or.inl rfl
    | some old => exact Or.inr ⟨f, _, rfl, rfl⟩

theorem purposes_assign (w : World) (i : Nat) (v : Value) :
    (w.assign i v).frames.map Frame.purpose = w.frames.map Frame.purpose := by
  rcases w.frames_assign i v with h | ⟨f, held, hl, h⟩
  · rw [h]
  · rw [h]
    conv_rhs => rw [← List.dropLast_append_getLast? f hl]
    rw [List.map_append, List.map_append]
    rfl

theorem Sound.assign (hs : w.Sound) (i : Nat) {v : Value} (hv : w.isValid v) :
    (w.assign i v).Sound := by
  have hheap := HeapSound.assign hs.heap i hv
  rcases w.frames_assign i v with h | ⟨f, held, hl, h⟩
  · exact hs.of_fades hheap (fades_assign w i v) (h ▸ hs.anchored) (by rw [h])
  · have hsplit : w.frames = w.frames.dropLast ++ [f] := (List.dropLast_append_getLast? f hl).symm
    obtain ⟨g, hg, hp⟩ := hs.grounded
    obtain rfl : f = g := Option.some.inj (hl.symm.trans hg)
    have hanch := hs.anchored
    rw [hsplit] at hanch
    apply hs.of_fades hheap (fades_assign w i v)
    · rw [h]
      exact hanch.replace_last hp hp
    · exact w.purposes_assign i v

theorem isPlain_ne_override {p : Purpose} (hp : p.isPlain) (o : ObjectId) : p ≠ .override o := by
  rintro rfl
  exact absurd hp (by simp [Purpose.isPlain])

theorem Sound.push (hs : w.Sound) {p : Purpose} (hp : p.isPlain) : (w.pushFrame p).Sound := by
  have hheap : (w.pushFrame p).HeapSound := HeapSound.pushFrame hs.heap p
  have hanch : Anchored (w.pushFrame p).frames :=
    ⟨fun o ho => absurd ho (isPlain_ne_override hp o), hs.anchored⟩
  refine ⟨hheap, fun o => ?_, hanch, ?_⟩
  · apply guard_of_instance hheap hanch (w.isGuarded o)
    · rw [overrideCalls_eq]
      simp only [pushFrame, List.map_cons]
      rw [List.count_cons_of_ne (isPlain_ne_override hp o), ← overrideCalls_eq]
      exact hs.guards o
    · exact fun i hi => (isGuarded_of_instance hi).symm
  · have hg := grounded_iff.1 hs.grounded
    rw [grounded_iff]
    simp only [pushFrame, List.map_cons]
    rw [List.getLast?_cons, hg]
    rfl

theorem Sound.pop (hs : w.Sound) {f below : Frame} {rest : List Frame} {keep : List Value}
    (hf : w.frames = f :: below :: rest) (hp : f.purpose.isPlain)
    (hkeep : ∀ v ∈ keep, w.isValid v) : (w.popFrame keep).Sound := by
  obtain ⟨hheap, hanch, hground⟩ := hs.popFrame hf hkeep
  refine ⟨hheap, fun o => ?_, hanch, hground⟩
  apply guard_of_instance hheap hanch (w.isGuarded o)
  · have hcalls := hs.guards o
    rw [overrideCalls_eq, hf, List.map_cons, List.count_cons_of_ne (isPlain_ne_override hp o)]
      at hcalls
    rw [overrideCalls_eq, frames_popFrame hf]
    exact hcalls
  · exact fun i hi => (isGuarded_of_instance ((fades_popFrame w keep).instance? hi)).symm

theorem Step.sound (h : Step w w') (hs : w.Sound) : w'.Sound := by
  cases h with
  | hold hv => exact hs.of_reheld (HeapSound.hold hs.heap hv) (fades_hold w _) (reheld_hold w _)
  | letGo v =>
    exact hs.of_reheld (HeapSound.letGo hs.heap v) (fades_letGo w v) (reheld_letGo w v)
  | push hp => exact hs.push hp
  | pop hf hp hkeep => exact hs.pop hf hp hkeep
  | enter hi hb ho => exact hs.enter hi hb ho
  | leave hf hkeep hi hb => exact hs.leave hf hkeep hi hb
  | newInstance spec hc => exact hs.spawn _ spec
  | newFunction hf => exact hs.newFunction hf
  | update hi hj hnew => exact hs.update hi hj hnew
  | defineGlobal name hv =>
    exact hs.of_reheld (HeapSound.defineGlobal hs.heap name hv) (fades_putGlobals w _) (.same _)
  | registerClass hr hsuper hd =>
    have hf : w'.frames = w.frames := by
      obtain ⟨-, -, rfl⟩ := registerClass_eq_ok hr
      rfl
    exact hs.of_reheld (HeapSound.registerClass hs.heap hr hd) (fades_registerClass hr)
      (hf ▸ .same _)
  | retarget ht =>
    exact hs.of_reheld (HeapSound.putTargets hs.heap ht) (fades_putTargets w _) (.same _)
  | background hw =>
    exact hs.of_reheld (HeapSound.background hs.heap hw) (hw.heap ▸ Heap.Fades.refl _)
      (hw.frames ▸ .same _)
  | staff hcore hruntime => exact ⟨hs.heap, hs.guards, hs.anchored, hs.grounded⟩
  | assign i hv => exact hs.assign i hv

theorem Steps.sound (h : Steps w w') (hs : w.Sound) : w'.Sound :=
  h.invariant (fun _ _ hw hstep => hstep.sound hw) hs

end World

end ScriptPlayer
