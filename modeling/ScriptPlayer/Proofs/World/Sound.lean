import ScriptPlayer.Proofs.World.Step

/-! What holds of a world at every moment: the counts of its cells are exact, a proxy's guard is set
just while a call of its override is in progress, and the frame below such a call keeps the proxy
alive. Every step keeps it. -/
namespace ScriptPlayer

/-- Under each call of an override some frame keeps the proxy alive. -/
def Anchored : List Frame → Prop
  | [] => True
  | f :: rest => (∀ o, f.purpose = .override o → HeldBy rest (.object o)) ∧ Anchored rest

def Grounded (fs : List Frame) : Prop := ∃ f, fs.getLast? = some f ∧ f.purpose = .embedder

namespace World

def isGuarded (w : World) (o : ObjectId) : Bool := (w.instance? o).any Instance.isActive

/-- Number of calls of a proxy's override in progress. -/
def overrideCalls (w : World) (o : ObjectId) : Nat :=
  w.frames.countP fun f => f.purpose == .override o

structure Sound (w : World) : Prop where
  heap : w.heap.Sound w.classes.size w.roots
  guards : ∀ o, w.overrideCalls o = if w.isGuarded o then 1 else 0
  anchored : Anchored w.frames
  grounded : Grounded w.frames

variable {w w' : World}

theorem isValid_iff_refers {v : Value} : w.isValid v ↔ w.heap.Refers w.classes.size v := by
  cases v with
  | classRef c =>
    change (w.classes.classes[c]?).isSome ↔ c < w.classes.classes.length
    rw [Option.isSome_iff_ne_none, ne_eq, List.getElem?_eq_none_iff, Nat.not_le]
  | _ => exact Iff.rfl

theorem mem_roots_of_heldBy {v : Value} (h : HeldBy w.frames v) : v ∈ w.roots := by
  obtain ⟨f, hf, -, hv⟩ := h
  have : v ∈ w.frames.flatMap Frame.held := List.mem_flatMap.2 ⟨f, hf, hv⟩
  simp [roots, this]

namespace Sound

theorem isValid_of_mem_roots (h : w.Sound) {v : Value} (hv : v ∈ w.roots) : w.isValid v :=
  isValid_iff_refers.2 (h.heap.refers_outside hv)

theorem isValid_of_heldBy (h : w.Sound) {v : Value} (hv : HeldBy w.frames v) : w.isValid v :=
  h.isValid_of_mem_roots (mem_roots_of_heldBy hv)

theorem isValid_of_mem_handles (h : w.Sound) {o : ObjectId} {i : Instance}
    (hi : w.instance? o = some i) {v : Value} (hv : v ∈ i.handles) : w.isValid v := by
  obtain ⟨n, hc⟩ := Heap.content?_eq_some_iff.1 (Heap.instance?_eq_some_iff.1 hi)
  exact isValid_iff_refers.2 (h.heap.refers_content hc hv)

theorem exists_instance_of_heldBy (h : w.Sound) {o : ObjectId}
    (ho : HeldBy w.frames (.object o)) : ∃ i, w.instance? o = some i :=
  Option.isSome_iff_exists.1 (h.isValid_of_heldBy ho)

theorem wellFormed (h : w.Sound) {o : ObjectId} {i : Instance} (hi : w.instance? o = some i) :
    i.WellFormed := h.heap.formed o i hi

theorem exists_frame (h : w.Sound) : ∃ f rest, w.frames = f :: rest := by
  obtain ⟨f, hf, -⟩ := h.grounded
  cases hw : w.frames with
  | nil => rw [hw] at hf; exact absurd hf (by simp)
  | cons g rest => exact ⟨g, rest, rfl⟩

end Sound

/-! Frames -/

theorem overrideCalls_pos_iff {o : ObjectId} :
    0 < w.overrideCalls o ↔ ∃ f ∈ w.frames, f.purpose = .override o := by
  unfold overrideCalls
  rw [List.countP_pos_iff]
  simp only [beq_iff_eq]

end World

theorem HeldBy.mono {fs fs' : List Frame} {v : Value} (h : HeldBy fs v)
    (hsub : ∀ f ∈ fs, f.purpose ≠ .embedder →
      ∃ f' ∈ fs', f'.purpose ≠ .embedder ∧ ∀ v ∈ f.held, v ∈ f'.held) : HeldBy fs' v := by
  obtain ⟨f, hf, hp, hv⟩ := h
  obtain ⟨f', hf', hp', hheld⟩ := hsub f hf hp
  exact ⟨f', hf', hp', hheld v hv⟩

theorem HeldBy.cons {fs : List Frame} {v : Value} (h : HeldBy fs v) (f : Frame) :
    HeldBy (f :: fs) v :=
  h.mono fun g hg hp => ⟨g, List.mem_cons_of_mem f hg, hp, fun _ hv => hv⟩

theorem Anchored.heldBy {fs : List Frame} (h : Anchored fs) {o : ObjectId} {f : Frame}
    (hf : f ∈ fs) (hp : f.purpose = .override o) : HeldBy fs (.object o) := by
  induction fs with
  | nil => exact absurd hf List.not_mem_nil
  | cons g rest ih =>
    rcases List.mem_cons.1 hf with rfl | hf
    · exact (h.1 o hp).cons f
    · exact (ih h.2 hf).cons g

namespace World

variable {w : World}

/-- The guard of a proxy matches the calls in progress if it is right whenever the proxy exists. A
proxy with a call in progress does exist, since a frame keeps it alive. -/
theorem guard_of_instance (hheap : w.heap.Sound w.classes.size w.roots)
    (hanch : Anchored w.frames) {o : ObjectId} (active : Bool)
    (hcalls : w.overrideCalls o = if active then 1 else 0)
    (hkept : ∀ i, w.instance? o = some i → i.isActive = active) :
    w.overrideCalls o = if w.isGuarded o then 1 else 0 := by
  rw [hcalls]
  cases hi : w.instance? o with
  | some i =>
    have hg : w.isGuarded o = i.isActive := by rw [isGuarded, hi, Option.any_some]
    rw [hg, hkept i hi]
  | none =>
    have hg : w.isGuarded o = false := by rw [isGuarded, hi, Option.any_none]
    rw [hg]
    cases active with
    | false => rfl
    | true =>
      have hpos : 0 < w.overrideCalls o := by rw [hcalls]; exact Nat.one_pos
      obtain ⟨f, hf, hp⟩ := overrideCalls_pos_iff.1 hpos
      have hroot := mem_roots_of_heldBy (hanch.heldBy hf hp)
      have halive : (w.instance? o).isSome := hheap.refers_outside hroot
      rw [hi] at halive
      exact absurd halive (by simp)

end World

end ScriptPlayer
