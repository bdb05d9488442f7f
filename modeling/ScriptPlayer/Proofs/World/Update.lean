import ScriptPlayer.Proofs.Ownership.Heap

/-! The changes that can happen to an instance that exists, each with the values that it brings in.
The class stays, and so does the guard of a proxy. -/
namespace ScriptPlayer

namespace Instance

def isActive (i : Instance) : Bool :=
  match i.backing with
  | .proxy active => active
  | _ => false

/-- `i.Update t j new`: among the classes `t` the instance `i` can become `j`, which may own the
values `new` besides what `i` owned. A name gets a slot only where no setter takes the value. -/
inductive Update (t : ClassTable) (i : Instance) : Instance → List Value → Prop
  | same : i.Update t i []
  | slot (name : QName) (v : Value) (h : ∀ d, i.backing ≠ .dictionary d)
      (hset : i.setter? t name = none) :
      i.Update t { i with slots := (i.slots.insert name v).2 } [v]
  | unslot (name : QName) : i.Update t { i with slots := (i.slots.remove name).2 } []
  | bind (kind : TraitKind) (name : QName) (f : FunctionId) :
      i.Update t (i.bind kind name f) [.function f]
  | install : i.Update t { i with installed := true } []
  | bytes (b b' : ByteBuffer) (h : i.backing = .bytes b) :
      i.Update t { i with backing := .bytes b' } []
  | entry (d : Dictionary) (key : DictKey) (v : Value) (h : i.backing = .dictionary d) :
      i.Update t { i with backing := .dictionary (d.set key v).2 } [key.toValue, v]
  | unentry (d : Dictionary) (key : DictKey) (h : i.backing = .dictionary d) :
      i.Update t { i with backing := .dictionary (d.delete key).2 } []
  | listen (l : Listeners) (timer : Option TimerState) (kind : String) (f : FunctionId)
      (h : i.backing = .host (.eventTarget l timer)) :
      i.Update t { i with backing := .host (.eventTarget (l.add kind f) timer) } [.function f]
  | unlisten (l : Listeners) (timer : Option TimerState) (kind : String) (f : FunctionId)
      (h : i.backing = .host (.eventTarget l timer)) :
      i.Update t { i with backing := .host (.eventTarget (l.remove kind f).2 timer) } []
  | timer (l : Listeners) (old new : Option TimerState)
      (h : i.backing = .host (.eventTarget l old)) :
      i.Update t { i with backing := .host (.eventTarget l new) } []
  | video (old new : VideoState) (h : i.backing = .host (.video old)) :
      i.Update t { i with backing := .host (.video new) } []

end Instance

/-! What the updates bring in -/

theorem TraitTable.mem_handles_define {t : TraitTable} {name : QName} {kind : TraitKind}
    {f : FunctionId} {v : Value} (hv : v ∈ (t.define name kind f).handles) :
    v ∈ t.handles ∨ v = .function f := by
  have hdefine : ∀ (trait : Trait) (g : FunctionId), g ∈ (trait.define kind f).functions →
      g ∈ trait.functions ∨ g = f := by
    intro trait g hg
    cases kind with
    | getter => grind [Trait.define, Trait.functions]
    | setter => grind [Trait.define, Trait.functions]
    | method => grind [Trait.define, Trait.functions]
  obtain ⟨e, he, hv⟩ := List.mem_flatMap.1 hv
  obtain ⟨g, hg, rfl⟩ := List.mem_map.1 hv
  unfold TraitTable.define at he
  split at he
  · obtain ⟨e', he', rfl⟩ := List.mem_map.1 he
    split at hg
    · rcases hdefine e'.2 g hg with h | h
      · exact Or.inl (List.mem_flatMap.2 ⟨e', he', List.mem_map_of_mem h⟩)
      · exact Or.inr (congrArg Value.function h)
    · exact Or.inl (List.mem_flatMap.2 ⟨e', he', List.mem_map_of_mem hg⟩)
  · rcases List.mem_append.1 he with he | he
    · exact Or.inl (List.mem_flatMap.2 ⟨e, he, List.mem_map_of_mem hg⟩)
    · rw [List.mem_singleton.1 he] at hg
      rcases hdefine Trait.empty g hg with h | h
      · exact absurd h List.not_mem_nil
      · exact Or.inr (congrArg Value.function h)

theorem PropertyMap.mem_values_insert {m : PropertyMap} {name : QName} {v u : Value}
    (hu : u ∈ (m.insert name v).2.values) : u ∈ m.values ∨ u = v := by
  obtain ⟨e, he, rfl⟩ := List.mem_map.1 hu
  unfold PropertyMap.insert at he
  split at he
  · rcases List.mem_or_eq_of_mem_set he with he | rfl
    · exact Or.inl (List.mem_map_of_mem he)
    · exact Or.inr rfl
  · rcases List.mem_append.1 he with he | he
    · exact Or.inl (List.mem_map_of_mem he)
    · rw [List.mem_singleton.1 he]
      exact Or.inr rfl

theorem PropertyMap.mem_values_remove {m : PropertyMap} {name : QName} {u : Value}
    (hu : u ∈ (m.remove name).2.values) : u ∈ m.values := by
  obtain ⟨e, he, rfl⟩ := List.mem_map.1 hu
  unfold PropertyMap.remove at he
  split at he
  · exact List.mem_map_of_mem he
  · exact List.mem_map_of_mem (List.mem_of_mem_eraseIdx he)

theorem Dictionary.mem_handles_iff {d : Dictionary} {u : Value} :
    u ∈ d.handles ↔ ∃ e ∈ d.entries, u = e.1.toValue ∨ u = e.2 := by
  unfold handles
  simp [List.mem_flatMap]

theorem Dictionary.WellFormed.mem_handles_set {d : Dictionary} (h : d.WellFormed) {key : DictKey}
    {v u : Value} (hu : u ∈ (d.set key v).2.handles) :
    u ∈ d.handles ∨ u = key.toValue ∨ u = v := by
  obtain ⟨e, he, hu⟩ := mem_handles_iff.1 hu
  rw [(h.set_eq key v).2, Assoc.set] at he
  split at he
  · obtain ⟨e', he', rfl⟩ := List.mem_map.1 he
    split at hu
    · exact Or.inr hu
    · exact Or.inl (mem_handles_iff.2 ⟨e', he', hu⟩)
  · rcases List.mem_append.1 he with he | he
    · exact Or.inl (mem_handles_iff.2 ⟨e, he, hu⟩)
    · rw [List.mem_singleton.1 he] at hu
      exact Or.inr hu

theorem Dictionary.WellFormed.mem_handles_delete {d : Dictionary} (h : d.WellFormed)
    {key : DictKey} {u : Value} (hu : u ∈ (d.delete key).2.handles) : u ∈ d.handles := by
  obtain ⟨e, he, hu⟩ := mem_handles_iff.1 hu
  rw [(h.delete_eq_find? key).2] at he
  exact mem_handles_iff.2 ⟨e, (Assoc.delete_sublist _ _).subset he, hu⟩

theorem Listeners.mem_handles_add {l : Listeners} {kind : String} {f : FunctionId} {u : Value}
    (hu : u ∈ (l.add kind f).handles) : u ∈ l.handles ∨ u = .function f := by
  unfold Listeners.add at hu
  split at hu
  · exact Or.inl hu
  · obtain ⟨e, he, rfl⟩ := List.mem_map.1 hu
    rcases List.mem_append.1 he with he | he
    · exact Or.inl (List.mem_map_of_mem he)
    · rw [List.mem_singleton.1 he]
      exact Or.inr rfl

theorem Listeners.mem_handles_remove {l : Listeners} {kind : String} {f : FunctionId} {u : Value}
    (hu : u ∈ (l.remove kind f).2.handles) : u ∈ l.handles := by
  obtain ⟨e, he, rfl⟩ := List.mem_map.1 hu
  exact List.mem_map_of_mem (List.mem_of_mem_filter he)

namespace Instance.Update

variable {t : ClassTable} {i j : Instance} {new : List Value}

theorem cls_eq (h : i.Update t j new) : j.cls = i.cls := by cases h <;> rfl

theorem isActive_eq (h : i.Update t j new) : j.isActive = i.isActive := by
  cases h with
  | same | slot | unslot | bind | install => rfl
  | bytes b b' h => simp [isActive, h]
  | entry d key v h => simp [isActive, h]
  | unentry d key h => simp [isActive, h]
  | listen l timer kind f h => simp [isActive, h]
  | unlisten l timer kind f h => simp [isActive, h]
  | timer l old new h => simp [isActive, h]
  | video old new h => simp [isActive, h]

theorem wellFormed (h : i.Update t j new) (hi : i.WellFormed) : j.WellFormed := by
  cases h with
  | same => exact hi
  | slot name v h hset => exact ⟨hi.slots.insert name v, hi.dictionary, fun d hd => absurd hd (h d)⟩
  | unslot name =>
    refine ⟨hi.slots.remove name, hi.dictionary, fun d hd => ?_⟩
    rw [(hi.slots.remove_eq name).2, hi.slotless d hd]
    rfl
  | bind kind name f => exact ⟨hi.slots, hi.dictionary, hi.slotless⟩
  | install => exact ⟨hi.slots, hi.dictionary, hi.slotless⟩
  | entry d key v h =>
    exact ⟨hi.slots, fun d' hd' => Backing.dictionary.inj hd' ▸ (hi.dictionary d h).set key v,
      fun _ _ => hi.slotless d h⟩
  | unentry d key h =>
    exact ⟨hi.slots, fun d' hd' => Backing.dictionary.inj hd' ▸ (hi.dictionary d h).delete key,
      fun _ _ => hi.slotless d h⟩
  | bytes | listen | unlisten | timer | video =>
    exact ⟨hi.slots, by rintro d ⟨⟩, by rintro d ⟨⟩⟩

/-- Every handle of the result was there before or came with the update. -/
theorem mem_handles (h : i.Update t j new) (hi : i.WellFormed) {v : Value} (hv : v ∈ j.handles) :
    v ∈ i.handles ∨ v ∈ new := by
  simp only [handles, List.mem_append] at hv ⊢
  cases h with
  | slot name u h hset =>
    rcases hv with (hv | hv) | hv
    · rcases PropertyMap.mem_values_insert hv with h | h
      · exact Or.inl (Or.inl (Or.inl h))
      · exact Or.inr (List.mem_singleton.2 h)
    · exact Or.inl (Or.inl (Or.inr hv))
    · exact Or.inl (Or.inr hv)
  | unslot name => exact Or.inl (hv.imp_left (Or.imp_left PropertyMap.mem_values_remove))
  | bind kind name f =>
    rcases hv with (hv | hv) | hv
    · exact Or.inl (Or.inl (Or.inl hv))
    · rcases TraitTable.mem_handles_define hv with h | h
      · exact Or.inl (Or.inl (Or.inr h))
      · exact Or.inr (List.mem_singleton.2 h)
    · exact Or.inl (Or.inr hv)
  | same | install => exact Or.inl hv
  | entry d key u h =>
    refine hv.elim (fun hv => Or.inl (Or.inl hv)) fun hv => ?_
    rcases (hi.dictionary d h).mem_handles_set hv with h' | h' | h'
    · exact Or.inl (Or.inr (by rw [h]; exact h'))
    · exact Or.inr (by simp [h'])
    · exact Or.inr (by simp [h'])
  | unentry d key h =>
    refine hv.elim (fun hv => Or.inl (Or.inl hv)) fun hv => Or.inl (Or.inr ?_)
    rw [h]
    exact (hi.dictionary d h).mem_handles_delete hv
  | listen l timer kind f h =>
    refine hv.elim (fun hv => Or.inl (Or.inl hv)) fun hv => ?_
    rcases Listeners.mem_handles_add hv with h' | h'
    · exact Or.inl (Or.inr (by rw [h]; exact h'))
    · exact Or.inr (List.mem_singleton.2 h')
  | unlisten l timer kind f h =>
    refine hv.elim (fun hv => Or.inl (Or.inl hv)) fun hv => Or.inl (Or.inr ?_)
    rw [h]
    exact Listeners.mem_handles_remove hv
  | timer l old new h =>
    refine hv.elim (fun hv => Or.inl (Or.inl hv)) fun hv => Or.inl (Or.inr ?_)
    rw [h]
    exact hv
  | bytes | video => exact Or.inl (Or.inl (hv.resolve_right List.not_mem_nil))

end Instance.Update

end ScriptPlayer
