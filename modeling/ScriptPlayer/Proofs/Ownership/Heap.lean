import ScriptPlayer.Proofs.Container.Dictionary
import ScriptPlayer.Proofs.Container.PropertyMap
import ScriptPlayer.Proofs.Ownership.Refs

/-! When the counts of a heap are right: each cell's count is the number of handles to it, inside
the heap and outside of it, and every handle refers to a cell of its kind. The outside is a list of
values; `n` classes are known. -/
namespace ScriptPlayer

structure Instance.WellFormed (i : Instance) : Prop where
  slots : i.slots.WellFormed
  dictionary : ∀ d, i.backing = .dictionary d → d.WellFormed
  slotless : ∀ d, i.backing = .dictionary d → i.slots.entries = []

namespace Heap

/-- Whether a value is no handle or one to a cell of its kind or a known class. -/
def Refers (h : Heap) (n : Nat) : Value → Prop
  | .classRef c => c < n
  | v => h.isValid v

structure Sound (h : Heap) (n : Nat) (outside : List Value) : Prop where
  counted : ∀ id, h.count id = refs id (outside ++ h.owned)
  live : ∀ id c, h.get? id = some c → 0 < c.count
  refers : ∀ v ∈ outside ++ h.owned, h.Refers n v
  formed : ∀ id i, h.instance? id = some i → i.WellFormed

variable {h h' : Heap} {n : Nat} {outside : List Value}

def kind? (h : Heap) (id : Nat) : Option Bool := (h.content? id).map Content.isInstance

theorem isSome_instance?_iff {id : Nat} :
    (h.instance? id).isSome ↔ h.kind? id = some true := by
  rw [Option.isSome_iff_exists, kind?, Option.map_eq_some_iff]
  constructor
  · rintro ⟨i, hi⟩
    exact ⟨_, instance?_eq_some_iff.1 hi, rfl⟩
  · rintro ⟨content, hc, hk⟩
    cases content with
    | instanceOf i => exact ⟨i, instance?_eq_some_iff.2 hc⟩
    | functionOf f => exact absurd hk (by simp [Content.isInstance])

theorem isSome_function?_iff {id : Nat} :
    (h.function? id).isSome ↔ h.kind? id = some false := by
  rw [Option.isSome_iff_exists, kind?, Option.map_eq_some_iff]
  constructor
  · rintro ⟨f, hf⟩
    exact ⟨_, function?_eq_some_iff.1 hf, rfl⟩
  · rintro ⟨content, hc, hk⟩
    cases content with
    | instanceOf i => exact absurd hk (by simp [Content.isInstance])
    | functionOf f => exact ⟨f, function?_eq_some_iff.2 hc⟩

theorem isValid_object_iff {id : Nat} : h.isValid (.object id) ↔ h.kind? id = some true :=
  isSome_instance?_iff

theorem isValid_function_iff {id : Nat} : h.isValid (.function id) ↔ h.kind? id = some false :=
  isSome_function?_iff

theorem Refers.of_kind? {v : Value} (hv : h.Refers n v)
    (hk : ∀ id, v.cell? = some id → h'.kind? id = h.kind? id) : h'.Refers n v := by
  cases v with
  | object id =>
    have hv : h.isValid (.object id) := hv
    exact isValid_object_iff.2 ((hk id rfl).trans (isValid_object_iff.1 hv))
  | function id =>
    have hv : h.isValid (.function id) := hv
    exact isValid_function_iff.2 ((hk id rfl).trans (isValid_function_iff.1 hv))
  | classRef c => exact hv
  | undefined => rfl
  | null => rfl
  | bool b => rfl
  | int i => rfl
  | number x => rfl
  | string s => rfl

theorem Refers.mono {m : Nat} {v : Value} (hv : h.Refers n v) (hnm : n ≤ m) : h.Refers m v := by
  cases v with
  | classRef c => exact Nat.lt_of_lt_of_le hv hnm
  | _ => exact hv

theorem Refers.get? {v : Value} {id : Nat} (hv : h.Refers n v) (hid : v.cell? = some id) :
    ∃ c, h.get? id = some c := by
  have hk : (h.kind? id).isSome := by
    cases v with
    | object o =>
      obtain rfl : o = id := Option.some.inj hid
      rw [isValid_object_iff.1 hv]
      rfl
    | function f =>
      obtain rfl : f = id := Option.some.inj hid
      rw [isValid_function_iff.1 hv]
      rfl
    | _ => exact absurd hid (by simp [Value.cell?])
  rw [kind?, Option.isSome_map, content?, Option.isSome_map] at hk
  exact Option.isSome_iff_exists.1 hk

namespace Sound

/-- Only the numbers of handles outside matter, and that they are good. -/
theorem outside_congr (hs : h.Sound n outside) {outside' : List Value}
    (hrefs : ∀ id, refs id outside' = refs id outside) (hgood : ∀ v ∈ outside', h.Refers n v) :
    h.Sound n outside' where
  counted id := by rw [hs.counted id, refs_append, refs_append, hrefs id]
  live := hs.live
  refers v hv := by
    rcases List.mem_append.1 hv with h | h
    · exact hgood v h
    · exact hs.refers v (List.mem_append_right _ h)
  formed := hs.formed

theorem perm (hs : h.Sound n outside) {outside' : List Value} (hp : outside'.Perm outside) :
    h.Sound n outside' :=
  hs.outside_congr (refs_perm hp) fun v hv =>
    hs.refers v (List.mem_append_left _ (hp.mem_iff.1 hv))

theorem mono (hs : h.Sound n outside) {m : Nat} (hnm : n ≤ m) : h.Sound m outside where
  counted := hs.counted
  live := hs.live
  refers v hv := (hs.refers v hv).mono hnm
  formed := hs.formed

theorem refers_outside (hs : h.Sound n outside) {v : Value} (hv : v ∈ outside) : h.Refers n v :=
  hs.refers v (List.mem_append_left _ hv)

theorem refers_content (hs : h.Sound n outside) {id : Nat} {c : Cell} (hc : h.get? id = some c)
    {v : Value} (hv : v ∈ c.content.handles) : h.Refers n v :=
  hs.refers v (List.mem_append_right _ (mem_owned_iff.2 ⟨id, c, hc, hv⟩))

end Sound

theorem sound_empty (n : Nat) : empty.Sound n [] where
  counted id := by simp [count, get?, empty, owned]
  live id c hc := by simp [get?, empty] at hc
  refers v hv := by simp [owned, empty] at hv
  formed id i hi := by simp [instance?, get?, empty] at hi

/-! Changing one cell -/

section Put

variable {id : Nat} {c : Cell} {new : Option Cell} {v : Value}

theorem content?_put (hc : h.get? id = some c) (new : Option Cell) (id' : Nat) :
    (h.put id new).content? id' = if id' = id then new.map Cell.content else h.content? id' := by
  unfold content?
  rw [get?_put (lt_of_get? hc)]
  split
  · rfl
  · rfl

theorem kind?_put (hc : h.get? id = some c) (new : Option Cell) (id' : Nat) :
    (h.put id new).kind? id' =
      if id' = id then new.map (fun c => c.content.isInstance) else h.kind? id' := by
  unfold kind?
  rw [content?_put hc]
  split
  · rw [Option.map_map]
    rfl
  · rfl

theorem count_put (hc : h.get? id = some c) (new : Option Cell) (id' : Nat) :
    (h.put id new).count id' =
      if id' = id then (new.map Cell.count).getD 0 else h.count id' := by
  unfold count
  rw [get?_put (lt_of_get? hc)]
  split
  · rfl
  · rfl

theorem mem_owned_put (hc : h.get? id = some c) (hv : v ∈ (h.put id new).owned) :
    v ∈ cellHandles new ∨ v ∈ h.owned := by
  obtain ⟨id', c', hc', hv⟩ := mem_owned_iff.1 hv
  rw [get?_put (lt_of_get? hc)] at hc'
  split at hc'
  · exact Or.inl (by rw [hc']; exact hv)
  · exact Or.inr (mem_owned_iff.2 ⟨id', c', hc', hv⟩)

/-- A cell may take another count and content of its kind if the handles outside make up for it.
Those that it owned come out, those that it owns now go in. -/
theorem Sound.put_some (hs : h.Sound n outside) (hc : h.get? id = some c) {c' : Cell}
    {outside' : List Value} (hpos : 0 < c'.count)
    (hkind : c'.content.isInstance = c.content.isInstance)
    (hcount : ∀ k, (if k = id then c'.count else h.count k) +
        refs k (outside ++ c.content.handles) =
      h.count k + refs k (outside' ++ c'.content.handles))
    (hrefers : ∀ v ∈ outside' ++ c'.content.handles, h.Refers n v)
    (hformed : ∀ i, c'.content = .instanceOf i → i.WellFormed) :
    (h.put id (some c')).Sound n outside' := by
  have hgood : ∀ v, h.Refers n v → (h.put id (some c')).Refers n v := by
    intro v hv
    apply hv.of_kind?
    intro k _
    rw [kind?_put hc]
    split
    · rename_i hk
      rw [hk, kind?, content?, hc, Option.map_some, Option.map_some, Option.map_some, hkind]
    · rfl
  constructor
  case counted =>
    intro k
    have hown := refs_owned_put hc (some c') k
    have hk := hs.counted k
    have hk' := hcount k
    have hnew : (h.put id (some c')).count k = if k = id then c'.count else h.count k :=
      count_put hc _ k
    have hin : cellHandles (some c') = c'.content.handles := rfl
    rw [hin] at hown
    simp only [refs_append] at *
    omega
  case live =>
    intro k d hd
    rw [get?_put (lt_of_get? hc)] at hd
    split at hd
    · exact Option.some.inj hd ▸ hpos
    · exact hs.live k d hd
  case refers =>
    intro v hv
    apply hgood
    rcases List.mem_append.1 hv with hv | hv
    · exact hrefers v (List.mem_append_left _ hv)
    · rcases mem_owned_put hc hv with hv | hv
      · exact hrefers v (List.mem_append_right _ hv)
      · exact hs.refers v (List.mem_append_right _ hv)
  case formed =>
    intro k i hi
    have hk := instance?_eq_some_iff.1 hi
    rw [content?_put hc] at hk
    split at hk
    · exact hformed i (Option.some.inj hk)
    · exact hs.formed k i (instance?_eq_some_iff.2 hk)

/-- A cell with one handle left can be destroyed with that handle. What it owned comes out. -/
theorem Sound.put_none (hs : h.Sound n (v :: outside)) (hv : v.cell? = some id)
    (hc : h.get? id = some c) (hone : c.count ≤ 1) :
    (h.put id none).Sound n (c.content.handles ++ outside) := by
  have hcount := hs.counted id
  have hown := refs_owned_put hc none
  have hzero : refs id (c.content.handles ++ outside ++ (h.put id none).owned) = 0 := by
    have := hown id
    rw [count_eq hc] at hcount
    rw [List.cons_append, refs_cons_of_eq hv] at hcount
    simp only [refs_append, cellHandles, Option.map_none, Option.getD_none, refs_nil] at *
    omega
  constructor
  case counted =>
    intro k
    by_cases hk : k = id
    · rw [hk, hzero, count_put hc, if_pos rfl]
      rfl
    · have hv' : v.cell? ≠ some k := fun h => hk (Option.some.inj (h.symm.trans hv))
      have := hs.counted k
      have := hown k
      rw [count_put hc, if_neg hk]
      rw [List.cons_append, refs_cons_of_ne hv'] at *
      simp only [refs_append, cellHandles, Option.map_none, Option.getD_none, refs_nil] at *
      omega
  case live =>
    intro k d hd
    rw [get?_put (lt_of_get? hc)] at hd
    split at hd
    · exact absurd hd (by simp)
    · exact hs.live k d hd
  case refers =>
    intro u hu
    have hgood : h.Refers n u := by
      rcases List.mem_append.1 hu with hu | hu
      · rcases List.mem_append.1 hu with hu | hu
        · exact hs.refers_content hc hu
        · exact hs.refers_outside (List.mem_cons_of_mem v hu)
      · rcases mem_owned_put hc hu with hu | hu
        · exact absurd hu List.not_mem_nil
        · exact hs.refers u (List.mem_append_right _ hu)
    apply hgood.of_kind?
    intro k hk
    have hne : k ≠ id := by
      rintro rfl
      exact refs_eq_zero_iff.1 hzero u hu hk
    rw [kind?_put hc, if_neg hne]
  case formed =>
    intro k i hi
    have hk := instance?_eq_some_iff.1 hi
    rw [content?_put hc] at hk
    split at hk
    · exact absurd hk (by simp)
    · exact hs.formed k i (instance?_eq_some_iff.2 hk)

end Put

end Heap

end ScriptPlayer
