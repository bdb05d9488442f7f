import ScriptPlayer.Object.Dictionary
import ScriptPlayer.Proofs.Container.Assoc
import ScriptPlayer.Proofs.Container.Positions

/-! A dictionary is an association list whose keys are objects or strings: whatever is done to it,
it answers as the plain list would, and its index stays right. -/
namespace ScriptPlayer.Dictionary

/-- Distinct keys, and an index that knows the objects among them. -/
structure WellFormed (d : Dictionary) : Prop where
  nodup : (Assoc.keys d.entries).Nodup
  agrees : d.index.Agrees (d.entries.map fun e => e.1.object?)

theorem wellFormed_empty : empty.WellFormed := ⟨List.nodup_nil, PositionIndex.agrees_empty⟩

def position? (d : Dictionary) : DictKey → Option Nat
  | .identity o => d.index.get? o
  | .content s => d.contentPosition? s

theorem DictKey.object?_eq_some_iff {key : DictKey} {o : ObjectId} :
    key.object? = some o ↔ key = .identity o := by
  cases key with
  | identity o' => simp [DictKey.object?]
  | content s => simp [DictKey.object?]

theorem WellFormed.position?_eq_some_iff {d : Dictionary} (h : d.WellFormed) (key : DictKey)
    (i : Nat) : d.position? key = some i ↔ (Assoc.keys d.entries)[i]? = some key := by
  cases key with
  | identity o =>
    unfold position?
    rw [h.agrees o i, Assoc.getElem?_keys, List.getElem?_map]
    cases d.entries[i]? with
    | none => simp
    | some e => simp [DictKey.object?_eq_some_iff]
  | content s =>
    unfold position? contentPosition?
    rw [List.findIdx?_eq_some_iff_getElem]
    constructor
    · rintro ⟨hi, he, -⟩
      rw [Assoc.getElem?_keys, List.getElem?_eq_getElem hi]
      simpa using he
    · intro hk
      rw [Assoc.getElem?_keys, Option.map_eq_some_iff] at hk
      obtain ⟨e, he, hs⟩ := hk
      obtain ⟨hi, hget⟩ := List.getElem?_eq_some_iff.1 he
      refine ⟨hi, by simp [hget, hs], fun j hj => ?_⟩
      -- an earlier entry with this key would be the same entry
      intro hsame
      have hki : (Assoc.keys d.entries)[i]? = some (.content s) := by
        rw [Assoc.getElem?_keys, he, Option.map_some, hs]
      have hkj : (Assoc.keys d.entries)[j]? = some (.content s) := by
        rw [Assoc.getElem?_keys, List.getElem?_eq_getElem (by omega), Option.map_some,
          eq_of_beq hsame]
      have hlt : j < (Assoc.keys d.entries).length := (List.getElem?_eq_some_iff.1 hkj).1
      have := (List.getElem?_inj hlt h.nodup).1 (hkj.trans hki.symm)
      omega

theorem WellFormed.position?_eq_none_iff {d : Dictionary} (h : d.WellFormed) (key : DictKey) :
    d.position? key = none ↔ key ∉ Assoc.keys d.entries := by
  rw [List.mem_iff_getElem?, Option.eq_none_iff_forall_not_mem]
  constructor
  · rintro hn ⟨i, hi⟩
    exact hn i ((h.position?_eq_some_iff key i).2 hi)
  · intro hn i hi
    exact hn ⟨i, (h.position?_eq_some_iff key i).1 hi⟩

/-! The operations go by position. -/

theorem get?_eq (d : Dictionary) (key : DictKey) :
    d.get? key = (d.position? key).bind d.valueAt? := by
  cases key with
  | identity o => rfl
  | content s => rfl

theorem contains_eq (d : Dictionary) (key : DictKey) :
    d.contains key = (d.position? key).isSome := by
  cases key with
  | identity o => rfl
  | content s => rfl

theorem delete_eq (d : Dictionary) (key : DictKey) :
    d.delete key = match d.position? key with
      | some i => d.removeAt i
      | none => (none, d) := by
  cases key with
  | identity o => rfl
  | content s => rfl

theorem set_of_some {d : Dictionary} {key : DictKey} {i : Nat} (h : d.position? key = some i)
    (v : Value) : d.set key v = d.replaceAt i v := by
  cases key with
  | identity o =>
    have h : d.index.get? o = some i := h
    simp only [set, setIdentity, h]
  | content s =>
    have h : d.contentPosition? s = some i := h
    simp only [set, setContent, h]

def indexWith (d : Dictionary) : DictKey → PositionIndex ObjectId
  | .identity o => d.index.insert o d.entries.length
  | .content _ => d.index

theorem set_of_none {d : Dictionary} {key : DictKey} (h : d.position? key = none) (v : Value) :
    d.set key v = (none, ⟨d.entries ++ [(key, v)], d.indexWith key⟩) := by
  cases key with
  | identity o =>
    have h : d.index.get? o = none := h
    simp only [set, setIdentity, h, indexWith]
  | content s =>
    have h : d.contentPosition? s = none := h
    simp only [set, setContent, h, indexWith]

/-! The operations are those of the plain list. -/

variable {d : Dictionary}

theorem WellFormed.get?_eq_lookup (h : d.WellFormed) (key : DictKey) :
    d.get? key = d.entries.lookup key := by
  rw [get?_eq]
  cases hp : d.position? key with
  | none =>
    rw [Assoc.lookup_eq_none_iff.2 ((h.position?_eq_none_iff key).1 hp), Option.bind_none]
  | some i =>
    rw [Assoc.lookup_eq_getElem? h.nodup ((h.position?_eq_some_iff key i).1 hp),
      Option.bind_some, valueAt?]

theorem WellFormed.contains_iff (h : d.WellFormed) (key : DictKey) :
    d.contains key ↔ key ∈ Assoc.keys d.entries := by
  rw [contains_eq, Option.isSome_iff_ne_none, ne_eq, h.position?_eq_none_iff, not_not]

theorem WellFormed.set_eq (h : d.WellFormed) (key : DictKey) (v : Value) :
    (d.set key v).1 = d.entries.lookup key ∧
      (d.set key v).2.entries = Assoc.set d.entries key v := by
  cases hp : d.position? key with
  | none =>
    have hk := (h.position?_eq_none_iff key).1 hp
    rw [set_of_none hp, Assoc.lookup_eq_none_iff.2 hk, Assoc.set_of_not_mem hk]
    exact ⟨rfl, rfl⟩
  | some i =>
    have hk := (h.position?_eq_some_iff key i).1 hp
    rw [set_of_some hp, Assoc.lookup_eq_getElem? h.nodup hk, Assoc.set_eq_modify h.nodup hk]
    exact ⟨rfl, rfl⟩

theorem WellFormed.delete_eq_find? (h : d.WellFormed) (key : DictKey) :
    (d.delete key).1 = d.entries.find? (fun e => e.1 == key) ∧
      (d.delete key).2.entries = Assoc.delete d.entries key := by
  rw [delete_eq]
  cases hp : d.position? key with
  | none =>
    have hk := (h.position?_eq_none_iff key).1 hp
    refine ⟨?_, (Assoc.delete_of_not_mem hk).symm⟩
    apply Eq.symm
    apply List.find?_eq_none.2
    intro e he hek
    exact hk (eq_of_beq hek ▸ List.mem_map_of_mem he)
  | some i =>
    have hk := (h.position?_eq_some_iff key i).1 hp
    rw [Assoc.delete_eq_eraseIdx h.nodup hk, Assoc.find?_eq_getElem? h.nodup hk]
    rw [Assoc.getElem?_keys, Option.map_eq_some_iff] at hk
    obtain ⟨e, he, -⟩ := hk
    simp only [removeAt, he, and_self]

theorem WellFormed.delete_of_get?_eq_none (h : d.WellFormed) {key : DictKey}
    (hn : d.get? key = none) : d.delete key = (none, d) := by
  rw [h.get?_eq_lookup, Assoc.lookup_eq_none_iff, ← h.position?_eq_none_iff] at hn
  rw [delete_eq, hn]

theorem WellFormed.delete_of_get?_eq_some (h : d.WellFormed) {key : DictKey} {v : Value}
    (hv : d.get? key = some v) : (d.delete key).1 = some (key, v) := by
  rw [get?_eq] at hv
  obtain ⟨i, hi, hn⟩ := Option.bind_eq_some_iff.1 hv
  have hk := (h.position?_eq_some_iff key i).1 hi
  obtain ⟨e, he, rfl⟩ := Option.map_eq_some_iff.1 hn
  rw [(h.delete_eq_find? key).1, Assoc.find?_eq_getElem? h.nodup hk, he]
  rw [Assoc.getElem?_keys, he] at hk
  rw [← Option.some.inj hk]

/-! Well-formedness is kept. -/

theorem WellFormed.set (h : d.WellFormed) (key : DictKey) (v : Value) :
    (d.set key v).2.WellFormed := by
  have hn := Assoc.nodup_keys_set h.nodup key v
  rw [← (h.set_eq key v).2] at hn
  refine ⟨hn, ?_⟩
  cases hp : d.position? key with
  | none =>
    rw [set_of_none hp]
    simp only [List.map_append, List.map_cons, List.map_nil]
    cases key with
    | identity o =>
      have hnew := h.agrees.append_some hp
      rw [List.length_map] at hnew
      exact hnew
    | content s => exact h.agrees.append_none
  | some i =>
    rw [set_of_some hp]
    have hkeys : (d.entries.modify i fun e => (e.1, v)).map (fun e => e.1.object?) =
        d.entries.map fun e => e.1.object? := by
      apply List.ext_getElem?
      intro j
      rw [List.getElem?_map, List.getElem?_map, List.getElem?_modify]
      cases d.entries[j]? with
      | none => rfl
      | some e =>
        by_cases hij : i = j
        · simp [hij]
        · simp [hij]
    unfold replaceAt
    rw [hkeys]
    exact h.agrees

theorem WellFormed.get?_set (h : d.WellFormed) (key key' : DictKey) (v : Value) :
    (d.set key v).2.get? key' = if key' = key then some v else d.get? key' := by
  rw [(h.set key v).get?_eq_lookup, (h.set_eq key v).2, Assoc.lookup_set, h.get?_eq_lookup]

theorem WellFormed.delete (h : d.WellFormed) (key : DictKey) : (d.delete key).2.WellFormed := by
  have hn := Assoc.nodup_keys_delete h.nodup key
  rw [← (h.delete_eq_find? key).2] at hn
  refine ⟨hn, ?_⟩
  rw [delete_eq]
  cases hp : d.position? key with
  | none => exact h.agrees
  | some i =>
    have hk := (h.position?_eq_some_iff key i).1 hp
    rw [Assoc.getElem?_keys, Option.map_eq_some_iff] at hk
    obtain ⟨e, he, hek⟩ := hk
    have hplace : (d.entries.map fun e => e.1.object?)[i]? = some e.1.object? := by
      rw [List.getElem?_map, he, Option.map_some]
    simp only [removeAt, he]
    apply h.agrees.renumber
    cases hkey : e.1 with
    | identity o =>
      rw [hkey] at hplace
      exact h.agrees.get?_erase_iff hplace
    | content s =>
      rw [hkey] at hplace
      exact h.agrees.get?_iff_of_none hplace

end ScriptPlayer.Dictionary
