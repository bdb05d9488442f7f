import ScriptPlayer.Object.PropertyMap
import ScriptPlayer.Proofs.Container.Assoc
import ScriptPlayer.Proofs.Container.Positions

/-! The slots of an instance are an association list by qualified name; the index only saves the
search. -/
namespace ScriptPlayer.PropertyMap

def WellFormed (m : PropertyMap) : Prop := m.index.Agrees (m.entries.map fun e => some e.1)

theorem wellFormed_empty : empty.WellFormed := PositionIndex.agrees_empty

variable {m : PropertyMap}

theorem WellFormed.get?_index_iff (h : m.WellFormed) (name : QName) (i : Nat) :
    m.index.get? name = some i ↔ (Assoc.keys m.entries)[i]? = some name := by
  rw [h name i, Assoc.getElem?_keys, List.getElem?_map]
  cases m.entries[i]? with
  | none => simp
  | some e => simp

theorem WellFormed.nodup (h : m.WellFormed) : (Assoc.keys m.entries).Nodup := by
  rw [List.nodup_iff_getElem?_ne_getElem?]
  intro i j hij hj heq
  obtain ⟨name, hname⟩ : ∃ name, (Assoc.keys m.entries)[j]? = some name :=
    ⟨_, List.getElem?_eq_getElem hj⟩
  have hi := (h.get?_index_iff name i).2 (heq.trans hname)
  rw [(h.get?_index_iff name j).2 hname] at hi
  have := Option.some.inj hi
  omega

theorem WellFormed.get?_index_eq_none_iff (h : m.WellFormed) (name : QName) :
    m.index.get? name = none ↔ name ∉ Assoc.keys m.entries := by
  rw [h.get?_eq_none_iff, not_iff_not]
  unfold Assoc.keys
  simp

theorem WellFormed.get?_eq_lookup (h : m.WellFormed) (name : QName) :
    m.get? name = m.entries.lookup name := by
  unfold get?
  cases hp : m.index.get? name with
  | none =>
    rw [Assoc.lookup_eq_none_iff.2 ((h.get?_index_eq_none_iff name).1 hp), Option.bind_none]
  | some i =>
    rw [Assoc.lookup_eq_getElem? h.nodup ((h.get?_index_iff name i).1 hp), Option.bind_some]

theorem WellFormed.contains_eq (h : m.WellFormed) (name : QName) :
    m.contains name = (m.entries.lookup name).isSome := by
  rw [Bool.eq_iff_iff, Assoc.isSome_lookup_iff, contains, PositionIndex.contains,
    Option.isSome_iff_ne_none, ne_eq, h.get?_index_eq_none_iff, not_not]

theorem WellFormed.insert_eq (h : m.WellFormed) (name : QName) (v : Value) :
    (m.insert name v).1 = m.entries.lookup name ∧
      (m.insert name v).2.entries = Assoc.set m.entries name v := by
  cases hp : m.index.get? name with
  | none =>
    have hk := (h.get?_index_eq_none_iff name).1 hp
    simp only [insert, hp]
    exact ⟨(Assoc.lookup_eq_none_iff.2 hk).symm, (Assoc.set_of_not_mem hk v).symm⟩
  | some i =>
    have hk := (h.get?_index_iff name i).1 hp
    simp only [insert, hp]
    refine ⟨(Assoc.lookup_eq_getElem? h.nodup hk).symm, ?_⟩
    rw [Assoc.set_eq_modify h.nodup hk]
    apply List.ext_getElem?
    intro j
    rw [List.getElem?_set, List.getElem?_modify]
    by_cases hij : i = j
    · rw [Assoc.getElem?_keys, Option.map_eq_some_iff] at hk
      obtain ⟨e, he, hname⟩ := hk
      have hlt : i < m.entries.length := (List.getElem?_eq_some_iff.1 he).1
      rw [← hij, if_pos rfl, if_pos hlt, he]
      simp [hname]
    · simp [hij]

theorem WellFormed.remove_eq (h : m.WellFormed) (name : QName) :
    (m.remove name).1 = m.entries.lookup name ∧
      (m.remove name).2.entries = Assoc.delete m.entries name := by
  cases hp : m.index.get? name with
  | none =>
    have hk := (h.get?_index_eq_none_iff name).1 hp
    simp only [remove, hp]
    exact ⟨(Assoc.lookup_eq_none_iff.2 hk).symm, (Assoc.delete_of_not_mem hk).symm⟩
  | some i =>
    have hk := (h.get?_index_iff name i).1 hp
    simp only [remove, hp]
    exact ⟨(Assoc.lookup_eq_getElem? h.nodup hk).symm, (Assoc.delete_eq_eraseIdx h.nodup hk).symm⟩

theorem WellFormed.insert (h : m.WellFormed) (name : QName) (v : Value) :
    (m.insert name v).2.WellFormed := by
  unfold WellFormed
  cases hp : m.index.get? name with
  | none =>
    simp only [PropertyMap.insert, hp, List.map_append, List.map_cons, List.map_nil]
    have hnew := PositionIndex.Agrees.append_some h hp
    rw [List.length_map] at hnew
    exact hnew
  | some i =>
    have hk := (h name i).1 hp
    obtain ⟨hlt, hself⟩ := List.getElem?_eq_some_iff.1 hk
    simp only [PropertyMap.insert, hp, List.map_set]
    rw [← hself, List.set_getElem_self hlt]
    exact h

theorem WellFormed.remove (h : m.WellFormed) (name : QName) : (m.remove name).2.WellFormed := by
  unfold WellFormed
  cases hp : m.index.get? name with
  | none =>
    simp only [PropertyMap.remove, hp]
    exact h
  | some i =>
    simp only [PropertyMap.remove, hp]
    exact PositionIndex.Agrees.renumber h (PositionIndex.Agrees.get?_erase_iff h ((h name i).1 hp))

/-! Reads after a change -/

theorem WellFormed.contains_iff (h : m.WellFormed) {name : QName} :
    m.contains name = true ↔ name ∈ Assoc.keys m.entries := by
  rw [h.contains_eq, Assoc.isSome_lookup_iff]

theorem WellFormed.get?_insert (h : m.WellFormed) (name key : QName) (v : Value) :
    (m.insert name v).2.get? key = if key = name then some v else m.get? key := by
  rw [(h.insert name v).get?_eq_lookup, (h.insert_eq name v).2, Assoc.lookup_set,
    ← h.get?_eq_lookup]

theorem WellFormed.get?_remove (h : m.WellFormed) (name key : QName) :
    (m.remove name).2.get? key = if key = name then none else m.get? key := by
  rw [(h.remove name).get?_eq_lookup, (h.remove_eq name).2, Assoc.lookup_delete,
    ← h.get?_eq_lookup]

/-! What a change does, by whether the name is there -/

variable {name : QName}

theorem WellFormed.insert_of_not_mem (h : m.WellFormed) (hk : name ∉ Assoc.keys m.entries)
    (v : Value) : (m.insert name v).1 = none ∧
      (m.insert name v).2.entries = m.entries ++ [(name, v)] := by
  rw [(h.insert_eq name v).1, (h.insert_eq name v).2]
  exact ⟨Assoc.lookup_eq_none_iff.2 hk, Assoc.set_of_not_mem hk v⟩

theorem WellFormed.remove_of_not_mem (h : m.WellFormed) (hk : name ∉ Assoc.keys m.entries) :
    m.remove name = (none, m) := by
  have hi := (h.get?_index_eq_none_iff name).2 hk
  simp only [PropertyMap.remove, hi]

section Middle

variable {before later : List (QName × Value)} {v : Value}

theorem WellFormed.lookup_middle (h : m.WellFormed)
    (hm : m.entries = before ++ (name, v) :: later) : m.entries.lookup name = some v := by
  rw [Assoc.lookup_eq_some_iff h.nodup, hm]
  exact List.mem_append_right before List.mem_cons_self

theorem WellFormed.insert_middle (h : m.WellFormed)
    (hm : m.entries = before ++ (name, v) :: later) (w : Value) :
    m.insert name w = (some v, ⟨before ++ (name, w) :: later, m.index⟩) := by
  have hat : (Assoc.keys m.entries)[before.length]? = some name :=
    hm ▸ Assoc.getElem?_keys_middle before later name v
  have hentries : (m.insert name w).2.entries = before ++ (name, w) :: later := by
    rw [(h.insert_eq name w).2, hm]
    exact Assoc.set_middle (hm ▸ h.nodup)
  have hindex : (m.insert name w).2.index = m.index := by
    have hi := (h.get?_index_iff name before.length).2 hat
    simp only [PropertyMap.insert, hi]
  refine Prod.ext ((h.insert_eq name w).1.trans (h.lookup_middle hm)) ?_
  exact congrArg₂ PropertyMap.mk hentries hindex

theorem WellFormed.remove_middle (h : m.WellFormed)
    (hm : m.entries = before ++ (name, v) :: later) :
    (m.remove name).1 = some v ∧ (m.remove name).2.entries = before ++ later := by
  refine ⟨(h.remove_eq name).1.trans (h.lookup_middle hm), ?_⟩
  rw [(h.remove_eq name).2, hm]
  exact Assoc.delete_middle (hm ▸ h.nodup)

/-- The names behind a removed one are found one place further up, the others where they were. -/
theorem WellFormed.get?_index_remove (h : m.WellFormed)
    (hm : m.entries = before ++ (name, v) :: later) (key : QName) :
    (m.remove name).2.index.get? key =
      if key = name then none
      else (m.index.get? key).map fun i => if before.length < i then i - 1 else i := by
  have hw := h.remove name
  have hat : (Assoc.keys m.entries)[before.length]? = some name :=
    hm ▸ Assoc.getElem?_keys_middle before later name v
  have hkeys : Assoc.keys (m.remove name).2.entries =
      (Assoc.keys m.entries).filter (· != name) := by
    rw [(h.remove_eq name).2, Assoc.keys_delete]
  by_cases hkey : key = name
  · rw [if_pos hkey, hw.get?_index_eq_none_iff, hkeys, List.mem_filter, bne_iff_ne]
    exact fun hmem => hmem.2 hkey
  · rw [if_neg hkey]
    cases hi : m.index.get? key with
    | none =>
      rw [Option.map_none, hw.get?_index_eq_none_iff, hkeys]
      exact fun hmem => (h.get?_index_eq_none_iff key).1 hi (List.mem_of_mem_filter hmem)
    | some i =>
      have hki := (h.get?_index_iff key i).1 hi
      -- another name does not stand in the gap, so it stands before or behind it
      have hne : i ≠ before.length := by
        rintro rfl
        exact hkey (Option.some.inj (hki.symm.trans hat))
      rw [Option.map_some, hw.get?_index_iff, (h.remove_eq name).2,
        Assoc.delete_eq_eraseIdx h.nodup hat, Assoc.getElem?_keys, List.getElem?_eraseIdx]
      by_cases hlt : before.length < i
      · rw [if_pos hlt, if_neg (by omega), Nat.sub_add_cancel (by omega), ← Assoc.getElem?_keys]
        exact hki
      · rw [if_neg hlt, if_pos (by omega), ← Assoc.getElem?_keys]
        exact hki

end Middle

end ScriptPlayer.PropertyMap
