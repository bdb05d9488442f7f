import ScriptPlayer.Object.Access
import ScriptPlayer.Proofs.Ownership.Heap

/-! A write and a deletion exchange what an instance stores under the key and nothing else it owns.
-/
namespace ScriptPlayer

namespace Assoc

variable {κ ν : Type} [DecidableEq κ] {l : List (κ × ν)}

/-- When each entry owns some values, a write trades those of the old entry for those of the new. -/
theorem refs_set (hn : (keys l).Nodup) (f : κ × ν → List Value) (k : κ) (v : ν) (id : Nat) :
    refs id ((set l k v).flatMap f) + refs id ((l.lookup k).toList.flatMap fun u => f (k, u)) =
      refs id (l.flatMap f) + refs id (f (k, v)) := by
  induction l with
  | nil =>
    change refs id (f (k, v) ++ []) + refs id [] = refs id [] + _
    rw [List.append_nil, refs_nil]
    omega
  | cons e l ih =>
    obtain ⟨he, hn⟩ := List.nodup_cons.1 hn
    by_cases hk : e.1 = k
    · have hset : set (e :: l) k v = (k, v) :: l := by
        rw [set, if_pos (by simp [hk]), overwrite_cons, if_pos hk, overwrite_of_not_mem (hk ▸ he)]
      have hlookup : (e :: l).lookup k = some e.2 := by
        rw [List.lookup_cons, hk]
        simp
      have hentry : f (k, e.2) = f e := by rw [← hk]
      rw [hset, hlookup]
      simp only [Option.toList_some, List.flatMap_cons, List.flatMap_nil, List.append_nil,
        refs_append, hentry]
      omega
    · have hset : set (e :: l) k v = e :: set l k v := by
        unfold set
        rw [keys_cons, overwrite_cons, if_neg hk]
        by_cases hmem : k ∈ keys l
        · rw [if_pos (List.mem_cons_of_mem _ hmem), if_pos hmem]
        · rw [if_neg hmem, if_neg fun h => (List.mem_cons.1 h).elim (fun h => hk h.symm) hmem]
          rfl
      have hlookup : (e :: l).lookup k = l.lookup k := by
        have hb : (k == e.1) = false := by simp [Ne.symm hk]
        rw [List.lookup_cons, hb]
      have := ih hn
      rw [hset, hlookup]
      simp only [List.flatMap_cons, refs_append]
      omega

theorem refs_delete (hn : (keys l).Nodup) (f : κ × ν → List Value) (k : κ) (id : Nat) :
    refs id ((delete l k).flatMap f) + refs id ((l.lookup k).toList.flatMap fun u => f (k, u)) =
      refs id (l.flatMap f) := by
  induction l with
  | nil => rfl
  | cons e l ih =>
    obtain ⟨he, hn⟩ := List.nodup_cons.1 hn
    have hlookup : (e :: l).lookup k = if e.1 = k then some e.2 else l.lookup k := by
      rw [List.lookup_cons]
      by_cases hk : e.1 = k
      · simp [hk]
      · have hb : (k == e.1) = false := by simp [Ne.symm hk]
        rw [hb, if_neg hk]
    rw [hlookup]
    by_cases hk : e.1 = k
    · have hdelete : delete (e :: l) k = l := by
        unfold delete
        rw [List.filter_cons_of_neg (by simp [hk])]
        exact delete_of_not_mem (hk ▸ he)
      have hentry : f (k, e.2) = f e := by rw [← hk]
      rw [hdelete, if_pos hk]
      simp only [Option.toList_some, List.flatMap_cons, List.flatMap_nil, List.append_nil,
        refs_append, hentry]
      omega
    · have hdelete : delete (e :: l) k = e :: delete l k :=
        List.filter_cons_of_pos (by simp [hk])
      have := ih hn
      rw [hdelete, if_neg hk]
      simp only [List.flatMap_cons, refs_append]
      omega

end Assoc

namespace PropertyMap

variable {m : PropertyMap}

theorem values_eq (m : PropertyMap) : m.values = m.entries.flatMap fun e => [e.2] := by
  unfold values
  rw [List.map_eq_flatMap]

theorem WellFormed.refs_insert (h : m.WellFormed) (name : QName) (v : Value) (id : Nat) :
    refs id (m.insert name v).2.values + refs id (m.get? name).toList =
      refs id m.values + refs id [v] := by
  have := Assoc.refs_set h.nodup (fun e => [e.2]) name v id
  rw [values_eq, values_eq, (h.insert_eq name v).2, h.get?_eq_lookup]
  rwa [List.flatMap_singleton'] at this

theorem WellFormed.refs_remove (h : m.WellFormed) (name : QName) (id : Nat) :
    refs id (m.remove name).2.values + refs id (m.get? name).toList = refs id m.values := by
  have := Assoc.refs_delete h.nodup (fun e => [e.2]) name id
  rw [values_eq, values_eq, (h.remove_eq name).2, h.get?_eq_lookup]
  rwa [List.flatMap_singleton'] at this

end PropertyMap

namespace Dictionary

variable {d : Dictionary}

def stored (d : Dictionary) (key : DictKey) : List Value :=
  (d.get? key).toList.flatMap fun v => [key.toValue, v]

theorem WellFormed.refs_set (h : d.WellFormed) (key : DictKey) (v : Value) (id : Nat) :
    refs id (d.set key v).2.handles + refs id (d.stored key) =
      refs id d.handles + refs id [key.toValue, v] := by
  unfold handles stored
  rw [(h.set_eq key v).2, h.get?_eq_lookup]
  exact Assoc.refs_set h.nodup (fun e => [e.1.toValue, e.2]) key v id

theorem WellFormed.refs_delete (h : d.WellFormed) (key : DictKey) (id : Nat) :
    refs id (d.delete key).2.handles + refs id (d.stored key) = refs id d.handles := by
  unfold handles stored
  rw [(h.delete_eq_find? key).2, h.get?_eq_lookup]
  exact Assoc.refs_delete h.nodup (fun e => [e.1.toValue, e.2]) key id

end Dictionary

namespace Instance

variable {i j : Instance} {t : ClassTable} {key : Key} {v : Value}

def stored (i : Instance) (key : Key) : List Value :=
  let key := i.resolve key
  match key.name, i.backing with
  | .qualified name, .dictionary d => d.stored (.content name)
  | .qualified name, _ => (i.slots.get? ⟨key.ns, name⟩).toList
  | .identity o, .dictionary d => d.stored (.identity o)
  | _, _ => []

/-- The handles that a write takes: to the value, and to the key if it is an object. Bytes are no
handles. -/
def taken (i : Instance) (key : Key) (v : Value) : List Value :=
  match (i.resolve key).name with
  | .qualified _ => [v]
  | .identity o => [.object o, v]
  | .index _ => []

theorem refs_handles (i : Instance) (id : Nat) :
    refs id i.handles = refs id i.slots.values + refs id i.bound.handles +
      refs id i.backing.handles := by
  unfold handles
  rw [refs_append, refs_append]

theorem WellFormed.refs_entry (hi : i.WellFormed) {d : Dictionary}
    (hb : i.backing = .dictionary d) (key : DictKey) (v : Value) (id : Nat) :
    refs id { i with backing := .dictionary (d.set key v).2 }.handles + refs id (d.stored key) =
      refs id i.handles + refs id [key.toValue, v] := by
  have hset := (hi.dictionary d hb).refs_set key v id
  rw [refs_handles, refs_handles, hb]
  change _ + _ + refs id (d.set key v).2.handles + _ = _ + _ + refs id d.handles + _
  dsimp only
  omega

theorem WellFormed.refs_write (hi : i.WellFormed) (h : i.write t key v = .ok (.stored j))
    (id : Nat) : refs id j.handles + refs id (i.stored key) =
      refs id i.handles + refs id (i.taken key v) := by
  unfold write at h
  unfold stored taken
  simp only at h ⊢
  cases hn : (i.resolve key).name with
  | qualified name =>
    rw [hn] at h
    cases hb : i.backing with
    | dictionary d =>
      rw [hb] at h
      obtain rfl := Written.stored.inj (Except.ok.inj h)
      exact hi.refs_entry hb (.content name) v id
    | _ =>
      rw [hb] at h
      dsimp only at h
      split at h
      · cases h
      · obtain rfl := Written.stored.inj (Except.ok.inj h)
        have hset := hi.slots.refs_insert ⟨(i.resolve key).ns, name⟩ v id
        rw [refs_handles, refs_handles, hb]
        dsimp only
        omega
  | index n =>
    rw [hn] at h
    cases hb : i.backing with
    | bytes b =>
      rw [hb] at h
      dsimp only at h
      split at h
      · obtain rfl := Written.stored.inj (Except.ok.inj h)
        rw [refs_handles, refs_handles, hb]
        rfl
      · cases h
    | _ =>
      rw [hb] at h
      cases h
  | identity o =>
    rw [hn] at h
    cases hb : i.backing with
    | dictionary d =>
      rw [hb] at h
      obtain rfl := Written.stored.inj (Except.ok.inj h)
      exact hi.refs_entry hb (.identity o) v id
    | _ =>
      rw [hb] at h
      cases h

theorem WellFormed.refs_removeSlot (hi : i.WellFormed) {name : QName}
    (h : i.removeSlot t name = .ok (some j)) (id : Nat) :
    refs id j.handles + refs id (i.slots.get? name).toList = refs id i.handles := by
  unfold removeSlot at h
  split at h
  · obtain rfl := Option.some.inj (Except.ok.inj h)
    have hremove := hi.slots.refs_remove name id
    rw [refs_handles, refs_handles]
    dsimp only
    omega
  · split at h
    · cases h
    · cases h

theorem WellFormed.removeSlot_ne_some (hi : i.WellFormed) {d : Dictionary}
    (hb : i.backing = .dictionary d) (name : QName) : i.removeSlot t name ≠ .ok (some j) := by
  have hslots : i.slots.contains name = false := by
    rw [hi.slots.contains_eq, hi.slotless d hb]
    rfl
  unfold removeSlot
  rw [hslots, if_neg Bool.false_ne_true]
  split
  · simp
  · simp

theorem WellFormed.refs_unentry (hi : i.WellFormed) {d : Dictionary}
    (hb : i.backing = .dictionary d) (key : DictKey) (id : Nat) :
    refs id { i with backing := .dictionary (d.delete key).2 }.handles + refs id (d.stored key) =
      refs id i.handles := by
  have hdelete := (hi.dictionary d hb).refs_delete key id
  rw [refs_handles, refs_handles, hb]
  change _ + _ + refs id (d.delete key).2.handles + _ = _ + _ + refs id d.handles
  dsimp only
  omega

theorem WellFormed.refs_remove (hi : i.WellFormed) (h : i.remove t key = .ok (some j))
    (id : Nat) : refs id j.handles + refs id (i.stored key) = refs id i.handles := by
  unfold remove at h
  unfold stored
  simp only at h ⊢
  cases hn : (i.resolve key).name with
  | qualified name =>
    rw [hn] at h
    cases hb : i.backing with
    | dictionary d =>
      rw [hb] at h
      dsimp only at h
      split at h
      · rename_i e d' hd
        obtain rfl := Option.some.inj (Except.ok.inj h)
        have hd : d' = (d.delete (.content name)).2 := (congrArg Prod.snd hd).symm
        rw [hd]
        exact hi.refs_unentry hb (.content name) id
      · exact absurd h (hi.removeSlot_ne_some hb _)
    | _ =>
      rw [hb] at h
      exact hi.refs_removeSlot h id
  | index n =>
    rw [hn] at h
    cases hb : i.backing with
    | _ =>
      rw [hb] at h
      cases h
  | identity o =>
    rw [hn] at h
    cases hb : i.backing with
    | dictionary d =>
      rw [hb] at h
      dsimp only at h
      split at h
      · rename_i e d' hd
        obtain rfl := Option.some.inj (Except.ok.inj h)
        have hd : d' = (d.delete (.identity o)).2 := (congrArg Prod.snd hd).symm
        rw [hd]
        exact hi.refs_unentry hb (.identity o) id
      · cases h
    | _ =>
      rw [hb] at h
      cases h

end Instance

end ScriptPlayer
