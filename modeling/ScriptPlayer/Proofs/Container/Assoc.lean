import Mathlib.Data.List.Nodup

/-! Association lists in insertion order, the plain picture of the indexed containers. A key that is
present is written in place, a new one goes to the end, and a deletion closes the gap. -/
namespace ScriptPlayer.Assoc

variable {κ ν : Type}

def keys (l : List (κ × ν)) : List κ := l.map Prod.fst

@[simp] theorem keys_nil : keys ([] : List (κ × ν)) = [] := rfl

@[simp] theorem keys_cons (e : κ × ν) (l : List (κ × ν)) : keys (e :: l) = e.1 :: keys l := rfl

@[simp] theorem keys_append (l l' : List (κ × ν)) : keys (l ++ l') = keys l ++ keys l' :=
  List.map_append

theorem getElem?_keys (l : List (κ × ν)) (i : Nat) : (keys l)[i]? = (l[i]?).map Prod.fst :=
  List.getElem?_map

theorem exists_middle_of_mem {l : List (κ × ν)} {k : κ} (h : k ∈ keys l) :
    ∃ before v later, l = before ++ (k, v) :: later := by
  obtain ⟨e, he, rfl⟩ := List.mem_map.1 h
  obtain ⟨before, later, hl⟩ := List.append_of_mem he
  exact ⟨before, e.2, later, hl⟩

theorem getElem?_keys_middle (before later : List (κ × ν)) (k : κ) (v : ν) :
    (keys (before ++ (k, v) :: later))[before.length]? = some k := by
  rw [getElem?_keys, List.getElem?_append_right (Nat.le_refl _), Nat.sub_self]
  rfl

variable [DecidableEq κ]

def overwrite (l : List (κ × ν)) (k : κ) (v : ν) : List (κ × ν) :=
  l.map fun e => if e.1 = k then (k, v) else e

def set (l : List (κ × ν)) (k : κ) (v : ν) : List (κ × ν) :=
  if k ∈ keys l then overwrite l k v else l ++ [(k, v)]

def delete (l : List (κ × ν)) (k : κ) : List (κ × ν) := l.filter fun e => e.1 != k

theorem overwrite_cons (e : κ × ν) (l : List (κ × ν)) (k : κ) (v : ν) :
    overwrite (e :: l) k v = (if e.1 = k then (k, v) else e) :: overwrite l k v := rfl

theorem keys_overwrite (l : List (κ × ν)) (k : κ) (v : ν) : keys (overwrite l k v) = keys l := by
  unfold keys overwrite
  rw [List.map_map]
  apply List.map_congr_left
  intro e _
  by_cases h : e.1 = k
  · simp [h]
  · simp [h]

theorem overwrite_of_not_mem {l : List (κ × ν)} {k : κ} (h : k ∉ keys l) (v : ν) :
    overwrite l k v = l := by
  induction l with
  | nil => rfl
  | cons e l ih =>
    rw [keys_cons, List.mem_cons, not_or] at h
    rw [overwrite_cons, if_neg (Ne.symm h.1), ih h.2]

theorem keys_set (l : List (κ × ν)) (k : κ) (v : ν) :
    keys (set l k v) = if k ∈ keys l then keys l else keys l ++ [k] := by
  unfold set
  split
  · exact keys_overwrite l k v
  · simp

theorem keys_delete (l : List (κ × ν)) (k : κ) :
    keys (delete l k) = (keys l).filter fun k' => k' != k := by
  unfold keys delete
  rw [List.filter_map]
  rfl

theorem nodup_keys_set {l : List (κ × ν)} (h : (keys l).Nodup) (k : κ) (v : ν) :
    (keys (set l k v)).Nodup := by
  rw [keys_set]
  split
  · exact h
  · rename_i hk
    exact List.nodup_append.2 ⟨h, List.nodup_singleton k, by
      intro a ha b hb
      rw [List.mem_singleton.1 hb]
      intro e
      exact hk (e ▸ ha)⟩

theorem nodup_keys_delete {l : List (κ × ν)} (h : (keys l).Nodup) (k : κ) :
    (keys (delete l k)).Nodup := by
  rw [keys_delete]
  exact h.filter _

theorem delete_sublist (l : List (κ × ν)) (k : κ) : (delete l k).Sublist l :=
  List.filter_sublist

/-! Entries whose keys have a property that the key of a change lacks stay as they are. -/

theorem filter_overwrite {p : κ → Bool} {k : κ} (hp : p k = false) (l : List (κ × ν)) (v : ν) :
    (overwrite l k v).filter (fun e => p e.1) = l.filter fun e => p e.1 := by
  induction l with
  | nil => rfl
  | cons e l ih =>
    rw [overwrite_cons, List.filter_cons, List.filter_cons, ih]
    by_cases he : e.1 = k
    · rw [if_pos he, he, hp]
      rfl
    · rw [if_neg he]

theorem filter_set {p : κ → Bool} {k : κ} (hp : p k = false) (l : List (κ × ν)) (v : ν) :
    (set l k v).filter (fun e => p e.1) = l.filter fun e => p e.1 := by
  unfold set
  split
  · exact filter_overwrite hp l v
  · rw [List.filter_append, List.filter_cons_of_neg (by simp [hp]), List.filter_nil,
      List.append_nil]

theorem filter_delete {p : κ → Bool} {k : κ} (hp : p k = false) (l : List (κ × ν)) :
    (delete l k).filter (fun e => p e.1) = l.filter fun e => p e.1 := by
  unfold delete
  rw [List.filter_filter]
  apply List.filter_congr
  intro e _
  by_cases he : e.1 = k
  · rw [he, hp, Bool.false_and]
  · simp [he]

/-! What a lookup sees -/

theorem lookup_eq_none_iff {l : List (κ × ν)} {k : κ} : l.lookup k = none ↔ k ∉ keys l := by
  induction l with
  | nil => simp
  | cons e l ih =>
    rw [List.lookup_cons, keys_cons, List.mem_cons]
    by_cases h : k = e.1
    · simp [h]
    · have hb : (k == e.1) = false := by simp [h]
      simp only [hb, h, false_or]
      exact ih

theorem isSome_lookup_iff {l : List (κ × ν)} {k : κ} : (l.lookup k).isSome ↔ k ∈ keys l := by
  rw [Option.isSome_iff_ne_none, ne_eq, lookup_eq_none_iff, not_not]

theorem mem_of_lookup {l : List (κ × ν)} {k : κ} {v : ν} (h : l.lookup k = some v) :
    (k, v) ∈ l := by
  obtain ⟨l₁, l₂, rfl, -⟩ := List.lookup_eq_some_iff.1 h
  exact List.mem_append_right l₁ List.mem_cons_self

theorem lookup_delete (l : List (κ × ν)) (k k' : κ) :
    (delete l k).lookup k' = if k' = k then none else l.lookup k' := by
  induction l with
  | nil => simp [delete]
  | cons e l ih =>
    unfold delete at ih ⊢
    by_cases he : e.1 = k
    · rw [List.filter_cons_of_neg (by simp [he]), ih, List.lookup_cons]
      by_cases hk : k' = k
      · simp [hk]
      · have hb : (k' == e.1) = false := by simp [he, hk]
        simp [hb]
    · rw [List.filter_cons_of_pos (by simp [he]), List.lookup_cons, List.lookup_cons, ih]
      by_cases hk : k' = e.1
      · simp [hk, he]
      · have hb : (k' == e.1) = false := by simp [hk]
        simp [hb]

theorem lookup_append_of_not_mem {l : List (κ × ν)} {k : κ} (h : k ∉ keys l)
    (l' : List (κ × ν)) : (l ++ l').lookup k = l'.lookup k := by
  rw [List.lookup_append, lookup_eq_none_iff.2 h, Option.none_or]

theorem lookup_alter (l : List (κ × ν)) (k k' : κ) (f : ν → ν) :
    (l.map fun e => if e.1 = k then (e.1, f e.2) else e).lookup k' =
      if k' = k then (l.lookup k).map f else l.lookup k' := by
  induction l with
  | nil => simp
  | cons e l ih =>
    rw [List.map_cons, List.lookup_cons, ih, List.lookup_cons, List.lookup_cons]
    by_cases he : e.1 = k
    · by_cases hk : k' = k
      · simp [he, hk]
      · have hb : (k' == k) = false := by simp [hk]
        simp [he, hk, hb]
    · by_cases hk : k' = k
      · have hb : (k == e.1) = false := by simp [Ne.symm he]
        simp [he, hk, hb]
      · simp [he, hk]

theorem lookup_overwrite (l : List (κ × ν)) (k k' : κ) (v : ν) :
    (overwrite l k v).lookup k' =
      if k' = k then (l.lookup k).map (fun _ => v) else l.lookup k' := by
  have halter : overwrite l k v = l.map fun e => if e.1 = k then (e.1, v) else e := by
    apply List.map_congr_left
    intro e _
    by_cases he : e.1 = k <;> simp [he]
  rw [halter]
  exact lookup_alter l k k' fun _ => v

theorem lookup_set (l : List (κ × ν)) (k k' : κ) (v : ν) :
    (set l k v).lookup k' = if k' = k then some v else l.lookup k' := by
  unfold set
  split
  · rename_i hk
    obtain ⟨old, hold⟩ := Option.isSome_iff_exists.1 (isSome_lookup_iff.2 hk)
    rw [lookup_overwrite, hold, Option.map_some]
  · rename_i hk
    by_cases hk' : k' = k
    · rw [hk', lookup_append_of_not_mem hk, if_pos rfl, List.lookup_cons_self]
    · have hb : (k' == k) = false := by simp [hk']
      rw [List.lookup_append, if_neg hk', List.lookup_cons, hb, List.lookup_nil, Option.or_none]

/-! A container that knows the position of a key need not search. -/

section Position

variable {l : List (κ × ν)} {k : κ} {i : Nat}

theorem lookup_eq_getElem? (hn : (keys l).Nodup) (hi : (keys l)[i]? = some k) :
    l.lookup k = (l[i]?).map Prod.snd := by
  induction l generalizing i with
  | nil => simp at hi
  | cons e l ih =>
    obtain ⟨he, hn⟩ := List.nodup_cons.1 hn
    rw [List.lookup_cons]
    cases i with
    | zero =>
      have hk : e.1 = k := by simpa using hi
      simp [hk]
    | succ i =>
      have hi : (keys l)[i]? = some k := by simpa using hi
      have hb : (k == e.1) = false := by
        simp only [beq_eq_false_iff_ne]
        intro h
        exact he (h ▸ List.mem_of_getElem? hi)
      simp only [hb, List.getElem?_cons_succ]
      exact ih hn hi

theorem find?_eq_getElem? (hn : (keys l).Nodup) (hi : (keys l)[i]? = some k) :
    l.find? (fun e => e.1 == k) = l[i]? := by
  induction l generalizing i with
  | nil => simp at hi
  | cons e l ih =>
    obtain ⟨he, hn⟩ := List.nodup_cons.1 hn
    cases i with
    | zero =>
      have hk : e.1 = k := by simpa using hi
      rw [List.find?_cons_of_pos (by simp [hk]), List.getElem?_cons_zero]
    | succ i =>
      have hi : (keys l)[i]? = some k := by simpa using hi
      have hk : e.1 ≠ k := fun h => he (h ▸ List.mem_of_getElem? hi)
      rw [List.find?_cons_of_neg (by simp [hk]), List.getElem?_cons_succ]
      exact ih hn hi

theorem delete_of_not_mem (h : k ∉ keys l) : delete l k = l := by
  apply List.filter_eq_self.2
  intro e he
  simp only [bne_iff_ne]
  intro hk
  exact h (hk ▸ List.mem_map_of_mem he)

theorem delete_middle {v : ν} {l₁ l₂ : List (κ × ν)} (hn : (keys (l₁ ++ (k, v) :: l₂)).Nodup) :
    delete (l₁ ++ (k, v) :: l₂) k = l₁ ++ l₂ := by
  rw [keys_append, keys_cons, List.nodup_middle, List.nodup_cons, List.mem_append, not_or] at hn
  have hfirst : delete l₁ k = l₁ := delete_of_not_mem hn.1.1
  have hlast : delete l₂ k = l₂ := delete_of_not_mem hn.1.2
  unfold delete at hfirst hlast ⊢
  rw [List.filter_append, List.filter_cons_of_neg (by simp), hfirst, hlast]

theorem lookup_eq_some_iff (hn : (keys l).Nodup) {v : ν} : l.lookup k = some v ↔ (k, v) ∈ l := by
  refine ⟨mem_of_lookup, fun h => ?_⟩
  obtain ⟨i, hi⟩ := List.mem_iff_getElem?.1 h
  have hk : (keys l)[i]? = some k := by rw [getElem?_keys, hi, Option.map_some]
  rw [lookup_eq_getElem? hn hk, hi, Option.map_some]

theorem set_middle {v w : ν} {l₁ l₂ : List (κ × ν)} (hn : (keys (l₁ ++ (k, v) :: l₂)).Nodup) :
    set (l₁ ++ (k, v) :: l₂) k w = l₁ ++ (k, w) :: l₂ := by
  have hk : k ∈ keys (l₁ ++ (k, v) :: l₂) := by simp
  rw [keys_append, keys_cons, List.nodup_middle, List.nodup_cons, List.mem_append, not_or] at hn
  have hfirst : overwrite l₁ k w = l₁ := overwrite_of_not_mem hn.1.1 w
  have hlast : overwrite l₂ k w = l₂ := overwrite_of_not_mem hn.1.2 w
  unfold overwrite at hfirst hlast
  rw [set, if_pos hk, overwrite, List.map_append, List.map_cons, hfirst, hlast, if_pos rfl]

theorem delete_eq_eraseIdx (hn : (keys l).Nodup) (hi : (keys l)[i]? = some k) :
    delete l k = l.eraseIdx i := by
  induction l generalizing i with
  | nil => simp at hi
  | cons e l ih =>
    obtain ⟨he, hn⟩ := List.nodup_cons.1 hn
    cases i with
    | zero =>
      have hk : e.1 = k := by simpa using hi
      unfold delete
      rw [List.filter_cons_of_neg (by simp [hk]), List.eraseIdx_cons_zero]
      exact delete_of_not_mem (hk ▸ he)
    | succ i =>
      have hi : (keys l)[i]? = some k := by simpa using hi
      have hk : e.1 ≠ k := fun h => he (h ▸ List.mem_of_getElem? hi)
      unfold delete
      rw [List.filter_cons_of_pos (by simp [hk]), List.eraseIdx_cons_succ]
      exact congrArg (e :: ·) (ih hn hi)

theorem set_of_not_mem (h : k ∉ keys l) (v : ν) : set l k v = l ++ [(k, v)] := if_neg h

theorem set_eq_modify (hn : (keys l).Nodup) (hi : (keys l)[i]? = some k) (v : ν) :
    set l k v = l.modify i fun e => (e.1, v) := by
  rw [set, if_pos (List.mem_of_getElem? hi)]
  induction l generalizing i with
  | nil => simp at hi
  | cons e l ih =>
    obtain ⟨he, hn⟩ := List.nodup_cons.1 hn
    rw [overwrite_cons]
    cases i with
    | zero =>
      have hk : e.1 = k := by simpa using hi
      rw [if_pos hk, overwrite_of_not_mem (hk ▸ he), List.modify_zero_cons, hk]
    | succ i =>
      have hi : (keys l)[i]? = some k := by simpa using hi
      have hk : e.1 ≠ k := fun h => he (h ▸ List.mem_of_getElem? hi)
      rw [if_neg hk, List.modify_succ_cons, ih hn hi]

end Position

end ScriptPlayer.Assoc
