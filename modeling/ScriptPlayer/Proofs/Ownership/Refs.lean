import Mathlib.Data.List.Count
import ScriptPlayer.Object.Heap

/-! Counting the handles to a cell in lists of values, and in the cells of a heap. -/
namespace ScriptPlayer

/-- Number of handles to a cell in a list of values. -/
def refs (id : Nat) (vs : List Value) : Nat := vs.countP fun v => v.cell? == some id

@[simp] theorem refs_nil (id : Nat) : refs id [] = 0 := rfl

theorem refs_cons (id : Nat) (v : Value) (vs : List Value) :
    refs id (v :: vs) = (if v.cell? = some id then 1 else 0) + refs id vs := by
  unfold refs
  rw [List.countP_cons, Nat.add_comm]
  simp only [beq_iff_eq]

theorem refs_cons_of_eq {id : Nat} {v : Value} (h : v.cell? = some id) (vs : List Value) :
    refs id (v :: vs) = refs id vs + 1 := by
  rw [refs_cons, if_pos h, Nat.add_comm]

theorem refs_cons_of_ne {id : Nat} {v : Value} (h : v.cell? ≠ some id) (vs : List Value) :
    refs id (v :: vs) = refs id vs := by
  rw [refs_cons, if_neg h, Nat.zero_add]

@[simp] theorem refs_append (id : Nat) (vs ws : List Value) :
    refs id (vs ++ ws) = refs id vs + refs id ws := List.countP_append

theorem refs_eq_zero_iff {id : Nat} {vs : List Value} :
    refs id vs = 0 ↔ ∀ v ∈ vs, v.cell? ≠ some id := by
  unfold refs
  rw [List.countP_eq_zero]
  simp only [beq_iff_eq, ne_eq]

theorem exists_mem_of_refs_pos {id : Nat} {vs : List Value} (h : 0 < refs id vs) :
    ∃ v ∈ vs, v.cell? = some id := by
  obtain ⟨v, hv, hcell⟩ := List.countP_pos_iff.1 h
  exact ⟨v, hv, beq_iff_eq.1 hcell⟩

theorem refs_pos_of_mem {id : Nat} {v : Value} {vs : List Value} (h : v ∈ vs)
    (hv : v.cell? = some id) : 0 < refs id vs := by
  rw [Nat.pos_iff_ne_zero]
  intro h0
  exact refs_eq_zero_iff.1 h0 v h hv

theorem refs_perm {vs ws : List Value} (h : vs.Perm ws) (id : Nat) : refs id vs = refs id ws :=
  h.countP_eq _

theorem refs_reverse (id : Nat) (vs : List Value) : refs id vs.reverse = refs id vs :=
  refs_perm (List.reverse_perm vs) id

def Content.isInstance : Content → Bool
  | instanceOf _ => true
  | functionOf _ => false

namespace Heap

def cellHandles (c : Option Cell) : List Value := (c.map fun c => c.content.handles).getD []

def owned (h : Heap) : List Value := h.cells.flatMap cellHandles

def put (h : Heap) (id : Nat) (c : Option Cell) : Heap := ⟨h.cells.set id c⟩

variable {h : Heap} {id : Nat} {c : Cell}

theorem getElem?_of_get? (hc : h.get? id = some c) : h.cells[id]? = some (some c) := by
  simpa [get?, Option.join_eq_some_iff] using hc

theorem lt_of_get? (hc : h.get? id = some c) : id < h.cells.length :=
  (List.getElem?_eq_some_iff.1 (getElem?_of_get? hc)).1

theorem get?_put (hlt : id < h.cells.length) (new : Option Cell) (id' : Nat) :
    (h.put id new).get? id' = if id' = id then new else h.get? id' := by
  unfold put get?
  rw [List.getElem?_set]
  by_cases he : id' = id
  · rw [if_pos he.symm, if_pos hlt, if_pos he]
    rfl
  · rw [if_neg (Ne.symm he), if_neg he]

theorem modify_eq_put (hc : h.get? id = some c) (f : Cell → Cell) :
    h.modify id f = h.put id (some (f c)) := by
  unfold modify put
  congr 1
  apply List.ext_getElem?
  intro i
  rw [List.getElem?_modify, List.getElem?_set]
  by_cases he : id = i
  · rw [if_pos he, if_pos (lt_of_get? hc), ← he, getElem?_of_get? hc]
    simp
  · rw [if_neg he]
    simp [he]

theorem modify_of_dead (hc : h.get? id = none) (f : Cell → Cell) : h.modify id f = h := by
  unfold modify
  obtain ⟨cells⟩ := h
  congr 1
  apply List.ext_getElem?
  intro i
  rw [List.getElem?_modify]
  by_cases he : id = i
  · subst he
    have hj : (cells[id]?).join = none := hc
    cases hi : cells[id]? with
    | none => rfl
    | some o =>
      cases o with
      | none => simp
      | some c => simp [hi] at hj
  · simp [he]

private theorem refs_flatMap_set (l : List (Option Cell)) (k : Nat) (old new : Option Cell)
    (hl : l[id]? = some old) :
    refs k ((l.set id new).flatMap cellHandles) + refs k (cellHandles old) =
      refs k (l.flatMap cellHandles) + refs k (cellHandles new) := by
  induction l generalizing id with
  | nil => simp at hl
  | cons x l ih =>
    cases id with
    | zero =>
      have hx : x = old := by simpa using hl
      simp only [List.set_cons_zero, List.flatMap_cons, refs_append, hx]
      omega
    | succ id =>
      have := ih (by simpa using hl)
      simp only [List.set_cons_succ, List.flatMap_cons, refs_append]
      omega

theorem refs_owned_put (hc : h.get? id = some c) (new : Option Cell) (k : Nat) :
    refs k (h.put id new).owned + refs k c.content.handles =
      refs k h.owned + refs k (cellHandles new) :=
  refs_flatMap_set h.cells k (some c) new (getElem?_of_get? hc)

theorem mem_owned_iff {v : Value} :
    v ∈ h.owned ↔ ∃ id c, h.get? id = some c ∧ v ∈ c.content.handles := by
  unfold owned
  rw [List.mem_flatMap]
  constructor
  · rintro ⟨o, ho, hv⟩
    obtain ⟨id, hid⟩ := List.mem_iff_getElem?.1 ho
    cases o with
    | none => exact absurd hv List.not_mem_nil
    | some c => exact ⟨id, c, by simp [get?, hid], hv⟩
  · rintro ⟨id, c, hc, hv⟩
    exact ⟨some c, List.mem_of_getElem? (getElem?_of_get? hc), hv⟩

theorem count_eq (hc : h.get? id = some c) : h.count id = c.count := by
  unfold count
  rw [hc]
  rfl

theorem count_of_dead (hc : h.get? id = none) : h.count id = 0 := by
  unfold count
  rw [hc]
  rfl

def content? (h : Heap) (id : Nat) : Option Content := (h.get? id).map Cell.content

theorem content?_eq_some_iff {x : Content} :
    h.content? id = some x ↔ ∃ n, h.get? id = some ⟨n, x⟩ := by
  unfold content?
  rw [Option.map_eq_some_iff]
  constructor
  · rintro ⟨⟨n, y⟩, hc, rfl⟩
    exact ⟨n, hc⟩
  · rintro ⟨n, hc⟩
    exact ⟨_, hc, rfl⟩

theorem instance?_eq_some_iff {i : Instance} :
    h.instance? id = some i ↔ h.content? id = some (.instanceOf i) := by
  rw [content?_eq_some_iff]
  unfold instance?
  split
  · rename_i n i' hc
    simp [hc]
  · rename_i hne
    simp only [reduceCtorEq, false_iff, not_exists]
    exact fun n => hne n i

theorem function?_eq_some_iff {f : Function} :
    h.function? id = some f ↔ h.content? id = some (.functionOf f) := by
  rw [content?_eq_some_iff]
  unfold function?
  split
  · rename_i n f' hc
    simp [hc]
  · rename_i hne
    simp only [reduceCtorEq, false_iff, not_exists]
    exact fun n => hne n f

theorem instance?_congr {h' : Heap} {id' : Nat} (he : h'.content? id' = h.content? id) :
    h'.instance? id' = h.instance? id := by
  apply Option.ext
  intro i
  rw [instance?_eq_some_iff, instance?_eq_some_iff, he]

theorem function?_congr {h' : Heap} {id' : Nat} (he : h'.content? id' = h.content? id) :
    h'.function? id' = h.function? id := by
  apply Option.ext
  intro f
  rw [function?_eq_some_iff, function?_eq_some_iff, he]

end Heap

end ScriptPlayer
