import Mathlib.Data.List.Basic
import ScriptPlayer.Object.ByteBuffer

/-! Runs of bytes are lists of bytes: what is done with the runs is done with the list. -/
namespace ScriptPlayer

namespace ByteRuns

variable {r : ByteRuns} {i : Nat}

theorem toList_cons (run : Nat × UInt8) (runs : List (Nat × UInt8)) :
    toList ⟨run :: runs⟩ = List.replicate run.1 run.2 ++ toList ⟨runs⟩ := rfl

@[simp] theorem toList_replicate (n : Nat) (byte : UInt8) :
    (replicate n byte).toList = List.replicate n byte := by
  unfold replicate
  split
  · rename_i hn
    rw [hn]
    rfl
  · simp [toList]

@[simp] theorem toList_ofList (bytes : List UInt8) : (ofList bytes).toList = bytes := by
  simp [toList, ofList, List.flatMap_map]

@[simp] theorem toList_append (r r' : ByteRuns) : (r ++ r').toList = r.toList ++ r'.toList :=
  List.flatMap_append

@[simp] theorem length_toList (r : ByteRuns) : r.toList.length = r.length := by
  obtain ⟨runs⟩ := r
  induction runs with
  | nil => rfl
  | cons run runs ih =>
    rw [toList_cons, List.length_append, List.length_replicate, ih]
    rfl

@[simp] theorem length_replicate (n : Nat) (byte : UInt8) : (replicate n byte).length = n := by
  rw [← length_toList, toList_replicate, List.length_replicate]

@[simp] theorem get?_eq (r : ByteRuns) (i : Nat) : r.get? i = r.toList[i]? := by
  obtain ⟨runs⟩ := r
  change get?.go runs i = _
  induction runs generalizing i with
  | nil => rfl
  | cons run runs ih =>
    rw [get?.go, toList_cons]
    split
    · rw [List.getElem?_append_left (by simpa), List.getElem?_replicate_of_lt ‹_›]
    · have hle : (List.replicate run.1 run.2).length ≤ i := by simp; omega
      rw [List.getElem?_append_right hle, ih, List.length_replicate]

@[simp] theorem toList_take (r : ByteRuns) (i : Nat) : (r.take i).toList = r.toList.take i := by
  obtain ⟨runs⟩ := r
  change toList ⟨take.go runs i⟩ = _
  induction runs generalizing i with
  | nil => exact List.take_nil.symm
  | cons run runs ih =>
    rw [take.go, toList_cons]
    split
    · rw [List.take_append_of_le_length (by simpa), List.take_replicate, Nat.min_eq_left ‹_›]
      simp [toList]
    · have hle : (List.replicate run.1 run.2).length ≤ i := by simp; omega
      rw [toList_cons, ih, List.take_append, List.take_of_length_le hle, List.length_replicate]

@[simp] theorem toList_drop (r : ByteRuns) (i : Nat) : (r.drop i).toList = r.toList.drop i := by
  obtain ⟨runs⟩ := r
  change toList ⟨drop.go runs i⟩ = _
  induction runs generalizing i with
  | nil => exact List.drop_nil.symm
  | cons run runs ih =>
    rw [drop.go, toList_cons]
    split
    · rw [List.drop_append_of_le_length (by simp; omega), List.drop_replicate, toList_cons]
    · have hle : (List.replicate run.1 run.2).length ≤ i := by simp; omega
      rw [ih, List.drop_append, List.drop_of_length_le hle, List.length_replicate,
        List.nil_append]

theorem drop_empty (i : Nat) : empty.drop i = empty := rfl

theorem drop_replicate (n : Nat) (byte : UInt8) : (replicate n byte).drop n = empty := by
  unfold replicate
  split
  · rfl
  · simp [drop, drop.go, empty]

theorem toList_set (h : i < r.length) (byte : UInt8) :
    (r.set i byte).toList = r.toList.set i byte := by
  rw [List.set_eq_take_append_cons_drop, if_pos (by rwa [length_toList])]
  simp [set]

end ByteRuns

namespace ByteBuffer

@[simp] theorem length_toList (b : ByteBuffer) : b.toList.length = b.length :=
  b.stored.length_toList

@[simp] theorem get?_eq (b : ByteBuffer) (i : Nat) : b.get? i = b.toList[i]? := b.stored.get?_eq i

theorem getElem?_eq_none_iff {b : ByteBuffer} {i : Nat} : b.toList[i]? = none ↔ b.length ≤ i := by
  rw [List.getElem?_eq_none_iff, length_toList]

end ByteBuffer

end ScriptPlayer
