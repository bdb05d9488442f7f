import ScriptPlayer.Object.Access
import ScriptPlayer.Proofs.Container.ByteRuns

/-! A byte buffer as a list of bytes: one law for a write inside the contents and past their end,
and which byte a value is written as. -/
namespace ScriptPlayer

namespace ByteBuffer

/-- The contents after one byte was written at a place that may lie past their end. -/
structure Written (old new : List UInt8) (n : Nat) (byte : UInt8) : Prop where
  length : new.length = max old.length (n + 1)
  written : new[n]? = some byte
  kept : ∀ k, k < old.length → k ≠ n → new[k]? = old[k]?
  gap : ∀ k, old.length ≤ k → k < n → new[k]? = some 0

theorem written_set {old : List UInt8} {n : Nat} (h : n < old.length) (byte : UInt8) :
    Written old (old.set n byte) n byte where
  length := by
    rw [List.length_set]
    omega
  written := by rw [List.getElem?_set_self h]
  kept k _ hne := List.getElem?_set_ne (Ne.symm hne)
  gap k hle hlt := by omega

theorem written_append {old : List UInt8} {n : Nat} (h : old.length ≤ n) (byte : UInt8) :
    Written old (old ++ List.replicate (n - old.length) 0 ++ [byte]) n byte where
  length := by
    simp only [List.length_append, List.length_replicate, List.length_singleton]
    omega
  written := by
    have hlen : (old ++ List.replicate (n - old.length) 0).length = n := by
      rw [List.length_append, List.length_replicate]
      omega
    rw [List.getElem?_append_right (Nat.le_of_eq hlen), hlen, Nat.sub_self]
    rfl
  kept k hlt _ := by
    rw [List.append_assoc, List.getElem?_append_left hlt]
  gap k hle hlt := by
    rw [List.append_assoc, List.getElem?_append_right hle, List.getElem?_append_left]
    · exact List.getElem?_replicate_of_lt (by omega)
    · rw [List.length_replicate]
      omega

variable {b : ByteBuffer} {n : Nat} {byte : UInt8}

/-- A write succeeds inside the contents, and past them unless the length is fixed. -/
theorem exists_set (h : n < b.length ∨ b.fixed = false) (byte : UInt8) :
    ∃ new, b.set n byte = .ok { b with bytes := some new } ∧
      Written b.toList new.toList n byte := by
  unfold set
  by_cases hlt : n < b.length
  · rw [if_pos hlt]
    refine ⟨_, rfl, ?_⟩
    rw [ByteRuns.toList_set hlt]
    exact written_set (by rwa [length_toList]) byte
  · rw [if_neg hlt, if_neg (Bool.eq_false_iff.1 (h.resolve_left hlt))]
    have hle : b.toList.length ≤ n := by
      rw [length_toList]
      exact Nat.le_of_not_lt hlt
    refine ⟨_, rfl, ?_⟩
    rw [ByteRuns.toList_append, ByteRuns.toList_append, ByteRuns.toList_replicate,
      ByteRuns.toList_replicate, ← length_toList]
    exact written_append hle byte

theorem set_of_fixed (hle : b.length ≤ n) (hfixed : b.fixed = true) (byte : UInt8) :
    b.set n byte = .error (.fixedByteIndex n b.length) := by
  unfold set
  rw [if_neg (Nat.not_lt.2 hle), if_pos hfixed]

theorem getElem?_of_set {b' : ByteBuffer} (h : b.set n byte = .ok b') :
    b'.toList[n]? = some byte := by
  by_cases hroom : n < b.length ∨ b.fixed = false
  · obtain ⟨new, hset, hwritten⟩ := exists_set hroom byte
    obtain rfl := Except.ok.inj (hset.symm.trans h)
    exact hwritten.written
  · rw [not_or, Nat.not_lt, Bool.not_eq_false] at hroom
    rw [set_of_fixed hroom.1 hroom.2] at h
    cases h

theorem get_of_some (h : b.toList[n]? = some byte) : b.get n = .ok byte := by
  unfold get
  rw [get?_eq, h]

theorem get_of_length_le (hle : b.length ≤ n) : b.get n = .error (.byteIndex n b.length) := by
  unfold get
  rw [get?_eq, getElem?_eq_none_iff.2 hle]

end ByteBuffer

theorem Instance.toNat_toByte (v : Value) : ((Instance.toByte v).toNat : Int) =
    if v.isUndefined then 0 else v.toInt.toInt % 256 := by
  unfold toByte
  split
  · rfl
  · have hbits : v.toInt.toUInt32.toUInt8.toNat = v.toInt.toBitVec.toNat % 256 := by
      rw [UInt32.toNat_toUInt8]
      rfl
    rw [hbits, ← Int32.toInt_toBitVec, BitVec.toInt_eq_toNat_cond]
    split <;> omega

end ScriptPlayer
