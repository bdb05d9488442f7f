import ScriptPlayer.Proofs.Container.ByteBuffer

/-! Copies between byte buffers. The bytes are taken at the position of one buffer before the front
of the other is overwritten, so that both may be the same. -/
namespace ScriptPlayer.ByteBuffer

def chunk (b : ByteBuffer) (n : Nat) : List UInt8 := (b.toList.drop b.position).take n

def filled (b : ByteBuffer) (front : List UInt8) : ByteBuffer :=
  { b with bytes := some (.ofList front ++ b.stored.drop front.length) }

/-- Whether `n` bytes have room at the front: there is no storage yet, or it is that long. -/
def Fits (b : ByteBuffer) (n : Nat) : Prop := b.bytes = none ∨ n ≤ b.length

/-- The buffer `d` after it has received `n` bytes from the position of the buffer `b`. -/
structure Received (b d new : ByteBuffer) (n : Nat) : Prop where
  front : ∀ k, k < n → new.toList[k]? = b.toList[b.position + k]?
  rest : ∀ k, n ≤ k → new.toList[k]? = d.toList[k]?
  allocated : new.bytes.isSome
  length : new.length = if d.bytes.isSome then d.length else n
  fixed : new.fixed = d.fixed

variable {b d : ByteBuffer} {n p : Nat} {front : List UInt8}

@[simp] theorem toList_setPosition (b : ByteBuffer) (p : Nat) :
    (b.setPosition p).toList = b.toList := rfl

@[simp] theorem length_setPosition (b : ByteBuffer) (p : Nat) :
    (b.setPosition p).length = b.length := rfl

@[simp] theorem toList_filled (b : ByteBuffer) (front : List UInt8) :
    (b.filled front).toList = front ++ b.toList.drop front.length := by
  change (ByteRuns.ofList front ++ b.stored.drop front.length).toList = _
  rw [ByteRuns.toList_append, ByteRuns.toList_ofList, ByteRuns.toList_drop]
  rfl

theorem toList_of_none (h : b.bytes = none) : b.toList = [] := by
  rw [toList, stored, h]
  rfl

theorem not_fits_iff : ¬b.Fits n ↔ b.bytes.isSome ∧ b.length < n := by
  rw [Fits, not_or, Nat.not_le, ← ne_eq, Option.ne_none_iff_isSome]

theorem length_chunk (h : b.position + n ≤ b.length) : (b.chunk n).length = n := by
  rw [chunk, List.length_take, List.length_drop, length_toList]
  omega

theorem getElem?_chunk {k : Nat} (hk : k < n) : (b.chunk n)[k]? = b.toList[b.position + k]? := by
  rw [chunk, List.getElem?_take_of_lt hk, List.getElem?_drop]

theorem length_filled (h : b.Fits front.length) :
    (b.filled front).length = if b.bytes.isSome then b.length else front.length := by
  have hlen : (b.filled front).length = front.length + (b.length - front.length) := by
    rw [← length_toList, toList_filled, List.length_append, List.length_drop, length_toList]
  cases hb : b.bytes with
  | none =>
    rw [hlen, ← length_toList, toList_of_none hb]
    simp
  | some bytes =>
    have hle := h.resolve_left (by simp [hb])
    rw [hlen, if_pos (by rfl)]
    omega

theorem received_filled (hroom : b.position + n ≤ b.length) (hfits : d.Fits n) (p : Nat) :
    Received b d ((d.setPosition p).filled (b.chunk n)) n := by
  have hlen := length_chunk hroom
  have hfits' : (d.setPosition p).Fits (b.chunk n).length := hlen.symm ▸ hfits
  refine ⟨fun k hk => ?_, fun k hk => ?_, rfl, ?_, rfl⟩
  · rw [toList_filled, List.getElem?_append_left (by omega), getElem?_chunk hk]
  · rw [toList_filled, List.getElem?_append_right (by omega), hlen, List.getElem?_drop,
      Nat.add_sub_cancel' hk, toList_setPosition]
  · rw [length_filled hfits', hlen]
    rfl

theorem Received.toList_eq {new : ByteBuffer} (h : Received b d new n) (hd : d.bytes = none) :
    new.toList = b.chunk n := by
  have hlen : new.toList.length = n := by
    have hlength := h.length
    rwa [hd, ← length_toList] at hlength
  apply List.ext_getElem?
  intro k
  by_cases hk : k < n
  · rw [h.front k hk, getElem?_chunk hk]
  · have hchunk : (b.chunk n).length ≤ k := by
      rw [chunk]
      exact Nat.le_trans (List.length_take_le _ _) (Nat.le_of_not_lt hk)
    rw [List.getElem?_eq_none (by omega), List.getElem?_eq_none hchunk]

/-! The operations of a copy, by whether there is enough to take and room to put it -/

theorem take_of_room (h : b.position + n ≤ b.length) :
    b.take 0 n = .ok (b.chunk n, b.setPosition (b.position + n)) := by
  unfold take
  rw [if_neg (fun h => h rfl), if_pos h, ByteRuns.toList_take, ByteRuns.toList_drop]
  rfl

theorem take_of_short (h : b.length < b.position + n) : b.take 0 n = .error .sliceRange := by
  unfold take
  rw [if_neg (fun h => h rfl), if_neg (Nat.not_le.2 h)]

theorem acquire_of_none (h : b.bytes = none) (n : Nat) :
    b.acquire n = .ok { b with bytes := some (.replicate n 0) } := by
  unfold acquire
  rw [h]
  exact if_pos (by simp)

theorem acquire_of_some {bytes : ByteRuns} (h : b.bytes = some bytes) (n : Nat) :
    b.acquire n = if n ≤ b.length then .ok b else .error (.bufferTooSmall b.length n) := by
  obtain ⟨_, p, fixed⟩ := b
  subst h
  rfl

theorem fill_of_fits (h : b.Fits front.length) : b.fill front = .ok (b.filled front) := by
  unfold fill
  cases hb : b.bytes with
  | none =>
    rw [acquire_of_none hb, filled, stored, hb, Option.getD_none, ByteRuns.drop_empty]
    simp [Except.map, stored, ByteRuns.drop_replicate]
  | some bytes =>
    rw [acquire_of_some hb, if_pos (h.resolve_left (by simp [hb]))]
    rfl

theorem fill_of_narrow (hb : b.bytes.isSome) (h : b.length < front.length) :
    b.fill front = .error (.bufferTooSmall b.length front.length) := by
  obtain ⟨bytes, hbytes⟩ := Option.isSome_iff_exists.1 hb
  unfold fill
  rw [acquire_of_some hbytes, if_neg (Nat.not_le.2 h)]
  rfl

theorem chunk_append (b : ByteBuffer) (n m : Nat) :
    b.chunk n ++ (b.setPosition (b.position + n)).chunk m = b.chunk (n + m) := by
  change (b.toList.drop b.position).take n ++ (b.toList.drop (b.position + n)).take m = _
  rw [← List.drop_drop, ← List.take_add]
  rfl

end ScriptPlayer.ByteBuffer
