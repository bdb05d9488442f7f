import ScriptPlayer.Proofs.Ownership.Release
import ScriptPlayer.Proofs.World.Preservation

/-! Storing an instance exactly: what becomes of the counts while no last handle is given up. -/
namespace ScriptPlayer.World

variable {w : World} {o : ObjectId} {i j : Instance}

theorem get?_putInstance (hi : w.instance? o = some i)
    (hlive : ∀ id, 0 < refs id i.handles → (w.heap.get? id).isSome)
    (hlt : ∀ id, 0 < refs id i.handles → refs id i.handles < w.heap.count id + refs id j.handles)
    (id : Nat) : (w.putInstance o j).heap.get? id =
      ((w.heap.setContent o (.instanceOf j)).get? id).map fun c =>
        { c with count := c.count + refs id j.handles - refs id i.handles } := by
  have hget : ∀ k, ((w.heap.retainAll j.handles).setContent o (.instanceOf j)).get? k =
      ((w.heap.setContent o (.instanceOf j)).get? k).map fun c =>
        { c with count := c.count + refs k j.handles } := by
    intro k
    rw [Heap.get?_setContent, Heap.get?_setContent, Heap.get?_retainAll, Option.map_map,
      Option.map_map]
    congr 1
    funext c
    by_cases hk : k = o
    · simp only [Function.comp_apply, if_pos hk]
    · simp only [Function.comp_apply, if_neg hk]
  unfold World.putInstance
  rw [hi]
  dsimp only
  rw [Heap.get?_releaseAll, hget, Option.map_map]
  · rfl
  · intro k hk
    obtain ⟨c, hc⟩ := Option.isSome_iff_exists.1 (hlive k hk)
    have hk' := hlt k hk
    rw [Heap.count_eq hc] at hk'
    rw [Heap.count, hget, Heap.get?_setContent, hc]
    simp only [Option.map_some, Option.getD_some]
    by_cases he : k = o
    · rw [if_pos he]
      exact hk'
    · rw [if_neg he]
      exact hk'

/-- The handles that an instance gives up refer to cells that exist. -/
theorem Sound.exists_cell (hs : w.Sound) {vs : List Value} (hvs : ∀ v ∈ vs, w.isValid v) {id : Nat}
    (hpos : 0 < refs id vs) : ∃ c, w.heap.get? id = some c ∧ 0 < c.count := by
  obtain ⟨v, hv, hcell⟩ := exists_mem_of_refs_pos hpos
  obtain ⟨c, hc⟩ := (isValid_iff_refers.1 (hvs v hv)).get? hcell
  exact ⟨c, hc, hs.heap.live id c hc⟩

/-- An instance that owns the same handles as before is stored without any of them changing
hands. -/
theorem Sound.putInstance_of_handles (hs : w.Sound) (hi : w.instance? o = some i)
    (hh : j.handles = i.handles) :
    w.putInstance o j = { w with heap := w.heap.setContent o (.instanceOf j) } := by
  have hcell : ∀ id, 0 < refs id i.handles → ∃ c, w.heap.get? id = some c ∧ 0 < c.count :=
    fun _ => hs.exists_cell fun v hv => hs.isValid_of_mem_handles hi hv
  obtain ⟨c, hc⟩ := Heap.content?_eq_some_iff.1 (Heap.instance?_eq_some_iff.1 hi)
  have hlength : (w.heap.setContent o (.instanceOf j)).cells.length = w.heap.cells.length := by
    rw [Heap.setContent_eq hc]
    exact List.length_set
  have hheap : (w.putInstance o j).heap = w.heap.setContent o (.instanceOf j) := by
    apply Heap.ext_get? ((length_cells_putInstance w o j).trans hlength.symm)
    intro k
    rw [get?_putInstance hi, hh]
    · have hsame : (fun c : Cell => { c with
          count := c.count + refs k i.handles - refs k i.handles }) = id := by
        funext c
        simp only [Nat.add_sub_cancel, id]
      rw [hsame, Option.map_id_apply]
    · intro id hpos
      obtain ⟨c, hc, -⟩ := hcell id hpos
      exact Option.isSome_iff_exists.2 ⟨c, hc⟩
    · intro id hpos
      obtain ⟨c, hc, hlive⟩ := hcell id hpos
      rw [Heap.count_eq hc, hh]
      omega
  have heq : w.putInstance o j = { w with heap := (w.putInstance o j).heap } := by
    unfold World.putInstance
    rw [hi]
  rw [heq, hheap]

theorem Sound.putInstance_self (hs : w.Sound) (hi : w.instance? o = some i) :
    w.putInstance o i = w := by
  rw [hs.putInstance_of_handles hi rfl, Heap.setContent_self (Heap.instance?_eq_some_iff.1 hi)]

end ScriptPlayer.World
