import ScriptPlayer.Proofs.Run.Perform

/-! Instances that are stored with the handles that they had. No count changes, so that frames which
open before such stores and close after them leave the stores and nothing else. -/
namespace ScriptPlayer

namespace Heap

variable {h : Heap} {vs : List Value}

def withInstances (h : Heap) (l : List (ObjectId × Instance)) : Heap :=
  l.foldl (fun h e => h.setContent e.1 (.instanceOf e.2)) h

theorem count_withInstances (h : Heap) (l : List (ObjectId × Instance)) (id : Nat) :
    (h.withInstances l).count id = h.count id := by
  induction l generalizing h with
  | nil => rfl
  | cons e l ih => exact (ih _).trans (count_setContent h e.1 (.instanceOf e.2) id)

theorem retainAll_setContent (h : Heap) (o : Nat) (x : Content) (vs : List Value) :
    (h.retainAll vs).setContent o x = (h.setContent o x).retainAll vs := by
  have hlength : ∀ k : Heap, (k.setContent o x).cells.length = k.cells.length :=
    fun k => List.length_modify _ _ _
  apply ext_get?
  · rw [hlength, length_cells_retainAll, length_cells_retainAll, hlength]
  · intro id
    rw [get?_setContent, get?_retainAll, get?_retainAll, get?_setContent, Option.map_map,
      Option.map_map]
    congr 1
    funext c
    by_cases hid : id = o
    · simp only [Function.comp_apply, if_pos hid]
    · simp only [Function.comp_apply, if_neg hid]

theorem retainAll_withInstances (h : Heap) (vs : List Value) (l : List (ObjectId × Instance)) :
    (h.retainAll vs).withInstances l = (h.withInstances l).retainAll vs := by
  induction l generalizing h with
  | nil => rfl
  | cons e l ih =>
    change ((h.retainAll vs).setContent e.1 (.instanceOf e.2)).withInstances l = _
    rw [retainAll_setContent, ih]
    rfl

/-- Handles to cells that others hold as well are taken and given up without a trace. -/
theorem releaseAll_retainAll {held : List Value} (hrefs : ∀ id, refs id held = refs id vs)
    (hlive : ∀ id, 0 < refs id vs → 0 < h.count id) : (h.retainAll vs).releaseAll held = h := by
  have hlt : ∀ id, 0 < refs id held → refs id held < (h.retainAll vs).count id := by
    intro id hpos
    rw [hrefs] at hpos ⊢
    have hcount := hlive id hpos
    unfold count at hcount ⊢
    rw [get?_retainAll]
    cases hc : h.get? id with
    | none => simp [hc] at hcount
    | some c =>
      simp only [hc, Option.map_some, Option.getD_some] at hcount ⊢
      omega
  apply ext_get?
  · rw [(fades_releaseAll _ _).length, length_cells_retainAll]
  · intro k
    rw [get?_releaseAll hlt, get?_retainAll, Option.map_map, hrefs]
    have hsame : (fun c : Cell => { c with count := c.count - refs k vs }) ∘
        (fun c : Cell => { c with count := c.count + refs k vs }) = id := by
      funext c
      simp only [Function.comp_apply, Nat.add_sub_cancel, id]
    rw [hsame, Option.map_id_apply]

end Heap

namespace World

variable {w : World} {o : ObjectId} {i : Instance}

def withInstances (w : World) (l : List (ObjectId × Instance)) : World :=
  { w with heap := w.heap.withInstances l }

theorem content?_withInstance (hi : w.instance? o = some i) (j : Instance) (id : Nat) :
    (w.withInstances [(o, j)]).heap.content? id =
      if id = o then some (.instanceOf j) else w.heap.content? id :=
  Heap.content?_setContent (Heap.instance?_eq_some_iff.1 hi) _ _

theorem instance?_withInstance (hi : w.instance? o = some i) (j : Instance) (p : ObjectId) :
    (w.withInstances [(o, j)]).instance? p = if p = o then some j else w.instance? p := by
  by_cases hp : p = o
  · rw [if_pos hp]
    exact Heap.instance?_eq_some_iff.2 ((content?_withInstance hi j p).trans (if_pos hp))
  · rw [if_neg hp]
    exact Heap.instance?_congr ((content?_withInstance hi j p).trans (if_neg hp))

/-- What a frame holds is given up without a trace as the frame closes, if others hold it as well
and what is kept are no handles. -/
theorem popFrame_eq {f below : Frame} {rest : List Frame} {h : Heap} {vs keep : List Value}
    (hf : w.frames = f :: below :: rest) (hheap : w.heap = h.retainAll vs)
    (hrefs : ∀ id, refs id f.held = refs id vs) (hlive : ∀ id, 0 < refs id vs → 0 < h.count id)
    (hkeep : ∀ id, refs id keep = 0) : w.popFrame keep =
      { w with heap := h, frames := { below with held := keep ++ below.held } :: rest } := by
  have hnone : (h.retainAll vs).retainAll keep = h.retainAll vs := by
    apply Heap.ext_get? (Heap.length_cells_retainAll _ _)
    intro id
    rw [Heap.get?_retainAll, hkeep]
    exact Option.map_id'
  unfold popFrame
  rw [hf, hheap]
  dsimp only
  rw [hnone, Heap.releaseAll_retainAll hrefs hlive]

end World

end ScriptPlayer
