import ScriptPlayer.Proofs.Ownership.Transfer

/-! What exactly giving up handles does to the counts: handles that are not the last ones only lower
counts, and what is destroyed gives up all that it owned. -/
namespace ScriptPlayer.Heap

variable {h h' : Heap} {n : Nat} {outside : List Value}

theorem ext_get? {h h' : Heap} (hlen : h'.cells.length = h.cells.length)
    (hget : ∀ id, h'.get? id = h.get? id) : h' = h := by
  have hcells : h'.cells = h.cells := by
    apply List.ext_getElem hlen
    intro id hlt' hlt
    have := hget id
    unfold get? at this
    rwa [List.getElem?_eq_getElem hlt', List.getElem?_eq_getElem hlt, Option.join_some,
      Option.join_some] at this
  cases h
  cases h'
  exact congrArg Heap.mk hcells

theorem setContent_self {h : Heap} {id : Nat} {x : Content} (hx : h.content? id = some x) :
    h.setContent id x = h := by
  obtain ⟨n, hc⟩ := content?_eq_some_iff.1 hx
  rw [setContent_eq hc]
  apply ext_get? (List.length_set ..)
  intro id'
  refine (get?_put (lt_of_get? hc) _ id').trans ?_
  split
  · rename_i he
    rw [he, hc]
  · rfl

theorem get?_setContent (h : Heap) (o : ObjectId) (x : Content) (id : Nat) :
    (h.setContent o x).get? id =
      (h.get? id).map fun c => if id = o then { c with content := x } else c := by
  cases hc : h.get? o with
  | none =>
    have hdead : h.setContent o x = h := modify_of_dead hc _
    rw [hdead]
    cases hid : h.get? id with
    | none => rfl
    | some c =>
      have hne : id ≠ o := by
        rintro rfl
        cases hc.symm.trans hid
      rw [Option.map_some, if_neg hne]
  | some c =>
    rw [setContent_eq hc]
    refine (get?_put (lt_of_get? hc) _ id).trans ?_
    split
    · rename_i he
      rw [he, hc]
      rfl
    · exact Option.map_id'.symm

theorem count_setContent (h : Heap) (o : ObjectId) (x : Content) (id : Nat) :
    (h.setContent o x).count id = h.count id := by
  rw [count, get?_setContent, count]
  cases h.get? id with
  | none => rfl
  | some c =>
    by_cases he : id = o
    · rw [Option.map_some, if_pos he]
      rfl
    · rw [Option.map_some, if_neg he]

theorem get?_retainAll (h : Heap) (vs : List Value) (id : Nat) :
    (h.retainAll vs).get? id =
      (h.get? id).map fun c => { c with count := c.count + refs id vs } := by
  induction vs generalizing h with
  | nil => exact Option.map_id'.symm
  | cons v vs ih =>
    refine (ih (h.retain v)).trans ?_
    rw [get?_retain, Option.map_map]
    congr 1
    funext c
    simp only [Function.comp_apply, refs_cons, Nat.add_assoc]

/-- A handle that is not the last one only lowers the count of its cell, and the others are not the
last ones after it. -/
theorem releaseAll_cons_of_lt {v : Value} {vs : List Value} {k : Nat} (hv : v.cell? = some k)
    (hlt : ∀ id, 0 < refs id (v :: vs) → refs id (v :: vs) < h.count id) :
    ∃ c, h.get? k = some c ∧
      h.releaseAll (v :: vs) = (h.put k (some { c with count := c.count - 1 })).releaseAll vs ∧
      ∀ id, 0 < refs id vs →
        refs id vs < (h.put k (some { c with count := c.count - 1 })).count id := by
  have hk := hlt k (refs_pos_of_mem (List.mem_cons_self ..) hv)
  rw [refs_cons_of_eq hv] at hk
  cases hc : h.get? k with
  | none =>
    rw [count_of_dead hc] at hk
    exact absurd hk (Nat.not_lt_zero _)
  | some c =>
    rw [count_eq hc] at hk
    refine ⟨c, rfl, releaseAll_cons_of_many hv hc (by omega) vs, fun id hid => ?_⟩
    rw [count_put hc]
    split
    · rename_i he
      rw [he]
      change refs k vs < c.count - 1
      omega
    · rename_i he
      have hne : v.cell? ≠ some id := fun h => he (Option.some.inj (h.symm.trans hv))
      rw [← refs_cons_of_ne hne vs] at hid ⊢
      exact hlt id hid

/-- Handles that are not the last ones to their cells are given up without destroying anything. -/
theorem get?_releaseAll {vs : List Value} (hlt : ∀ id, 0 < refs id vs → refs id vs < h.count id)
    (id : Nat) :
    (h.releaseAll vs).get? id =
      (h.get? id).map fun c => { c with count := c.count - refs id vs } := by
  induction vs generalizing h with
  | nil =>
    rw [releaseAll_nil]
    exact Option.map_id'.symm
  | cons v vs ih =>
    cases hv : v.cell? with
    | none =>
      have hrefs : ∀ k, refs k (v :: vs) = refs k vs := fun k =>
        refs_cons_of_ne (by simp [hv]) vs
      rw [releaseAll_cons_of_none hv, ih fun k hk => by rw [← hrefs k] at hk ⊢; exact hlt k hk,
        hrefs]
    | some k =>
      obtain ⟨c, hc, he, hlt'⟩ := releaseAll_cons_of_lt hv hlt
      rw [he, ih hlt', get?_put (lt_of_get? hc)]
      split
      · rename_i hid
        rw [hid, hc, refs_cons_of_eq hv]
        simp only [Option.map_some, Nat.sub_sub, Nat.add_comm]
      · rename_i hid
        rw [refs_cons_of_ne fun h => hid (Option.some.inj (h.symm.trans hv))]

/-- What the cells owned that the later heap has no longer. -/
def freed (h h' : Heap) : List Value :=
  (h.cells.zip h'.cells).flatMap fun c => if c.2.isSome then [] else cellHandles c.1

private theorem refs_flatMap_zip (id : Nat) (l l' : List (Option Cell))
    (hlen : l'.length = l.length)
    (hsame : ∀ (k : Nat) (c' : Cell), (l'[k]?).join = some c' →
      ∃ c : Cell, (l[k]?).join = some c ∧ c.content = c'.content) :
    refs id (l.flatMap cellHandles) = refs id (l'.flatMap cellHandles) +
      refs id ((l.zip l').flatMap fun c => if c.2.isSome then [] else cellHandles c.1) := by
  induction l generalizing l' with
  | nil =>
    obtain rfl := List.eq_nil_of_length_eq_zero hlen
    rfl
  | cons x l ih =>
    cases l' with
    | nil => exact absurd hlen (by simp)
    | cons x' l' =>
      have htail := ih l' (by simpa using hlen) fun k c' hk => hsame (k + 1) c' hk
      simp only [List.flatMap_cons, List.zip_cons_cons, refs_append, htail]
      cases x' with
      | none =>
        simp only [Option.isSome_none, Bool.false_eq_true, if_false]
        change _ = 0 + _ + _
        omega
      | some c' =>
        obtain ⟨c, hc, he⟩ := hsame 0 c' rfl
        have hx : x = some c := by simpa using hc
        rw [hx]
        simp only [Option.isSome_some, if_true, cellHandles, Option.map_some, Option.getD_some, he,
          refs_nil]
        omega

theorem Fades.refs_owned (hf : h.Fades h') (id : Nat) :
    refs id h.owned = refs id h'.owned + refs id (h.freed h') := by
  apply refs_flatMap_zip id h.cells h'.cells hf.length
  intro k c' hc'
  have hx : h'.content? k = some c'.content := by
    rw [content?, show h'.get? k = some c' from hc']
    rfl
  obtain ⟨m, hc⟩ := content?_eq_some_iff.1 (hf.content k _ hx)
  exact ⟨_, hc, rfl⟩

/-- How the counts come from those of an earlier heap: by the handles taken and given up meanwhile,
and by what destroyed cells owned. -/
structure Accounts (h h' : Heap) (gone taken : List Value) : Prop where
  fades : h.Fades h'
  counts : ∀ id, h'.count id + refs id gone + refs id (h.freed h') = h.count id + refs id taken

theorem freed_eq_nil (hlive : ∀ k, (h.get? k).isSome → (h'.get? k).isSome) : h.freed h' = [] := by
  unfold freed
  rw [List.flatMap_eq_nil_iff]
  rintro ⟨c, c'⟩ hmem
  obtain ⟨k, hk⟩ := List.mem_iff_getElem?.1 hmem
  obtain ⟨hc, hc'⟩ := List.getElem?_zip_eq_some.1 hk
  cases c' with
  | some d => rfl
  | none =>
    cases c with
    | none => rfl
    | some d =>
      have halive := hlive k (by simp [get?, hc])
      simp [get?, hc'] at halive

end ScriptPlayer.Heap
