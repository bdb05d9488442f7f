import ScriptPlayer.Proofs.Ownership.Release

/-! Giving up handles in a heap of which only some cells matter. Cells that are kept alive from
outside, or by one another, survive whatever else is given up; and places for cells that are no more
make no difference. -/
namespace ScriptPlayer.Heap

variable {h h' : Heap} {n id : Nat} {outside vs : List Value} {K : Nat → Prop}

/-- Each of these cells is referred to by a handle outside the heap, or by one that another of them
owns. -/
def Anchors (h : Heap) (outside : List Value) (K : Nat → Prop) : Prop :=
  ∀ id, K id → (∃ v ∈ outside, v.cell? = some id) ∨
    ∃ k x, K k ∧ h.content? k = some x ∧ ∃ v ∈ x.handles, v.cell? = some id

theorem Anchors.congr (ha : h.Anchors outside K)
    (hsame : ∀ k, K k → h'.content? k = h.content? k) : h'.Anchors outside K := by
  intro id hid
  rcases ha id hid with hout | ⟨k, x, hk, hx, hv⟩
  · exact .inl hout
  · exact .inr ⟨k, x, hk, (hsame k hk).trans hx, hv⟩

theorem refs_owned_pos {x : Content} {k : Nat} {v : Value} (hx : h.content? k = some x)
    (hv : v ∈ x.handles) (hcell : v.cell? = some id) : 0 < refs id h.owned := by
  obtain ⟨m, hc⟩ := content?_eq_some_iff.1 hx
  exact refs_pos_of_mem (mem_owned_iff.2 ⟨k, ⟨m, x⟩, hc, hv⟩) hcell

/-- A handle that is given up is never the last one to an anchored cell. -/
theorem Anchors.one_lt_count (ha : h.Anchors outside K) {v : Value}
    (hs : h.Sound n (v :: vs ++ outside)) (hv : v.cell? = some id) (hid : K id) :
    1 < h.count id := by
  have hcount := hs.counted id
  rw [List.cons_append, List.cons_append, refs_cons_of_eq hv] at hcount
  simp only [refs_append] at hcount
  rcases ha id hid with ⟨u, hu, hcell⟩ | ⟨k, x, -, hx, u, hu, hcell⟩
  · have := refs_pos_of_mem hu hcell
    omega
  · have := refs_owned_pos hx hu hcell
    omega

theorem Sound.content?_releaseAll (hs : h.Sound n (vs ++ outside)) (ha : h.Anchors outside K) :
    ∀ id, K id → (h.releaseAll vs).content? id = h.content? id := by
  induction h, vs using releaseAll_induct with
  | nil h =>
    rw [releaseAll_nil]
    exact fun _ _ => rfl
  | skip h v vs hnone he ih =>
    rw [he]
    exact ih (hs.skip hnone) ha
  | destroy h v vs id c hv hc hone he ih =>
    have hsame : ∀ k, K k → (h.put id none).content? k = h.content? k := by
      intro k hk
      have hne : k ≠ id := by
        rintro rfl
        have := ha.one_lt_count hs hv hk
        rw [count_eq hc] at this
        omega
      rw [content?_put hc, if_neg hne]
    rw [he]
    intro k hk
    refine (ih ?_ (ha.congr hsame) k hk).trans (hsame k hk)
    rw [List.append_assoc]
    exact hs.put_none hv hc hone
  | lower h v vs id c hv hc hmany he ih =>
    have hsame : ∀ k, (h.put id (some { c with count := c.count - 1 })).content? k =
        h.content? k := by
      intro k
      rw [content?_put hc]
      split
      · rename_i hk
        rw [hk, content?, hc]
        rfl
      · rfl
    rw [he]
    intro k hk
    exact (ih (hs.lower hv hc hmany) (ha.congr fun k _ => hsame k) k hk).trans (hsame k)

theorem get?_releaseAll_congr (hsame : ∀ id, h'.get? id = h.get? id) (id : Nat) :
    (h'.releaseAll vs).get? id = (h.releaseAll vs).get? id := by
  induction h, vs using releaseAll_induct generalizing h' with
  | nil h =>
    rw [releaseAll_nil, releaseAll_nil]
    exact hsame id
  | skip h v vs hnone he ih =>
    have hskip : h'.releaseAll (v :: vs) = h'.releaseAll vs := by
      rcases releaseAll_cons_cases h' v vs with ⟨-, he'⟩ | ⟨k, c, hv, hc, -⟩ | ⟨k, c, hv, hc, -⟩
      · exact he'
      · exact absurd ((hsame k).symm.trans hc) (hnone k c hv)
      · exact absurd ((hsame k).symm.trans hc) (hnone k c hv)
    rw [he, hskip]
    exact ih hsame
  | destroy h v vs k c hv hc hone he ih =>
    have hc' := (hsame k).trans hc
    rw [he, releaseAll_cons_of_last hv hc' hone]
    refine ih fun k' => ?_
    rw [get?_put (lt_of_get? hc'), get?_put (lt_of_get? hc), hsame]
  | lower h v vs k c hv hc hmany he ih =>
    have hc' := (hsame k).trans hc
    rw [he, releaseAll_cons_of_many hv hc' hmany]
    refine ih fun k' => ?_
    rw [get?_put (lt_of_get? hc'), get?_put (lt_of_get? hc), hsame]

end ScriptPlayer.Heap
