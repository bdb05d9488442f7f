import ScriptPlayer.Proofs.Ownership.Heap

/-! Taking handles, giving them up, allocating and overwriting keep a heap sound. Each rule says
which handles move between the heap and its outside. -/
namespace ScriptPlayer.Heap

variable {h : Heap} {n : Nat} {outside : List Value}

/-! Taking handles -/

theorem retain_of_none {v : Value} (hv : v.cell? = none) (h : Heap) : h.retain v = h := by
  unfold retain
  rw [hv]

theorem retain_of_some {v : Value} {id : Nat} (hv : v.cell? = some id) {c : Cell}
    (hc : h.get? id = some c) :
    h.retain v = h.put id (some { c with count := c.count + 1 }) := by
  unfold retain
  rw [hv]
  exact modify_eq_put hc _

theorem retain_of_dead {v : Value} {id : Nat} (hv : v.cell? = some id) (hc : h.get? id = none) :
    h.retain v = h := by
  unfold retain
  rw [hv]
  exact modify_of_dead hc _

theorem get?_retain (h : Heap) (v : Value) (id : Nat) :
    (h.retain v).get? id =
      (h.get? id).map fun c =>
        { c with count := c.count + if v.cell? = some id then 1 else 0 } := by
  cases hv : v.cell? with
  | none =>
    rw [retain_of_none hv]
    cases h.get? id with
    | none => rfl
    | some c => simp
  | some k =>
    cases hc : h.get? k with
    | none =>
      rw [retain_of_dead hv hc]
      by_cases hk : k = id
      · rw [← hk, hc]
        rfl
      · cases h.get? id with
        | none => rfl
        | some c => simp [hk]
    | some c =>
      rw [retain_of_some hv hc, get?_put (lt_of_get? hc)]
      by_cases hk : id = k
      · rw [if_pos hk, hk, hc, Option.map_some, if_pos rfl]
      · have hk' : (some k : Option Nat) ≠ some id := fun h => hk (Option.some.inj h).symm
        rw [if_neg hk, if_neg hk']
        cases h.get? id with
        | none => rfl
        | some c => simp

theorem length_cells_retain (h : Heap) (v : Value) :
    (h.retain v).cells.length = h.cells.length := by
  unfold retain
  cases v.cell? with
  | none => rfl
  | some id => exact List.length_modify _ _ _

theorem content?_retain (h : Heap) (v : Value) (id : Nat) :
    (h.retain v).content? id = h.content? id := by
  unfold content?
  rw [get?_retain, Option.map_map]
  rfl

theorem content?_retainAll (h : Heap) (vs : List Value) (id : Nat) :
    (h.retainAll vs).content? id = h.content? id := by
  induction vs generalizing h with
  | nil => rfl
  | cons v vs ih => exact (ih (h.retain v)).trans (content?_retain h v id)

theorem length_cells_retainAll (h : Heap) (vs : List Value) :
    (h.retainAll vs).cells.length = h.cells.length := by
  induction vs generalizing h with
  | nil => rfl
  | cons v vs ih => exact (ih (h.retain v)).trans (length_cells_retain h v)

theorem Refers.congr {h' : Heap} {v : Value} (hv : h.Refers n v)
    (hc : ∀ id, h'.content? id = h.content? id) : h'.Refers n v :=
  hv.of_kind? fun id _ => congrArg _ (hc id)

theorem Sound.retain (hs : h.Sound n outside) {v : Value} (hv : h.Refers n v) :
    (h.retain v).Sound n (v :: outside) := by
  have hgood : ∀ u ∈ v :: outside, h.Refers n u := by
    intro u hu
    rcases List.mem_cons.1 hu with rfl | hu
    · exact hv
    · exact hs.refers_outside hu
  cases hid : v.cell? with
  | none =>
    rw [retain_of_none hid]
    exact hs.outside_congr (fun k => refs_cons_of_ne (by simp [hid]) outside) hgood
  | some id =>
    obtain ⟨c, hc⟩ := hv.get? hid
    rw [retain_of_some hid hc]
    refine hs.put_some hc (Nat.succ_pos _) rfl (fun k => ?_) (fun u hu => ?_) fun i hi =>
      hs.formed id i (instance?_eq_some_iff.2 (by rw [content?, hc, ← hi]; rfl))
    · by_cases hk : k = id
      · rw [if_pos hk, hk, count_eq hc, List.cons_append, refs_cons_of_eq hid]
        simp only
        omega
      · rw [if_neg hk, List.cons_append,
          refs_cons_of_ne (fun h => hk (Option.some.inj (h.symm.trans hid)))]
    · rcases List.mem_append.1 hu with hu | hu
      · exact hgood u hu
      · exact hs.refers_content hc hu

theorem Sound.retainAll (hs : h.Sound n outside) {vs : List Value}
    (hvs : ∀ v ∈ vs, h.Refers n v) : (h.retainAll vs).Sound n (vs ++ outside) := by
  induction vs generalizing h outside with
  | nil => exact hs
  | cons v vs ih =>
    have hs' := hs.retain (hvs v (List.mem_cons_self ..))
    have hvs' : ∀ u ∈ vs, (h.retain v).Refers n u := fun u hu =>
      (hvs u (List.mem_cons_of_mem v hu)).congr (content?_retain h v)
    exact (ih hs' hvs').perm (List.perm_middle.symm)

/-! Allocating -/

theorem get?_allocate (h : Heap) (content : Content) (id : Nat) :
    (h.allocate content).2.get? id =
      if id = h.cells.length then some ⟨1, content⟩ else h.get? id := by
  unfold allocate get?
  rw [List.getElem?_append]
  by_cases hlt : id < h.cells.length
  · rw [if_pos hlt, if_neg (Nat.ne_of_lt hlt)]
  · rw [if_neg hlt, List.getElem?_singleton]
    by_cases he : id = h.cells.length
    · rw [if_pos he, if_pos (by omega)]
      rfl
    · rw [if_neg he, if_neg (by omega), List.getElem?_eq_none (by omega)]

theorem content?_allocate (h : Heap) (content : Content) (id : Nat) :
    (h.allocate content).2.content? id =
      if id = h.cells.length then some content else h.content? id := by
  unfold content?
  rw [get?_allocate]
  split
  · rfl
  · rfl

theorem get?_length (h : Heap) : h.get? h.cells.length = none := by
  unfold get?
  rw [List.getElem?_eq_none (Nat.le_refl _)]
  rfl

theorem owned_allocate (h : Heap) (content : Content) :
    (h.allocate content).2.owned = h.owned ++ content.handles := by
  unfold allocate owned
  rw [List.flatMap_append]
  simp [cellHandles]

def handleTo (id : Nat) : Content → Value
  | .instanceOf _ => .object id
  | .functionOf _ => .function id

theorem cell?_handleTo (id : Nat) (content : Content) : (handleTo id content).cell? = some id := by
  cases content with
  | instanceOf i => rfl
  | functionOf f => rfl

theorem Sound.allocate {content : Content} (hs : h.Sound n (content.handles ++ outside))
    (hformed : ∀ i, content = .instanceOf i → i.WellFormed) :
    (h.allocate content).2.Sound n (handleTo h.cells.length content :: outside) := by
  have hgood : ∀ v, h.Refers n v → (h.allocate content).2.Refers n v := by
    intro v hv
    apply hv.of_kind?
    intro k hk
    obtain ⟨c, hc⟩ := hv.get? hk
    unfold kind?
    rw [content?_allocate, if_neg (Nat.ne_of_lt (lt_of_get? hc))]
  have hnew : (h.allocate content).2.Refers n (handleTo h.cells.length content) := by
    have hget := content?_allocate h content h.cells.length
    rw [if_pos rfl] at hget
    cases content with
    | instanceOf i => exact isValid_object_iff.2 (by rw [kind?, hget]; rfl)
    | functionOf f => exact isValid_function_iff.2 (by rw [kind?, hget]; rfl)
  constructor
  case counted =>
    intro k
    have hk := hs.counted k
    rw [owned_allocate, count, get?_allocate, List.cons_append]
    simp only [refs_append] at hk ⊢
    by_cases he : k = h.cells.length
    · rw [he, count_of_dead h.get?_length] at hk
      rw [if_pos he, he, refs_cons_of_eq (cell?_handleTo _ content)]
      simp only [refs_append, Option.map_some, Option.getD_some]
      omega
    · rw [if_neg he, refs_cons_of_ne]
      · simp only [refs_append]
        unfold count at hk
        omega
      · rw [cell?_handleTo]
        exact fun h => he (Option.some.inj h).symm
  case live =>
    intro k d hd
    rw [get?_allocate] at hd
    split at hd
    · exact Option.some.inj hd ▸ Nat.one_pos
    · exact hs.live k d hd
  case refers =>
    intro v hv
    rw [owned_allocate, List.cons_append] at hv
    rcases List.mem_cons.1 hv with rfl | hv
    · exact hnew
    · apply hgood
      apply hs.refers
      simp only [List.mem_append] at hv ⊢
      rcases hv with hv | hv | hv
      · exact Or.inl (Or.inr hv)
      · exact Or.inr hv
      · exact Or.inl (Or.inl hv)
  case formed =>
    intro k i hi
    have hk := instance?_eq_some_iff.1 hi
    rw [content?_allocate] at hk
    split at hk
    · exact hformed i (Option.some.inj hk)
    · exact hs.formed k i (instance?_eq_some_iff.2 hk)

/-! Overwriting -/

theorem setContent_eq {id : Nat} {c : Cell} (hc : h.get? id = some c) (content : Content) :
    h.setContent id content = h.put id (some { c with content := content }) :=
  modify_eq_put hc _

theorem content?_setContent {o : Nat} {old : Content} (hold : h.content? o = some old)
    (content : Content) (id : Nat) :
    (h.setContent o content).content? id = if id = o then some content else h.content? id := by
  obtain ⟨m, hc⟩ := content?_eq_some_iff.1 hold
  rw [setContent_eq hc, content?_put hc]
  rfl

theorem Sound.setContent {o : Nat} {old i : Instance} (hs : h.Sound n (i.handles ++ outside))
    (hold : h.instance? o = some old) (hi : i.WellFormed) :
    (h.setContent o (.instanceOf i)).Sound n (old.handles ++ outside) := by
  obtain ⟨m, hc⟩ := content?_eq_some_iff.1 (instance?_eq_some_iff.1 hold)
  rw [setContent_eq hc]
  change (h.put o (some ⟨m, .instanceOf i⟩)).Sound n (old.handles ++ outside)
  refine hs.put_some hc (hs.live o ⟨m, .instanceOf old⟩ hc) rfl (fun k => ?_)
    (fun v hv => ?_) fun i' hi' =>
    (Content.instanceOf.inj hi') ▸ hi
  · have hsame : (if k = o then m else h.count k) = h.count k := by
      split
      · rename_i hk
        rw [hk, count_eq hc]
      · rfl
    rw [hsame]
    simp only [refs_append, Content.handles]
    omega
  · simp only [Content.handles, List.mem_append] at hv
    rcases hv with (hv | hv) | hv
    · exact hs.refers_content hc hv
    · exact hs.refers_outside (List.mem_append_right _ hv)
    · exact hs.refers_outside (List.mem_append_left _ hv)

/-! Giving up -/

/-- Taking and giving up handles: the cells that remain hold what they held. -/
structure Fades (h h' : Heap) : Prop where
  length : h'.cells.length = h.cells.length
  content : ∀ id x, h'.content? id = some x → h.content? id = some x

theorem Fades.refl (h : Heap) : h.Fades h := ⟨rfl, fun _ _ hx => hx⟩

theorem Fades.trans {h₁ h₂ h₃ : Heap} (h₁₂ : h₁.Fades h₂) (h₂₃ : h₂.Fades h₃) : h₁.Fades h₃ where
  length := h₂₃.length.trans h₁₂.length
  content id x hx := h₁₂.content id x (h₂₃.content id x hx)

theorem Fades.instance? {h h' : Heap} (hf : h.Fades h') {id : Nat} {i : Instance}
    (hi : h'.instance? id = some i) : h.instance? id = some i :=
  instance?_eq_some_iff.2 (hf.content id _ (instance?_eq_some_iff.1 hi))

theorem fades_retain (h : Heap) (v : Value) : h.Fades (h.retain v) :=
  ⟨length_cells_retain h v, fun id _ hx => (content?_retain h v id).symm.trans hx⟩

theorem fades_retainAll (h : Heap) (vs : List Value) : h.Fades (h.retainAll vs) :=
  ⟨length_cells_retainAll h vs, fun id _ hx => (content?_retainAll h vs id).symm.trans hx⟩

theorem fades_put {id : Nat} {c : Cell} (hc : h.get? id = some c) {new : Option Cell}
    (hnew : ∀ c', new = some c' → c'.content = c.content) : h.Fades (h.put id new) where
  length := List.length_set
  content k x hx := by
    rw [content?_put hc] at hx
    split at hx
    · rename_i hk
      obtain ⟨c', hc', rfl⟩ := Option.map_eq_some_iff.1 hx
      rw [hk, content?, hc, hnew c' hc']
      rfl
    · exact hx

theorem releaseAll_cons_of_none {v : Value} (hv : v.cell? = none) (h : Heap) (vs : List Value) :
    h.releaseAll (v :: vs) = h.releaseAll vs := by
  rw [releaseAll_cons, hv]

theorem releaseAll_cons_of_last {v : Value} {id : Nat} {c : Cell} (hv : v.cell? = some id)
    (hc : h.get? id = some c) (hone : c.count ≤ 1) (vs : List Value) :
    h.releaseAll (v :: vs) = (h.put id none).releaseAll (c.content.handles ++ vs) := by
  rw [releaseAll_cons, hv]
  simp only [hc, if_pos hone]
  rfl

theorem releaseAll_cons_of_many {v : Value} {id : Nat} {c : Cell} (hv : v.cell? = some id)
    (hc : h.get? id = some c) (hmany : 1 < c.count) (vs : List Value) :
    h.releaseAll (v :: vs) = (h.put id (some { c with count := c.count - 1 })).releaseAll vs := by
  rw [releaseAll_cons, hv]
  simp only [hc, if_neg (Nat.not_le.2 hmany)]
  rw [modify_eq_put hc]

/-- The first of several handles is given up: it referred to nothing, or its cell is destroyed with
it, or its cell loses one. -/
theorem releaseAll_cons_cases (h : Heap) (v : Value) (vs : List Value) :
    ((∀ id c, v.cell? = some id → h.get? id ≠ some c) ∧
      h.releaseAll (v :: vs) = h.releaseAll vs) ∨
    (∃ id c, v.cell? = some id ∧ h.get? id = some c ∧ c.count ≤ 1 ∧
      h.releaseAll (v :: vs) = (h.put id none).releaseAll (c.content.handles ++ vs)) ∨
    (∃ id c, v.cell? = some id ∧ h.get? id = some c ∧ 1 < c.count ∧
      h.releaseAll (v :: vs) =
        (h.put id (some { c with count := c.count - 1 })).releaseAll vs) := by
  cases hv : v.cell? with
  | none =>
    exact Or.inl ⟨fun id c hid => absurd hid (by simp), releaseAll_cons_of_none hv h vs⟩
  | some id =>
    cases hc : h.get? id with
    | none =>
      refine Or.inl ⟨fun k c hk => ?_, by rw [releaseAll_cons, hv]; simp only [hc]⟩
      rw [← Option.some.inj hk, hc]
      exact Option.some_ne_none c |>.symm
    | some c =>
      refine Or.inr ?_
      by_cases hone : c.count ≤ 1
      · exact Or.inl ⟨id, c, rfl, hc, hone, releaseAll_cons_of_last hv hc hone vs⟩
      · have hmany : 1 < c.count := Nat.lt_of_not_le hone
        exact Or.inr ⟨id, c, rfl, hc, hmany, releaseAll_cons_of_many hv hc hmany vs⟩

theorem weight_put_none {id : Nat} {c : Cell} (hc : h.get? id = some c) :
    (h.put id none).weight + c.content.handles.length = h.weight := weight_destroy hc

theorem weight_put_count {id : Nat} {c : Cell} (hc : h.get? id = some c) (k : Nat → Nat) :
    (h.put id (some { c with count := k c.count })).weight = h.weight := by
  rw [← weight_modify_count h id k, modify_eq_put hc]

/-- What holds of giving up one handle after the other holds of giving up all. -/
theorem releaseAll_induct {P : Heap → List Value → Prop}
    (nil : ∀ h, P h [])
    (skip : ∀ h v vs, (∀ id c, v.cell? = some id → h.get? id ≠ some c) →
      h.releaseAll (v :: vs) = h.releaseAll vs → P h vs → P h (v :: vs))
    (destroy : ∀ h v vs id c, v.cell? = some id → h.get? id = some c → c.count ≤ 1 →
      h.releaseAll (v :: vs) = (h.put id none).releaseAll (c.content.handles ++ vs) →
      P (h.put id none) (c.content.handles ++ vs) → P h (v :: vs))
    (lower : ∀ h v vs id c, v.cell? = some id → h.get? id = some c → 1 < c.count →
      h.releaseAll (v :: vs) =
        (h.put id (some { c with count := c.count - 1 })).releaseAll vs →
      P (h.put id (some { c with count := c.count - 1 })) vs → P h (v :: vs))
    (h : Heap) (vs : List Value) : P h vs := by
  induction hm : h.weight + vs.length using Nat.strongRecOn generalizing h vs with
  | _ m ih =>
    cases vs with
    | nil => exact nil h
    | cons v vs =>
      rw [List.length_cons] at hm
      rcases releaseAll_cons_cases h v vs with ⟨hnone, he⟩ | ⟨id, c, hv, hc, hone, he⟩ |
        ⟨id, c, hv, hc, hmany, he⟩
      · exact skip h v vs hnone he (ih _ (by omega) h vs rfl)
      · refine destroy h v vs id c hv hc hone he (ih _ ?_ _ _ rfl)
        have := weight_put_none hc
        rw [List.length_append]
        omega
      · refine lower h v vs id c hv hc hmany he (ih _ ?_ _ _ rfl)
        rw [weight_put_count hc (· - 1)]
        omega

theorem fades_releaseAll (h : Heap) (vs : List Value) : h.Fades (h.releaseAll vs) := by
  induction h, vs using releaseAll_induct with
  | nil h =>
    rw [releaseAll_nil]
    exact Fades.refl h
  | skip h v vs _ he ih => exact he ▸ ih
  | destroy h v vs id c _ hc _ he ih =>
    have hput : h.Fades (h.put id none) := fades_put hc fun c' hc' => absurd hc' (by simp)
    exact he ▸ hput.trans ih
  | lower h v vs id c _ hc _ he ih =>
    have hput : h.Fades (h.put id (some { c with count := c.count - 1 })) :=
      fades_put hc fun c' hc' => by rw [← Option.some.inj hc']
    exact he ▸ hput.trans ih

section GivingUp

variable {v : Value} {vs : List Value}

theorem Sound.skip (hs : h.Sound n (v :: vs ++ outside))
    (hnone : ∀ id c, v.cell? = some id → h.get? id ≠ some c) : h.Sound n (vs ++ outside) := by
  refine hs.outside_congr (fun k => ?_) fun u hu => hs.refers_outside (List.mem_cons_of_mem v hu)
  rw [List.cons_append, refs_cons_of_ne]
  intro hv
  obtain ⟨c, hc⟩ := (hs.refers_outside (List.mem_cons_self ..)).get? hv
  exact hnone k c hv hc

theorem Sound.lower {id : Nat} {c : Cell} (hs : h.Sound n (v :: vs ++ outside))
    (hv : v.cell? = some id) (hc : h.get? id = some c) (hmany : 1 < c.count) :
    (h.put id (some { c with count := c.count - 1 })).Sound n (vs ++ outside) := by
  refine hs.put_some hc (by simp only; omega) rfl (fun k => ?_) (fun u hu => ?_)
    fun i hi => hs.formed id i (instance?_eq_some_iff.2 (by rw [content?, hc, ← hi]; rfl))
  · by_cases hk : k = id
    · rw [if_pos hk, hk, count_eq hc, List.cons_append, List.cons_append, refs_cons_of_eq hv]
      simp only
      omega
    · rw [if_neg hk, List.cons_append, List.cons_append,
        refs_cons_of_ne (fun h => hk (Option.some.inj (h.symm.trans hv)))]
  · rcases List.mem_append.1 hu with hu | hu
    · exact hs.refers_outside (List.mem_cons_of_mem v hu)
    · exact hs.refers_content hc hu

theorem Sound.releaseAll (hs : h.Sound n (vs ++ outside)) : (h.releaseAll vs).Sound n outside := by
  induction h, vs using releaseAll_induct with
  | nil h =>
    rw [releaseAll_nil]
    exact hs
  | skip h v vs hnone he ih => exact he ▸ ih (hs.skip hnone)
  | destroy h v vs id c hv hc hone he ih =>
    refine he ▸ ih ?_
    rw [List.append_assoc]
    exact hs.put_none hv hc hone
  | lower h v vs id c hv hc hmany he ih => exact he ▸ ih (hs.lower hv hc hmany)

end GivingUp

end ScriptPlayer.Heap
