import ScriptPlayer.Proofs.Ownership.Keep
import ScriptPlayer.Proofs.World.Step

/-! Heaps that have come to hold no more than another one, but for the guards of proxies and for new
cells that nothing but other new cells and the run in progress can refer to. Once nothing else
refers to them the new cells are gone. -/
namespace ScriptPlayer

namespace Instance

variable {i j : Instance}

def unguarded (i : Instance) : Instance :=
  match i.backing with
  | .proxy _ => i.withGuard false
  | _ => i

theorem unguarded_of_proxy {active : Bool} (hb : i.backing = .proxy active) :
    i.unguarded = i.withGuard false := by
  unfold unguarded
  rw [hb]

theorem handles_unguarded (i : Instance) : i.unguarded.handles = i.handles := by
  unfold unguarded
  split
  · rename_i hb
    simp [handles, withGuard, hb, Backing.handles]
  · rfl

theorem unguarded_withGuard {before : Bool} (hb : i.backing = .proxy before) (active : Bool) :
    (i.withGuard active).unguarded = i.unguarded := by
  have hactive : (i.withGuard active).backing = .proxy active := rfl
  rw [unguarded_of_proxy hb, unguarded_of_proxy hactive]
  rfl

theorem kind_unguarded (i : Instance) : i.unguarded.backing.kind = i.backing.kind := by
  unfold unguarded
  split
  · rename_i hb
    rw [hb]
    rfl
  · rfl

theorem exists_eq_proxy (h : i.backing.kind = .proxy) : ∃ active, i.backing = .proxy active := by
  cases hb : i.backing with
  | proxy active => exact ⟨active, rfl⟩
  | _ =>
    rw [hb] at h
    cases h

theorem eq_of_unguarded (h : i.unguarded = j.unguarded) (hactive : i.isActive = j.isActive) :
    i = j := by
  have hkind : i.backing.kind = j.backing.kind := by
    rw [← kind_unguarded, h, kind_unguarded]
  by_cases hproxy : i.backing.kind = .proxy
  · obtain ⟨a, ha⟩ := exists_eq_proxy hproxy
    obtain ⟨b, hb⟩ := exists_eq_proxy (hkind ▸ hproxy)
    rw [unguarded_of_proxy ha, unguarded_of_proxy hb] at h
    unfold isActive at hactive
    rw [ha, hb] at hactive
    obtain ⟨cls, slots, bound, installed, backing⟩ := i
    obtain ⟨cls', slots', bound', installed', backing'⟩ := j
    simp_all [withGuard]
  · have hsame : ∀ k : Instance, k.backing.kind ≠ .proxy → k.unguarded = k := by
      intro k hk
      unfold unguarded
      split
      · rename_i hb
        rw [hb] at hk
        exact absurd rfl hk
      · rfl
    rwa [hsame i hproxy, hsame j (hkind ▸ hproxy)] at h

end Instance

namespace Content

def unguarded : Content → Content
  | instanceOf i => instanceOf i.unguarded
  | functionOf f => functionOf f

theorem handles_unguarded (x : Content) : x.unguarded.handles = x.handles := by
  cases x with
  | instanceOf i => exact i.handles_unguarded
  | functionOf f => rfl

theorem eq_of_unguarded {x y : Content} (h : x.unguarded = y.unguarded)
    (hactive : ∀ i j, y = instanceOf j → x = instanceOf i → i.isActive = j.isActive) : x = y := by
  cases x with
  | functionOf f =>
    cases y with
    | functionOf g => exact congrArg functionOf (functionOf.inj h)
    | instanceOf j => cases h
  | instanceOf i =>
    cases y with
    | functionOf g => cases h
    | instanceOf j =>
      exact congrArg instanceOf (Instance.eq_of_unguarded (instanceOf.inj h) (hactive i j rfl rfl))

/-- What may be in a cell beyond the first `n`: it owns no handle to an instance in such a cell. -/
def IsLitter (n : Nat) : Content → Prop
  | instanceOf i => ∀ k, Value.object k ∈ i.handles → k < n
  | functionOf f => f.captured = []

end Content

namespace Heap

variable {b h h' : Heap} {n id : Nat} {outside roots vs : List Value}

/-- But for guards, the cells of `b` hold in `h` what they hold in `b`, and other cells are
litter. -/
structure Resembles (b h : Heap) : Prop where
  length : b.cells.length ≤ h.cells.length
  content : ∀ id < b.cells.length,
    (h.content? id).map Content.unguarded = (b.content? id).map Content.unguarded
  litter : ∀ id x, b.cells.length ≤ id → h.content? id = some x → x.IsLitter b.cells.length

theorem get?_of_length_le (hid : h.cells.length ≤ id) : h.get? id = none := by
  unfold get?
  rw [List.getElem?_eq_none hid]
  rfl

theorem content?_of_length_le (hid : h.cells.length ≤ id) : h.content? id = none := by
  unfold content?
  rw [get?_of_length_le hid]
  rfl

theorem Resembles.refl (b : Heap) : b.Resembles b where
  length := Nat.le_refl _
  content _ _ := rfl
  litter id x hid hx := by
    rw [content?_of_length_le hid] at hx
    cases hx

namespace Resembles

theorem congr (hr : b.Resembles h) (hlength : h'.cells.length = h.cells.length)
    (hsame : ∀ id, h'.content? id = h.content? id) : b.Resembles h' where
  length := hlength ▸ hr.length
  content id hid := by rw [hsame, hr.content id hid]
  litter id x hid hx := hr.litter id x hid ((hsame id).symm.trans hx)

theorem handles (hr : b.Resembles h) (hid : id < b.cells.length) :
    (h.content? id).map Content.handles = (b.content? id).map Content.handles := by
  have hmap := congrArg (Option.map Content.handles) (hr.content id hid)
  simpa only [Option.map_map, Function.comp_def, Content.handles_unguarded] using hmap

theorem exists_content (hr : b.Resembles h) {x : Content} (hx : b.content? id = some x) :
    ∃ y, h.content? id = some y ∧ y.handles = x.handles := by
  obtain ⟨m, hc⟩ := content?_eq_some_iff.1 hx
  have hmap := hr.handles (lt_of_get? hc)
  rw [hx, Option.map_some] at hmap
  exact Option.map_eq_some_iff.1 hmap

theorem content?_eq_none (hr : b.Resembles h) (hid : id < b.cells.length)
    (hdead : b.get? id = none) : h.content? id = none := by
  have hmap := hr.content id hid
  rw [show b.content? id = none by rw [content?, hdead]; rfl] at hmap
  exact Option.map_eq_none_iff.1 hmap

theorem anchors (hr : b.Resembles h) (hb : b.Sound n roots) (hout : ∀ v ∈ roots, v ∈ outside) :
    h.Anchors outside fun id => ∃ c, b.get? id = some c := by
  rintro id ⟨c, hc⟩
  have hpos : 0 < refs id (roots ++ b.owned) := by
    rw [← hb.counted, count_eq hc]
    exact hb.live id c hc
  obtain ⟨v, hv, hcell⟩ := exists_mem_of_refs_pos hpos
  rcases List.mem_append.1 hv with hv | hv
  · exact .inl ⟨v, hout v hv, hcell⟩
  · obtain ⟨k, d, hd, hv⟩ := mem_owned_iff.1 hv
    obtain ⟨y, hy, hhandles⟩ := hr.exists_content (content?_eq_some_iff.2 ⟨d.count, hd⟩)
    exact .inr ⟨k, y, ⟨d, hd⟩, hy, v, hhandles ▸ hv, hcell⟩

theorem releaseAll (hr : b.Resembles h) (hb : b.Sound n roots)
    (hs : h.Sound n (vs ++ outside)) (hout : ∀ v ∈ roots, v ∈ outside) :
    b.Resembles (h.releaseAll vs) := by
  have hfades := fades_releaseAll h vs
  refine ⟨hfades.length ▸ hr.length, fun id hid => ?_, fun id x hid hx =>
    hr.litter id x hid (hfades.content id x hx)⟩
  cases hc : b.get? id with
  | some c =>
    rw [hs.content?_releaseAll (hr.anchors hb hout) id ⟨c, hc⟩]
    exact hr.content id hid
  | none =>
    have hnone : (h.releaseAll vs).content? id = none := by
      by_contra hne
      obtain ⟨x, hx⟩ := Option.ne_none_iff_exists'.1 hne
      have hx := hfades.content id x hx
      rw [hr.content?_eq_none hid hc] at hx
      cases hx
    rw [hnone, content?, hc]
    rfl

theorem setContent (hr : b.Resembles h) {o : Nat} {i j : Instance} (hi : h.instance? o = some i)
    (hold : o < b.cells.length → j.unguarded = i.unguarded)
    (hnew : b.cells.length ≤ o → (Content.instanceOf j).IsLitter b.cells.length) :
    b.Resembles (h.setContent o (.instanceOf j)) := by
  have hx := instance?_eq_some_iff.1 hi
  refine ⟨?_, fun id hid => ?_, fun id x hid hj => ?_⟩
  · rw [show (h.setContent o (.instanceOf j)).cells.length = h.cells.length from
      List.length_modify ..]
    exact hr.length
  · rw [content?_setContent hx]
    split
    · rename_i he
      subst he
      rw [← hr.content id hid, hx, Option.map_some, Option.map_some, Content.unguarded,
        Content.unguarded, hold hid]
    · exact hr.content id hid
  · rw [content?_setContent hx] at hj
    split at hj
    · rename_i he
      exact Option.some.inj hj ▸ hnew (he ▸ hid)
    · exact hr.litter id x hid hj

theorem allocate (hr : b.Resembles h) {x : Content} (hx : x.IsLitter b.cells.length) :
    b.Resembles (h.allocate x).2 := by
  have hlength : (h.allocate x).2.cells.length = h.cells.length + 1 := List.length_append ..
  refine ⟨hlength ▸ Nat.le_succ_of_le hr.length, fun id hid => ?_, fun id y hid hy => ?_⟩
  · rw [content?_allocate, if_neg (Nat.ne_of_lt (Nat.lt_of_lt_of_le hid hr.length))]
    exact hr.content id hid
  · rw [content?_allocate] at hy
    split at hy
    · exact Option.some.inj hy ▸ hx
    · exact hr.litter id y hid hy

end Resembles

/-! Once only handles to the old cells come from outside -/

/-- A handle to a cell beyond the old ones is owned by such a cell. -/
theorem Resembles.exists_owner (hr : b.Resembles h) (hb : b.Sound n roots) (hs : h.Sound n roots)
    (hid : b.cells.length ≤ id) {c : Cell} (hc : h.get? id = some c) :
    ∃ k x v, b.cells.length ≤ k ∧ h.content? k = some x ∧ v ∈ x.handles ∧ v.cell? = some id := by
  have hpos : 0 < refs id (roots ++ h.owned) := by
    rw [← hs.counted, count_eq hc]
    exact hs.live id c hc
  obtain ⟨v, hv, hcell⟩ := exists_mem_of_refs_pos hpos
  have hnew : ¬b.Refers n v := by
    intro hrefers
    obtain ⟨d, hd⟩ := hrefers.get? hcell
    exact absurd (lt_of_get? hd) (Nat.not_lt.2 hid)
  rcases List.mem_append.1 hv with hv | hv
  · exact absurd (hb.refers_outside hv) hnew
  · obtain ⟨k, d, hd, hv⟩ := mem_owned_iff.1 hv
    refine ⟨k, d.content, v, ?_, content?_eq_some_iff.2 ⟨d.count, hd⟩, hv, hcell⟩
    by_contra hk
    have hmap := hr.handles (Nat.lt_of_not_le hk)
    rw [content?_eq_some_iff.2 ⟨d.count, hd⟩, Option.map_some] at hmap
    obtain ⟨x, hx, hhandles⟩ := Option.map_eq_some_iff.1 hmap.symm
    obtain ⟨m, hm⟩ := content?_eq_some_iff.1 hx
    exact hnew (hb.refers_content hm (hhandles ▸ hv))

theorem Resembles.get?_eq_none (hr : b.Resembles h) (hb : b.Sound n roots)
    (hs : h.Sound n roots) (hid : b.cells.length ≤ id) : h.get? id = none := by
  -- new functions own nothing and new instances own no handle to another, so first there are no
  -- instances, and then no functions either
  have hinstance : ∀ k, b.cells.length ≤ k → ∀ i, h.content? k ≠ some (.instanceOf i) := by
    intro k hk i hi
    obtain ⟨m, hc⟩ := content?_eq_some_iff.1 hi
    obtain ⟨k', x, v, hk', hx, hv, hcell⟩ := hr.exists_owner hb hs hk hc
    have hlitter := hr.litter k' x hk' hx
    obtain ⟨m', hd⟩ := content?_eq_some_iff.1 hx
    have hrefers := hs.refers_content hd hv
    cases x with
    | functionOf f =>
      rw [show (Content.functionOf f).handles = [] from hlitter] at hv
      exact absurd hv List.not_mem_nil
    | instanceOf j =>
      cases v with
      | object l =>
        obtain rfl : l = k := Option.some.inj hcell
        exact absurd (hlitter l hv) (Nat.not_lt.2 hk)
      | function l =>
        obtain rfl : l = k := Option.some.inj hcell
        have hkind := isValid_function_iff.1 hrefers
        rw [kind?, hi] at hkind
        cases hkind
      | _ => cases hcell
  cases hc : h.get? id with
  | none => rfl
  | some c =>
    obtain ⟨k, x, v, hk, hx, hv, -⟩ := hr.exists_owner hb hs hid hc
    cases x with
    | instanceOf i => exact absurd hx (hinstance k hk i)
    | functionOf f =>
      rw [show (Content.functionOf f).handles = [] from hr.litter k _ hk hx] at hv
      exact absurd hv List.not_mem_nil

theorem owned_eq (h : Heap) {m : Nat} (hm : h.cells.length ≤ m) : h.owned =
    (List.range m).flatMap fun id => ((h.content? id).map Content.handles).getD [] := by
  have hcells : h.cells.flatMap cellHandles =
      (List.range h.cells.length).flatMap fun id => cellHandles (h.get? id) := by
    rw [List.flatMap_def, List.flatMap_def]
    congr 1
    apply List.ext_getElem
    · simp
    · intro id hid _
      have hlt : id < h.cells.length := by simpa using hid
      simp [get?, List.getElem?_eq_getElem hlt]
  obtain ⟨k, rfl⟩ := Nat.exists_eq_add_of_le hm
  have hrest : ∀ id ∈ (List.range k).map (h.cells.length + ·), cellHandles (h.get? id) = [] := by
    intro id hid
    obtain ⟨l, -, rfl⟩ := List.mem_map.1 hid
    rw [get?_of_length_le (Nat.le_add_right _ l)]
    rfl
  have hhandles : ∀ id,
      ((h.content? id).map Content.handles).getD [] = cellHandles (h.get? id) := by
    intro id
    unfold content? cellHandles
    rw [Option.map_map]
    rfl
  simp only [hhandles, List.range_add, List.flatMap_append]
  rw [List.flatMap_eq_nil_iff.2 hrest, List.append_nil]
  exact hcells

theorem Resembles.count_eq (hr : b.Resembles h) (hb : b.Sound n roots) (hs : h.Sound n roots)
    (id : Nat) : h.count id = b.count id := by
  have howned : h.owned = b.owned := by
    rw [h.owned_eq (Nat.le_refl _), b.owned_eq hr.length]
    congr 1
    funext k
    by_cases hk : k < b.cells.length
    · rw [hr.handles hk]
    · have hk := Nat.le_of_not_lt hk
      rw [content?_of_length_le hk, content?, hr.get?_eq_none hb hs hk]
      rfl
  rw [hs.counted, hb.counted, howned]

theorem Resembles.get?_eq (hr : b.Resembles h) (hb : b.Sound n roots) (hs : h.Sound n roots)
    (hguards : ∀ o i j, b.instance? o = some i → h.instance? o = some j →
      j.isActive = i.isActive) (id : Nat) : h.get? id = b.get? id := by
  by_cases hid : id < b.cells.length
  · have hcount := hr.count_eq hb hs id
    have hcontent := hr.content id hid
    unfold count at hcount
    cases hc : b.get? id with
    | none =>
      have hnone := hr.content?_eq_none hid hc
      exact Option.map_eq_none_iff.1 hnone
    | some c =>
      obtain ⟨y, hy, -⟩ := hr.exists_content (content?_eq_some_iff.2 ⟨c.count, hc⟩)
      obtain ⟨m, hd⟩ := content?_eq_some_iff.1 hy
      rw [hc, hd, Option.map_some, Option.map_some, Option.getD_some, Option.getD_some] at hcount
      rw [hy, content?_eq_some_iff.2 ⟨c.count, hc⟩, Option.map_some, Option.map_some] at hcontent
      have hsame : y = c.content := by
        refine Content.eq_of_unguarded (Option.some.inj hcontent) fun i j hj hi => ?_
        refine hguards id j i ?_ (instance?_eq_some_iff.2 (hi ▸ hy))
        exact instance?_eq_some_iff.2 (content?_eq_some_iff.2 ⟨c.count, hj ▸ hc⟩)
      obtain rfl : m = c.count := hcount
      rw [hd, hsame]
  · have hid := Nat.le_of_not_lt hid
    rw [hr.get?_eq_none hb hs hid, get?_of_length_le hid]

end Heap

end ScriptPlayer
