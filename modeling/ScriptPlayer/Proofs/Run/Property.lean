import ScriptPlayer.Proofs.Run.Frames

/-! Property access, for any way of calling functions that keeps to the rules of runs. -/
namespace ScriptPlayer

open World

namespace Instance

variable {i j : Instance} {t : ClassTable} {key : Key} {v : Value}

theorem handles_resolve {u : Value} (hu : u ∈ (i.resolve key).handles) : u ∈ key.handles := by
  unfold resolve at hu
  split at hu
  · cases hk : key.indexSpelling? with
    | none => rw [hk] at hu; exact hu
    | some text =>
      rw [hk] at hu
      exact absurd hu List.not_mem_nil
  · exact hu

theorem update_of_write (h : i.write t key v = .ok (.stored j)) :
    ∃ new, i.Update t j new ∧ ∀ u ∈ new, u = v ∨ u ∈ key.handles ∨ ∃ s, u = .string s := by
  unfold write at h
  simp only at h
  cases hn : (i.resolve key).name with
  | qualified name =>
    rw [hn] at h
    dsimp only at h
    split at h
    · rename_i d hb
      obtain rfl := Written.stored.inj (Except.ok.inj h)
      refine ⟨_, .entry d (.content name) v hb, fun u hu => ?_⟩
      rcases List.mem_cons.1 hu with rfl | hu
      · exact Or.inr (Or.inr ⟨name, rfl⟩)
      · exact Or.inl (List.mem_singleton.1 hu)
    · rename_i hne
      split at h
      · cases h
      · rename_i hset
        obtain rfl := Written.stored.inj (Except.ok.inj h)
        exact ⟨_, .slot _ v hne hset, fun u hu => Or.inl (List.mem_singleton.1 hu)⟩
  | index n =>
    rw [hn] at h
    dsimp only at h
    split at h
    · rename_i b hb
      split at h
      · obtain rfl := Written.stored.inj (Except.ok.inj h)
        exact ⟨_, .bytes b _ hb, fun u hu => absurd hu List.not_mem_nil⟩
      · cases h
    · cases h
  | identity o =>
    rw [hn] at h
    dsimp only at h
    split at h
    · rename_i d hb
      obtain rfl := Written.stored.inj (Except.ok.inj h)
      refine ⟨_, .entry d (.identity o) v hb, fun u hu => ?_⟩
      rcases List.mem_cons.1 hu with rfl | hu
      · refine Or.inr (Or.inl (handles_resolve (i := i) ?_))
        rw [Key.handles, hn]
        exact List.mem_singleton_self _
      · exact Or.inl (List.mem_singleton.1 hu)
    · cases h

theorem update_of_removeSlot {name : QName} (h : i.removeSlot t name = .ok (some j)) :
    i.Update t j [] := by
  unfold removeSlot at h
  split at h
  · obtain rfl := Option.some.inj (Except.ok.inj h)
    exact .unslot name
  · split at h
    · cases h
    · cases h

theorem update_of_remove (h : i.remove t key = .ok (some j)) : i.Update t j [] := by
  unfold remove at h
  simp only at h
  cases hn : (i.resolve key).name with
  | qualified name =>
    rw [hn] at h
    dsimp only at h
    split at h
    · rename_i d hb
      split at h
      · rename_i e d' hd
        obtain rfl := Option.some.inj (Except.ok.inj h)
        have hd : d' = (d.delete (.content name)).2 := (congrArg Prod.snd hd).symm
        exact hd ▸ .unentry d (.content name) hb
      · exact update_of_removeSlot h
    · exact update_of_removeSlot h
  | index n =>
    rw [hn] at h
    dsimp only at h
    split at h
    · cases h
    · cases h
  | identity o =>
    rw [hn] at h
    dsimp only at h
    split at h
    · rename_i d hb
      split at h
      · rename_i e d' hd
        obtain rfl := Option.some.inj (Except.ok.inj h)
        have hd : d' = (d.delete (.identity o)).2 := (congrArg Prod.snd hd).symm
        exact hd ▸ .unentry d (.identity o) hb
      · cases h
    · cases h

end Instance

namespace Run

/-- A way of calling functions that goes through steps, closes its frames and hands over its
result. -/
def Calls (call : Caller) : Prop :=
  ∀ f this args s, s.world.Sound → s.world.Staffed →
    Ends Gains (call f this args) s fun v w => w.InHand v

variable {call : Caller} {s : State}

def Given (r : Option Value) (w : World) : Prop := ∀ v, r = some v → w.InHand v

theorem given_some {v : Value} {w : World} (hv : w.InHand v) : Given (some v) w :=
  fun _ hu => Option.some.inj hu ▸ hv

theorem given_none (w : World) : Given none w := by
  rintro u ⟨⟩

theorem ends_found (hcall : Calls call) (hs : s.world.Sound) (hst : s.world.Staffed)
    (o : ObjectId) (found : Found) :
    Ends Gains (match found with
      | .value v => do hold v; return some v
      | .getter f => return some (← call f o [])
      | .absent => return none : Run (Option Value)) s Given := by
  cases found with
  | value v => exact (ends_hold hs).bind hs fun _ s' _ _ _ hv => ends_pure (given_some hv.1)
  | getter f =>
    exact (hcall f o [] s hs hst).bind hs fun v s' _ _ _ hv => ends_pure (given_some hv)
  | absent => exact ends_pure (given_none _)

theorem ends_getDefault (hcall : Calls call) (hs : s.world.Sound) (hst : s.world.Staffed)
    (o : ObjectId) (name : QName) : Ends Gains (getDefault call o name) s Given := by
  apply ends_instanceOf_bind
  intro i hi
  apply ends_world_bind
  exact ends_found hcall hs hst o _

/-- A proxy whose guard is clear, with a frame keeping it alive, is there with its guard clear after
any run that closes its frames. -/
theorem exists_clear {s' : State} {o : ObjectId} {i : Instance} (hs : s.world.Sound)
    (hi : s.world.instance? o = some i) (hb : i.backing = .proxy false)
    (ho : HeldBy s.world.frames (.object o)) (hsteps : Steps s.world s'.world)
    (hg : Gains s.world.frames s'.world.frames) :
    ∃ i', s'.world.instance? o = some i' ∧ i'.backing = .proxy false := by
  have hs' := hsteps.sound hs
  obtain ⟨i', hi'⟩ := hs'.exists_instance_of_heldBy (hg.heldBy ho)
  refine ⟨i', hi', ?_⟩
  have hclear : s'.world.isGuarded o = false := by
    have hcalls := hs.guards o
    have hcalls' := hs'.guards o
    rw [overrideCalls_eq, hg.reheld.purposes, ← overrideCalls_eq, hcalls,
      isGuarded_of_instance hi] at hcalls'
    cases hguard : s'.world.isGuarded o with
    | false => rfl
    | true => simp [hguard, Instance.isActive, hb] at hcalls'
  obtain ⟨n, hc⟩ := Heap.content?_eq_some_iff.1 (Heap.instance?_eq_some_iff.1 hi)
  obtain ⟨x, hx, hsame⟩ := hsteps.later.content o _ (Heap.lt_of_get? hc)
    (Heap.instance?_eq_some_iff.1 hi')
  rw [Heap.instance?_eq_some_iff.1 hi] at hx
  obtain rfl := Option.some.inj hx
  cases hsame with
  | instanceOf hcls hkind =>
    rw [hb] at hkind
    rw [isGuarded_of_instance hi'] at hclear
    unfold Instance.isActive at hclear
    split at hclear
    · rename_i active hb'
      rw [hb', hclear]
    · rename_i hne
      cases hb' : i'.backing with
      | proxy active => exact absurd hb' (hne active)
      | _ => rw [hb'] at hkind; cases hkind

theorem ends_interceptGet (hcall : Calls call) (hs : s.world.Sound) (hst : s.world.Staffed)
    {o : ObjectId} (ho : HeldBy s.world.frames (.object o)) (key : Key) :
    Ends Gains (interceptGet call o key) s Given := by
  apply ends_instanceOf_bind
  intro i hi
  split
  · rename_i hb
    apply (ends_getDefault hcall hs hst o overrideName).bind hs
    intro r s₁ hsteps hs₁ hg hr
    split
    · rename_i f
      apply ends_world_bind
      obtain ⟨i₁, hi₁, hb₁⟩ := exists_clear hs hi hb ho hsteps hg
      have hguarded := ends_guarded (m := call f o [.string (key.localName s₁.world.naming)]) hs₁
        hi₁ hb₁ (hg.heldBy ho) fun hsteps₂ hs₂ =>
          ((hcall f o _ _ hs₂ (hsteps₂.staffed (hsteps.staffed hst))).imp
            fun v w hw _ hv => (hw.sound hs₂).isValid_of_inHand hv).weaken
            fun _ _ => Gains.reheld
      exact hguarded.bind hs₁ fun v s₂ _ _ _ hv => ends_pure (given_some hv)
    · exact ends_throw _
    · exact ends_pure (given_none _)
  · exact ends_pure (given_none _)

theorem ends_get (hcall : Calls call) (hs : s.world.Sound) (hst : s.world.Staffed)
    {o : ObjectId} (ho : HeldBy s.world.frames (.object o)) (key : Key) :
    Ends Gains (get call o key) s Given := by
  apply (ends_interceptGet hcall hs hst ho key).bind hs
  intro r s₁ hsteps hs₁ hg hr
  cases r with
  | some v => exact ends_pure hr
  | none =>
    apply ends_instanceOf_bind
    intro i hi
    apply ends_world_bind
    apply ends_ofHalt_bind
    intro found _
    exact ends_found hcall hs₁ (hsteps.staffed hst) o found

theorem ends_set (hcall : Calls call) (hs : s.world.Sound) (hst : s.world.Staffed)
    (o : ObjectId) {key : Key} {v : Value} (hkey : ∀ u ∈ key.handles, s.world.isValid u)
    (hv : s.world.isValid v) : Ends Gains (set call o key v) s fun _ _ => True := by
  apply ends_instanceOf_bind
  intro i hi
  apply ends_world_bind
  apply ends_ofHalt_bind
  intro written hw
  cases written with
  | stored j =>
    obtain ⟨new, hj, hnew⟩ := Instance.update_of_write hw
    refine (ends_update hi hj fun u hu => ?_).imp fun _ _ _ _ _ => trivial
    rcases hnew u hu with rfl | hu | ⟨x, rfl⟩
    · exact hv
    · exact hkey u hu
    · rfl
  | setter f =>
    have hstep : Step s.world (s.world.pushFrame .operation) := .push rfl
    exact (ends_forEffect hs ((hcall f o [v] _ (hstep.sound hs) (hstep.staffed hst)).weaken
      fun _ _ => Gains.reheld)).imp fun _ _ _ _ _ => trivial

theorem ends_delete (hs : s.world.Sound) (o : ObjectId) (key : Key) :
    Ends Gains (delete o key) s fun _ _ => True := by
  apply ends_instanceOf_bind
  intro i hi
  apply ends_world_bind
  apply ends_ofHalt_bind
  intro removed hr
  cases removed with
  | some j =>
    exact (ends_update hi (Instance.update_of_remove hr) fun u hu =>
      absurd hu List.not_mem_nil).bind hs fun _ _ _ _ _ _ => ends_pure trivial
  | none => exact ends_pure trivial

theorem ends_callMethod (hcall : Calls call) (hs : s.world.Sound) (hst : s.world.Staffed)
    (o : ObjectId) (name : QName) (args : List Value) :
    Ends Gains (callMethod call o name args) s fun v w => w.InHand v := by
  apply (ends_getDefault hcall hs hst o name).bind hs
  intro r s₁ hsteps hs₁ _ _
  split
  · exact hcall _ o args s₁ hs₁ (hsteps.staffed hst)
  · exact ends_throw _
  · apply ends_instanceOf_bind
    intro i hi
    apply ends_world_bind
    exact ends_throw _

end Run

end ScriptPlayer
