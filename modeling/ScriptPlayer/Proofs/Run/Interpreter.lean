import ScriptPlayer.Proofs.Run.Builtins
import ScriptPlayer.Proofs.World.Background
import ScriptPlayer.Script.Interpreter

/-! The interpreter goes through steps: each operation, each script and, by induction on the depth,
each call. So what the steps keep holds whatever scripts do. -/
namespace ScriptPlayer

open World

/-! Background workers touch no handle. -/

namespace World

theorem sameOwners_tick (w : World) (t : Ticker) : w.SameOwners (w.tick t).2 := by
  unfold tick
  split
  · exact .refl w
  · exact ⟨rfl, rfl, rfl, rfl, rfl, rfl, rfl⟩

theorem sameOwners_stepDecoder {w w' : World} {d : DecoderId} (h : w.stepDecoder d = some w') :
    w.SameOwners w' := by
  obtain ⟨decoder, -, ⟨-, phase, rfl⟩ | ⟨-, rfl⟩⟩ := stepDecoder_cases h
  · exact ⟨rfl, rfl, rfl, rfl, rfl, rfl, rfl⟩
  · exact (sameOwners_tick w decoder.ticker).trans ⟨rfl, rfl, rfl, rfl, rfl, rfl, rfl⟩

theorem sameOwners_move {w w' : World} {m : Move} (h : w.move m = some w') : w.SameOwners w' := by
  rcases move_cases h with ⟨pool, rfl⟩ | ⟨r, c, -, rfl⟩ | ⟨d, h⟩
  · exact ⟨rfl, rfl, rfl, rfl, rfl, rfl, rfl⟩
  · exact ⟨rfl, rfl, rfl, rfl, rfl, rfl, rfl⟩
  · exact sameOwners_stepDecoder h

instance : Background SameOwners where
  refl := .refl
  trans _ _ _ := .trans
  move := sameOwners_move
  clock _ _ := ⟨rfl, rfl, rfl, rfl, rfl, rfl, rfl⟩

end World

/-! What a declaration of a class refers to -/

theorem TraitTable.mem_handles_foldl {traits : List (TraitKind × QName × FunctionId)} {v : Value}
    {t : TraitTable}
    (hv : v ∈ (traits.foldl (fun table (kind, name, f) => table.define name kind f) t).handles) :
    v ∈ t.handles ∨ v ∈ traits.map fun e => .function e.2.2 := by
  induction traits generalizing t with
  | nil => exact Or.inl hv
  | cons e traits ih =>
    rcases ih hv with h | h
    · rcases mem_handles_define h with h | rfl
      · exact Or.inl h
      · exact Or.inr (List.mem_cons_self ..)
    · exact Or.inr (List.mem_cons_of_mem _ h)

theorem ClassTable.mem_handles_describe {t : ClassTable} {d : ClassDecl} {v : Value}
    (hv : v ∈ (t.describe d).handles) : v ∈ (Op.registerClass d).operands := by
  simp only [Op.operands, List.mem_append]
  rcases List.mem_append.1 hv with hv | hv
  · rcases List.mem_append.1 hv with hv | hv
    · rcases TraitTable.mem_handles_foldl hv with h | h
      · exact absurd h List.not_mem_nil
      · exact Or.inl (Or.inl (Or.inr h))
    · exact Or.inl (Or.inr hv)
  · exact Or.inr hv

def Op.isDrop : Op → Bool
  | .drop _ => true
  | _ => false

namespace Run

variable {call : Caller} {s : State} {α β : Type} {Φ : List Frame → List Frame → Prop}
  [IsPreorder (List Frame) Φ]

theorem ends_registerClass (hs : s.world.Sound) {d : ClassDecl}
    (hd : ∀ v ∈ (Op.registerClass d).operands, s.world.isValid v) :
    Ends Gains (registerClass d) s fun c w => c < w.classes.size := by
  apply ends_world_bind
  apply ends_ofFatal_bind
  intro r hr
  obtain ⟨c, w⟩ := r
  have hsuper : ∀ c', d.superclass = some c' → c' < s.world.classes.size := by
    intro c' hc'
    have hmem : Value.classRef c' ∈ (Op.registerClass d).operands := by
      simp [Op.operands, hc']
    exact isValid_iff_refers.1 (hd _ hmem)
  have hstep : Step s.world w :=
    .registerClass hr hsuper fun v hv => hd v (ClassTable.mem_handles_describe hv)
  obtain ⟨-, rfl, rfl⟩ := registerClass_eq_ok hr
  have hlt : s.world.classes.size <
      (s.world.classes.classes ++ [s.world.classes.describe d]).length := by
    rw [List.length_append]
    exact Nat.lt_succ_self _
  have hput : Ends Gains (modifyWorld fun _ => _) s
      fun _ w' => s.world.classes.size < w'.classes.size :=
    ends_modifyWorld hstep (.same _) hlt
  exact hput.bind hs fun _ s₁ _ _ _ hlt => ends_pure hlt

/-! Dictionaries -/

theorem ends_holding (hs : s.world.Sound) (v : Option Value) :
    Ends Gains (holding v) s fun r w => ∀ u ∈ r.toList, w.isValid u := by
  apply (ends_holdAll v.toList hs).bind hs
  intro _ s₁ _ hs₁ _ hv
  exact ends_pure fun u hu => hs₁.isValid_of_inHand (hv.1 u hu)

theorem ends_dictionaryOf_bind {o : ObjectId} {k : Dictionary → Run β} {Q : β → World → Prop}
    (h : ∀ i d, s.world.instance? o = some i → i.backing = .dictionary d → Ends Φ (k d) s Q) :
    Ends Φ (dictionaryOf o >>= k) s Q := by
  unfold dictionaryOf
  rw [bind_assoc]
  apply ends_instanceOf_bind
  intro i hi
  apply ends_ofFatal_bind
  intro d hd
  refine h i d hi ?_
  unfold Instance.dictionary at hd
  split at hd
  · rename_i hb
    exact hb.trans (congrArg Backing.dictionary (Except.ok.inj hd))
  · cases hd

theorem ends_putDictionary {o : ObjectId} {i : Instance} {d : Dictionary} {new : List Value}
    (hi : s.world.instance? o = some i)
    (hj : i.Update s.world.classes { i with backing := .dictionary d } new)
    (hnew : ∀ v ∈ new, s.world.isValid v) :
    Ends Gains (putDictionary o d) s fun _ w => w.frames = s.world.frames := by
  apply ends_instanceOf_bind
  intro i' hi'
  obtain rfl := Option.some.inj (hi.symm.trans hi')
  exact ends_update hi hj hnew

theorem ends_setEntry (hs : s.world.Sound) {o : ObjectId} {key : DictKey} {v : Value}
    (hkey : HeldBy s.world.frames key.toValue) (hv : HeldBy s.world.frames v) :
    Ends Gains (setEntry o key v) s fun r w => ∀ u ∈ r.toList, w.isValid u := by
  apply ends_dictionaryOf_bind
  intro i d hi hb
  apply (ends_holdAll _ hs).bind hs
  intro _ s₁ _ hs₁ hg hold
  have hi₁ : s₁.world.instance? o = some i := (hold.2.instance? o).trans hi
  have hnew : ∀ u ∈ [key.toValue, v], s₁.world.isValid u := by
    intro u hu
    rcases List.mem_cons.1 hu with rfl | hu
    · exact hs₁.isValid_of_heldBy (hg.heldBy hkey)
    · exact List.mem_singleton.1 hu ▸ hs₁.isValid_of_heldBy (hg.heldBy hv)
  apply (ends_putDictionary hi₁ (.entry d key v hb) hnew).bind hs₁
  intro _ s₂ _ hs₂ hg₂ _
  exact ends_pure fun u hu => hs₂.isValid_of_inHand ((hold.1 u hu).gains hg₂)

theorem ends_holdEntry (hs : s.world.Sound) (entry : Option (Value × Value)) :
    Ends Gains (entry.toList.forM fun (k, v) => do hold k; hold v) s fun _ w =>
      (∀ u ∈ entry.toList.flatMap (fun (k, v) => [k, v]), w.InHand u) ∧
        SameContents s.world w := by
  cases entry with
  | none => exact ends_pure ⟨fun u hu => absurd hu List.not_mem_nil, fun _ => rfl⟩
  | some e =>
    obtain ⟨k, v⟩ := e
    have hboth : Ends Gains (do hold k; hold v : Run Unit) s fun _ w =>
        (w.InHand k ∧ w.InHand v) ∧ SameContents s.world w := by
      apply (ends_hold hs).bind hs
      intro _ s₁ _ hs₁ _ hk
      refine (ends_hold hs₁).imp fun _ w _ hg hv => ⟨⟨hk.1.gains hg, hv.1⟩, fun id => ?_⟩
      exact (hv.2 id).trans (hk.2 id)
    refine hboth.bind hs fun _ s₁ _ _ _ h => ends_pure ⟨fun u hu => ?_, h.2⟩
    rcases List.mem_cons.1 (by simpa using hu : u ∈ [k, v]) with rfl | hu
    · exact h.1.1
    · exact List.mem_singleton.1 hu ▸ h.1.2

theorem ends_deleteEntry (hs : s.world.Sound) (o : ObjectId) (key : DictKey) :
    Ends Gains (deleteEntry o key) s fun r w =>
      ∀ u ∈ r.toList.flatMap (fun (k, v) => [k, v]), w.isValid u := by
  apply ends_dictionaryOf_bind
  intro i d hi hb
  apply (ends_holdEntry hs _).bind hs
  intro _ s₁ _ hs₁ _ hold
  have hi₁ : s₁.world.instance? o = some i := (hold.2.instance? o).trans hi
  apply (ends_putDictionary hi₁ (.unentry d key hb) fun u hu => absurd hu List.not_mem_nil).bind hs₁
  intro _ s₂ _ hs₂ hg₂ _
  exact ends_pure fun u hu => hs₂.isValid_of_inHand ((hold.1 u hu).gains hg₂)

/-! Operations -/

theorem ends_takeItem (hs : s.world.Sound) {r : Except Fatal Value} :
    Ends Gains (do let v ← ofFatal r; hold v; return v : Run Value) s fun v w => w.InHand v := by
  apply ends_ofFatal_bind
  intro v _
  exact (ends_hold hs).bind hs fun _ s₁ _ _ _ hv => ends_pure hv.1

theorem Ends.valid {keep : α → List Value} {m : Run α} (hs : s.world.Sound)
    (h : Ends Gains m s fun a w => ∀ v ∈ keep a, w.InHand v) :
    Ends Gains m s fun a w => ∀ v ∈ keep a, w.isValid v :=
  h.imp fun _ _ hst _ hv v hm => (hst.sound hs).isValid_of_inHand (hv v hm)

theorem inHand_of_given {r : Except ScriptError (Option Value)} {w : World}
    (h : ∀ a, r = .ok a → Given a w) : ∀ v ∈ r.toOption.join.toList, w.InHand v := by
  intro v hv
  cases r with
  | error e => exact absurd hv List.not_mem_nil
  | ok a => exact h a rfl v (Option.mem_toList.1 hv)

theorem inHand_of_ok {r : Except ScriptError α} {f : α → Value} {w : World}
    (h : ∀ a, r = .ok a → w.InHand (f a)) : ∀ v ∈ r.toOption.toList.map f, w.InHand v := by
  intro v hv
  obtain ⟨a, ha, rfl⟩ := List.mem_map.1 hv
  cases r with
  | error e => exact absurd ha List.not_mem_nil
  | ok b => exact List.mem_singleton.1 ha ▸ h b rfl

theorem inHand_of_value {r : Except ScriptError Value} {w : World}
    (h : ∀ v, r = .ok v → w.InHand v) : ∀ v ∈ r.toOption.toList, w.InHand v := by
  have := inHand_of_ok (f := id) h
  rwa [List.map_id] at this

theorem ends_execute (hcall : Calls call) (hs : s.world.Sound) (hst : s.world.Staffed) (op : Op)
    (hops : ∀ v ∈ op.operands, HeldBy s.world.frames v) :
    Ends Gains (execute call op) s fun reply w => ∀ v ∈ op.kept reply, w.isValid v := by
  have hvalid : ∀ v ∈ op.operands, s.world.isValid v :=
    fun v hv => hs.isValid_of_heldBy (hops v hv)
  have hnone : ∀ (w : World) v, v ∈ ([] : List Value) → w.isValid v :=
    fun w v hv => absurd hv List.not_mem_nil
  have hone : ∀ {w : World} {v : Value}, w.InHand v → ∀ u ∈ [v], w.InHand u :=
    fun h u hu => List.mem_singleton.1 hu ▸ h
  cases op with
  | look => exact ends_of_reads reads_world fun _ _ => hnone _
  | trace items =>
    apply ends_world_bind
    exact (ends_trace _).imp fun _ _ _ _ _ => hnone _
  | hold v =>
    refine ends_pure fun u hu => ?_
    exact hvalid u hu
  | drop v => exact ends_pure (hnone _)
  | newFunction name captured code =>
    exact Ends.valid hs ((ends_newFunction hs name hvalid code).imp fun _ _ _ _ h => hone h)
  | registerClass d => exact (ends_registerClass hs hvalid).imp fun _ _ _ _ _ => hnone _
  | defineGlobal name v =>
    have hrun : Ends Gains (modifyWorld (·.defineGlobal name v)) s fun _ _ => True :=
      ends_modifyWorld (.defineGlobal name (hvalid v (List.mem_singleton_self v))) (.same _) trivial
    exact hrun.imp fun _ _ _ _ _ => hnone _
  | «global» name =>
    apply ends_world_bind
    exact ends_holding hs _
  | newObject =>
    exact Ends.valid hs ((ends_newObject hs hst).imp fun _ _ _ _ h => hone h)
  | instantiate cls backing =>
    have hc := isValid_iff_refers.1 (hvalid _ (List.mem_singleton_self _))
    exact Ends.valid hs ((ends_instantiate hs hc backing).imp fun _ _ _ _ h => hone h)
  | construct cls backing args =>
    have hc := isValid_iff_refers.1 (hvalid _ (List.mem_cons_self ..))
    exact Ends.valid hs ((ends_construct hcall hs hst hc backing args).attempt.imp
      fun _ _ _ _ h => inHand_of_ok h)
  | installTraits o => exact (ends_installTraits hs o).imp fun _ _ _ _ _ => hnone _
  | bind o kind name f =>
    have hf := hvalid (.function f) (by simp [Op.operands])
    exact (ends_bind hf kind name).imp fun _ _ _ _ _ => hnone _
  | get o key =>
    have ho := hops (.object o) (List.mem_cons_self ..)
    exact Ends.valid hs ((ends_get hcall hs hst ho key).attempt.imp
      fun _ _ _ _ h => inHand_of_given h)
  | getDefault o name =>
    exact Ends.valid hs ((ends_getDefault hcall hs hst o name).attempt.imp
      fun _ _ _ _ h => inHand_of_given h)
  | intercept o key =>
    have ho := hops (.object o) (List.mem_cons_self ..)
    exact Ends.valid hs ((ends_interceptGet hcall hs hst ho key).attempt.imp
      fun _ _ _ _ h => inHand_of_given h)
  | set o key v =>
    have hv := hvalid v (by simp [Op.operands])
    have hkey : ∀ u ∈ key.handles, s.world.isValid u :=
      fun u hu => hvalid u (List.mem_cons_of_mem _ (List.mem_cons_of_mem _ hu))
    exact (ends_set hcall hs hst o hkey hv).attempt.imp fun _ _ _ _ _ => hnone _
  | delete o key => exact (ends_delete hs o key).attempt.imp fun _ _ _ _ _ => hnone _
  | callMethod o name args =>
    exact Ends.valid hs ((ends_callMethod hcall hs hst o name args).attempt.imp
      fun _ _ _ _ h => inHand_of_value h)
  | invoke f this args =>
    exact Ends.valid hs ((hcall f this args s hs hst).attempt.imp
      fun _ _ _ _ h => inHand_of_value h)
  | nextName o cursor =>
    apply ends_instanceOf_bind
    intro i _
    exact Ends.valid hs ((ends_takeItem hs).imp fun _ _ _ _ h => hone h)
  | nextValue o cursor =>
    apply ends_instanceOf_bind
    intro i _
    exact Ends.valid hs ((ends_takeItem hs).imp fun _ _ _ _ h => hone h)
  | editBytes o edit => exact (ends_editBytes o edit).imp fun _ _ _ _ _ => hnone _
  | copyBytes source dest offset length =>
    exact (ends_copyBytes hs source dest offset length).imp fun _ _ _ _ _ => hnone _
  | getEntry o key =>
    apply ends_dictionaryOf_bind
    intro i d _ _
    exact ends_holding hs _
  | setEntry o key v =>
    exact ends_setEntry hs (hops key.toValue (by simp [Op.operands]))
      (hops v (by simp [Op.operands]))
  | deleteEntry o key => exact ends_deleteEntry hs o key
  | dispatch o kind =>
    have ho := hops (.object o) (List.mem_singleton_self _)
    exact (ends_dispatch hcall hs hst ho kind).attempt.imp fun _ _ _ _ _ => hnone _
  | addListener o kind f =>
    have hf := hvalid (.function f) (by simp [Op.operands])
    exact (ends_addListener hf).imp fun _ _ _ _ _ => hnone _
  | removeListener o kind f => exact (ends_removeListener hs).imp fun _ _ _ _ _ => hnone _
  | render o => exact (ends_render hs o).imp fun _ _ _ _ _ => hnone _
  | tick t =>
    have hown := sameOwners_tick s.world t
    have hrun : Ends Gains (updateWorld (·.tick t)) s fun _ _ => True :=
      ends_updateWorld (.background hown) (hown.frames ▸ .same _) trivial
    exact hrun.imp fun _ _ _ _ _ => hnone _
  | setSource i source =>
    have hrun : Ends Gains (modifyWorld (·.setSource i source)) s _ :=
      ends_background ⟨rfl, rfl, rfl, rfl, rfl, rfl, rfl⟩
    exact hrun.imp fun _ _ _ _ _ => hnone _

/-- What is in hand in a new frame is held by it. -/
theorem heldBy_of_inHand {w : World} {p : Purpose} (hp : p.isPlain) {rest : List Frame}
    (hg : Gains (⟨p, []⟩ :: rest) w.frames) {v : Value} (hv : w.InHand v) :
    HeldBy w.frames v := by
  obtain ⟨f, rest', hf, hmem⟩ := hv
  obtain ⟨held, hf'⟩ := hg.reheld.of_cons
  obtain ⟨rfl, -⟩ := List.cons.inj (hf.symm.trans hf')
  refine ⟨_, hf ▸ List.mem_cons_self .., ?_, hmem⟩
  rintro rfl
  cases hp

theorem ends_holdAll_pushFrame {p : Purpose} (hp : p.isPlain)
    (hs : (s.world.pushFrame p).Sound) (vs : List Value) :
    Ends Gains (vs.forM hold) { s with world := s.world.pushFrame p } fun _ w =>
      ∀ v ∈ vs, HeldBy w.frames v :=
  (ends_holdAll (s := { s with world := s.world.pushFrame p }) vs hs).imp
    fun _ _ _ hg hv v hm => heldBy_of_inHand hp hg (hv.1 v hm)

theorem ends_pulse : Ends Gains pulse s fun _ w => s.world.SameOwners w := by
  unfold Ends pulse
  cases s.budget with
  | zero =>
    refine ⟨.refl _, ?_⟩
    rintro x ⟨⟩
  | succ budget =>
    have hown : s.world.SameOwners (s.world.moveAll (s.interference.headD [])) :=
      Background.moveAll _ _
    exact ⟨(Step.background hown).steps, hown.frames ▸ .same _, hown⟩

theorem ends_perform (hcall : Calls call) (hs : s.world.Sound) (hst : s.world.Staffed) (op : Op) :
    Ends Reheld (perform call op) s fun reply w =>
      op.isDrop = false → Kept s.world.frames (op.kept reply) w.frames := by
  apply (ends_pulse.weaken fun _ _ => Gains.reheld).bind hs
  intro _ s₁ hst₁ hs₁ _ hown
  have hstep : Step s₁.world (s₁.world.pushFrame .operation) := .push rfl
  have hs₁' := hstep.sound hs₁
  have hbody : Ends Gains (do op.operands.forM hold; execute call op)
      { s₁ with world := s₁.world.pushFrame .operation } fun reply w =>
        ∀ v ∈ op.kept reply, w.isValid v := by
    apply (ends_holdAll_pushFrame rfl hs₁' op.operands).bind hs₁'
    intro _ s₂ hst₂ hs₂ _ hv
    exact ends_execute hcall hs₂ (hst₂.staffed (hstep.staffed (hst₁.staffed hst))) op hv
  have hframed := ends_framed (Q := fun _ _ => True) rfl hs₁ ((hbody.weaken
    fun _ _ => Gains.reheld).imp fun _ _ _ _ h => ⟨h, trivial⟩)
  apply (hframed.weaken fun _ _ => Gains.reheld).bind hs₁
  intro reply s₂ _ hs₂ _ hkept
  rw [hown.frames] at hkept
  cases op with
  | drop v =>
    have hdrop : Ends Reheld (modifyWorld (·.letGo v)) s₂ fun _ _ => True :=
      ends_modifyWorld (.letGo v) (reheld_letGo _ v) trivial
    apply hdrop.bind hs₂
    intro _ _ _ _ _ _
    apply ends_pure
    rintro ⟨⟩
  | _ => exact ends_pure fun _ => hkept.1

theorem ends_script (hcall : Calls call) (p : Script) (hs : s.world.Sound)
    (hst : s.world.Staffed) : Ends Reheld (script call p) s fun v w => w.isValid v := by
  induction p generalizing s with
  | done v =>
    apply ends_requireValid_bind
    intro hv
    exact ends_pure hv
  | fail e => exact ends_throw _
  | abort f => exact ends_throw _
  | code body next _ ih => exact ih s.code.length (s := { s with code := s.code ++ [body] }) hs hst
  | perform op next ih =>
    apply (ends_perform hcall hs hst op).bind hs
    intro reply s₁ hst₁ hs₁ _ _
    exact ih reply hs₁ (hst₁.staffed hst)

theorem reads_functionOf (f : FunctionId) : Reads (functionOf f) := by
  apply reads_world.bind
  intro w
  split
  · exact reads_pure _
  · exact reads_throw _

/-- Functions are called in steps, however deep the calls go. -/
theorem calls_callFunction (depth : Nat) : Calls (callFunction depth) := by
  induction depth with
  | zero => exact fun f this args s _ _ => ends_throw _
  | succ depth ih =>
    intro f this args s hs hst
    apply ends_pulse.bind hs
    intro _ s₁ hst₁ hs₁ _ _
    have hstep : Step s₁.world (s₁.world.pushFrame (.call f)) := .push rfl
    have hs₁' := hstep.sound hs₁
    refine (ends_framed (Q := fun _ _ => True) rfl hs₁ ?_).imp fun v w _ _ h =>
      h.1.inHand (List.mem_singleton_self v)
    apply ((ends_holdAll_pushFrame rfl hs₁' _).weaken fun _ _ => Gains.reheld).bind hs₁'
    intro _ s₂ hst₂ hs₂ _ hheld
    have hstaff₂ := hst₂.staffed (hstep.staffed (hst₁.staffed hst))
    have hvalid : ∀ {v : Value} {w : World}, w.isValid v →
        (∀ u ∈ [v], w.isValid u) ∧ True :=
      fun hv => ⟨fun u hu => List.mem_singleton.1 hu ▸ hv, trivial⟩
    apply ends_reads_bind (reads_functionOf f)
    intro fn _
    split
    · rename_i b _
      have hthis := hheld (.object this) (by simp)
      have hargs : ∀ v ∈ args, HeldBy s₂.world.frames v := fun v hv => hheld v (by simp [hv])
      exact ((ends_builtin ih hs₂ hstaff₂ b hthis hargs).weaken fun _ _ => Gains.reheld).imp
        fun _ _ _ _ h => hvalid h
    · apply ends_reads_bind fun _ => rfl
      intro body _
      split
      · exact (ends_script ih _ hs₂ hstaff₂).imp fun _ _ _ _ h => hvalid h
      · exact ends_throw _

end Run

end ScriptPlayer
