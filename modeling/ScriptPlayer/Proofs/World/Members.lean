import ScriptPlayer.Proofs.Container.TraitTable
import ScriptPlayer.Proofs.World.Chain

/-! Setters go before slots. One step makes little of an instance; in particular it takes no setter
away, and it gives no slot to a name that has a setter. So a name with a setter and without a slot
stays one in every run. -/
namespace ScriptPlayer

namespace Instance

variable {t t' t'' : ClassTable} {i j k : Instance}

/-- What one step can make of an instance. -/
inductive Becomes (t : ClassTable) (i : Instance) : Instance → Prop
  | update {j : Instance} {new : List Value} (h : i.Update t j new) : i.Becomes t j
  | guard (active : Bool) : i.Becomes t (i.withGuard active)

theorem isSome_setter?_iff {name : QName} : (i.setter? t name).isSome ↔
    (i.bound.member? .setter name).isSome ∨ (t.findSetter i.cls name).isSome := by
  have hsetter : i.setter? t name =
      (i.bound.member? .setter name).or (t.findSetter i.cls name) := by
    have hmember : i.bound.member? .setter name = (i.bound.get? name).bind Trait.setter := rfl
    unfold setter?
    rw [hmember]
    cases (i.bound.get? name).bind Trait.setter <;> rfl
  rw [hsetter, Option.isSome_or, Bool.or_eq_true]

/-! A bound getter comes before a bound method, and both before whatever a class declares. -/

theorem readableTrait_of_member? {kind : TraitKind} {name : QName} {f : FunctionId}
    (hkind : kind ≠ .setter) (h : i.bound.member? kind name = some f) :
    i.readableTrait t name = i.bound.get? name := by
  obtain ⟨trait, htrait, hmember⟩ := Option.bind_eq_some_iff.1 h
  have hreadable : trait.isReadable := by
    unfold Trait.isReadable
    cases kind with
    | getter => rw [show trait.getter = some f from hmember]; rfl
    | setter => exact absurd rfl hkind
    | method => rw [show trait.method = some f from hmember, Option.isSome_some, Bool.or_true]
  unfold readableTrait
  rw [htrait, Option.filter_some, if_pos hreadable]

theorem traitAnswer_of_getter {name : QName} {f : FunctionId}
    (h : i.bound.member? .getter name = some f) : i.traitAnswer t name = .getter f := by
  unfold traitAnswer
  rw [readableTrait_of_member? (by decide) h]
  obtain ⟨⟨getter, setter, method⟩, htrait, hmember⟩ := Option.bind_eq_some_iff.1 h
  obtain rfl : getter = some f := hmember
  rw [htrait]

theorem traitAnswer_of_method {name : QName} {f : FunctionId}
    (hgetter : i.bound.member? .getter name = none)
    (h : i.bound.member? .method name = some f) :
    i.traitAnswer t name = .value (.function f) := by
  unfold traitAnswer
  rw [readableTrait_of_member? (by decide) h]
  obtain ⟨⟨getter, setter, method⟩, htrait, hmember⟩ := Option.bind_eq_some_iff.1 h
  obtain rfl : method = some f := hmember
  unfold TraitTable.member? at hgetter
  rw [htrait] at hgetter
  obtain rfl : getter = none := hgetter
  rw [htrait]

theorem readableTrait_of_unbound {name : QName} (hgetter : i.bound.member? .getter name = none)
    (hmethod : i.bound.member? .method name = none) :
    i.readableTrait t name = t.findReadable i.cls name := by
  unfold readableTrait
  unfold TraitTable.member? at hgetter hmethod
  cases htrait : i.bound.get? name with
  | none => rfl
  | some trait =>
    rw [htrait] at hgetter hmethod
    have hreadable : trait.isReadable = false := by
      unfold Trait.isReadable
      rw [show trait.getter = none from hgetter, show trait.method = none from hmethod]
      rfl
    rw [Option.filter_some, hreadable]
    rfl

/-- What is left of an instance keeps to its setters: the names that had one have one still, and
none of them has got a slot since. -/
structure Heeds (t t' : ClassTable) (i j : Instance) : Prop where
  setter : ∀ name, (i.setter? t name).isSome → (j.setter? t' name).isSome
  slotless : ∀ name, (i.setter? t name).isSome → i.slots.get? name = none →
    j.slots.get? name = none

theorem Heeds.refl (t : ClassTable) (i : Instance) : Heeds t t i i :=
  ⟨fun _ h => h, fun _ _ h => h⟩

theorem Heeds.trans (h : Heeds t t' i j) (h' : Heeds t' t'' j k) : Heeds t t'' i k where
  setter name hset := h'.setter name (h.setter name hset)
  slotless name hset hslot :=
    h'.slotless name (h.setter name hset) (h.slotless name hset hslot)

theorem SameTraits.heeds (h : SameTraits t t' i j) (hslots : j.slots = i.slots) :
    Heeds t t' i j where
  setter name hset := by rwa [h.setter?]
  slotless name _ hslot := by rwa [hslots]

theorem Update.heeds {new : List Value} (h : i.Update t j new) (hi : i.WellFormed) :
    Heeds t t i j := by
  have hcls := h.cls_eq
  cases h with
  | slot name v hd hset =>
    refine ⟨fun _ h => h, fun name' hset' hslot => ?_⟩
    have hne : name' ≠ name := by
      rintro rfl
      rw [hset] at hset'
      cases hset'
    change (i.slots.insert name v).2.get? name' = none
    rw [hi.slots.get?_insert, if_neg hne]
    exact hslot
  | unslot name =>
    refine ⟨fun _ h => h, fun name' _ hslot => ?_⟩
    change (i.slots.remove name).2.get? name' = none
    rw [hi.slots.get?_remove, hslot, ite_self]
  | bind kind name f =>
    refine ⟨fun name' hset => ?_, fun _ _ hslot => hslot⟩
    rw [isSome_setter?_iff] at hset ⊢
    exact hset.imp_left fun hbound => TraitTable.isSome_member?_define hbound name kind f
  | same | install | bytes | entry | unentry | listen | unlisten | timer | video =>
    exact ⟨fun _ h => h, fun _ _ hslot => hslot⟩

theorem Becomes.heeds (h : i.Becomes t j) (hi : i.WellFormed) : Heeds t t i j := by
  cases h with
  | update h => exact h.heeds hi
  | guard active => exact ⟨fun _ h => h, fun _ _ hslot => hslot⟩

end Instance

namespace World

variable {w w' : World} {o : ObjectId} {i j : Instance}

theorem Step.origin (h : Step w w') (hj : w'.instance? o = some j) :
    (∃ i, w.instance? o = some i ∧ i.Becomes w.classes j) ∨
      o = w.heap.cells.length ∧ ∃ cls spec, j = .fresh cls (w.newBacking spec).1 := by
  have hsame : w.instance? o = some j →
      (∃ i, w.instance? o = some i ∧ i.Becomes w.classes j) ∨
        o = w.heap.cells.length ∧ ∃ cls spec, j = .fresh cls (w.newBacking spec).1 :=
    fun hi => .inl ⟨j, hi, .update .same⟩
  cases h with
  | hold hv => exact hsame ((fades_hold w _).instance? hj)
  | letGo v => exact hsame ((fades_letGo w v).instance? hj)
  | push hp => exact hsame hj
  | pop hf hp hkeep => exact hsame ((fades_popFrame w _).instance? hj)
  | @enter o' i' hi hb ho' =>
    have hput := instance?_putInstance hi (i'.withGuard true) hj
    split at hput
    · rename_i he
      exact .inl ⟨i', he ▸ hi, hput ▸ .guard true⟩
    · exact hsame hput
  | @leave o' i' held rest keep hf hkeep hi hb =>
    have hput := instance?_putInstance hi (i'.withGuard false) hj
    split at hput
    · rename_i he
      exact .inl ⟨i', he ▸ (fades_popFrame w keep).instance? hi, hput ▸ .guard false⟩
    · exact hsame ((fades_popFrame w keep).instance? hput)
  | newInstance spec hc =>
    rcases instance?_spawn hj with hj | ⟨he, hnew⟩
    · exact hsame hj
    · exact .inr ⟨he, _, spec, hnew⟩
  | newFunction hf => exact hsame (instance?_newFunction hj)
  | @update o' i' j' new hi hupdate hnew =>
    have hput := instance?_putInstance hi j' hj
    split at hput
    · rename_i he
      exact .inl ⟨i', he ▸ hi, hput ▸ .update hupdate⟩
    · exact hsame hput
  | defineGlobal name hv => exact hsame ((fades_putGlobals w _).instance? hj)
  | registerClass hreg hsuper hd => exact hsame ((fades_registerClass hreg).instance? hj)
  | retarget ht => exact hsame ((fades_putTargets w _).instance? hj)
  | background hw =>
    have hfades : w.heap.Fades w'.heap := hw.heap ▸ Heap.Fades.refl _
    exact hsame (hfades.instance? hj)
  | staff hcore hruntime => exact hsame hj
  | assign i hv => exact hsame ((fades_assign w i _).instance? hj)

theorem Step.becomes (h : Step w w') (ho : o < w.heap.cells.length)
    (hj : w'.instance? o = some j) : ∃ i, w.instance? o = some i ∧ i.Becomes w.classes j := by
  rcases h.origin hj with h | ⟨he, -⟩
  · exact h
  · exact absurd ho (he ▸ Nat.lt_irrefl _)

theorem lt_of_instance? (hi : w.instance? o = some i) : o < w.heap.cells.length := by
  by_contra hge
  rw [instance?_eq_none_of_length_le (Nat.le_of_not_lt hge)] at hi
  cases hi

theorem Step.heeds (h : Step w w') (hs : w.Sound) (hr : w.Registered)
    (ho : o < w.heap.cells.length) (hj : w'.instance? o = some j) :
    ∃ i, w.instance? o = some i ∧ Instance.Heeds w.classes w'.classes i j := by
  obtain ⟨i, hi, hbecomes⟩ := h.becomes ho hj
  have hheeds := hbecomes.heeds (hs.wellFormed hi)
  have hcls : j.cls < w.classes.size := by
    cases hbecomes with
    | update hupdate => exact hupdate.cls_eq ▸ hr.instances o i hi
    | guard active => exact hr.instances o i hi
  have hchain := ClassTable.chain_of_extends hr.classes h.later.classes hcls
  exact ⟨i, hi, hheeds.trans (Instance.SameTraits.heeds ⟨rfl, hchain⟩ rfl)⟩

/-- In every run an instance keeps to its setters. -/
theorem Steps.heeds (h : Steps w w') (hs : w.Sound) (hr : w.Registered)
    (hi : w.instance? o = some i) (hj : w'.instance? o = some j) :
    Instance.Heeds w.classes w'.classes i j := by
  induction h generalizing j with
  | refl =>
    obtain rfl := Option.some.inj (hi.symm.trans hj)
    exact .refl _ _
  | tail hsteps hstep ih =>
    have hlt := Nat.lt_of_lt_of_le (lt_of_instance? hi) hsteps.later.length
    obtain ⟨k, hk, hheeds⟩ := hstep.heeds (hsteps.sound hs) (hsteps.registered hr) hlt hj
    exact (ih hk).trans hheeds

end World

end ScriptPlayer
