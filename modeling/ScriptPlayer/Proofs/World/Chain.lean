import ScriptPlayer.Proofs.World.Staffed

/-! The traits that a class chain gives do not change as further classes are registered. -/
namespace ScriptPlayer

namespace ClassTable

variable {t t' : ClassTable}

theorem get?_of_extends (h : t.classes <+: t'.classes) {c : ClassId} (hc : c < t.size) :
    t'.get? c = t.get? c := by
  obtain ⟨more, hmore⟩ := h
  rw [get?, ← hmore]
  exact List.getElem?_append_left hc

/-- Allowances that suffice for every class up to the given one lead to the same climb, also in a
table with more classes. -/
theorem climb_of_extends (ht : t.WellFormed) (h : t.classes <+: t'.classes) {n m : Nat}
    {c : ClassId} (hn : c < n) (hm : c < m) (hc : c < t.size) : t'.climb n c = t.climb m c := by
  induction n generalizing m c with
  | zero => exact absurd hn (Nat.not_lt_zero c)
  | succ n ih =>
    cases m with
    | zero => exact absurd hm (Nat.not_lt_zero c)
    | succ m =>
      unfold climb
      rw [get?_of_extends h hc]
      cases hk : t.get? c with
      | none => rfl
      | some k =>
        dsimp only
        cases hs : k.superclass with
        | none => rfl
        | some s =>
          have hlt := ht c k s hk hs
          exact congrArg (c :: ·) (ih (Nat.lt_of_lt_of_le hlt (Nat.le_of_lt_succ hn))
            (Nat.lt_of_lt_of_le hlt (Nat.le_of_lt_succ hm)) (Nat.lt_trans hlt hc))

theorem le_of_mem_climb (ht : t.WellFormed) {n : Nat} {c a : ClassId} (ha : a ∈ t.climb n c) :
    a ≤ c := by
  induction n generalizing c with
  | zero => exact absurd ha List.not_mem_nil
  | succ n ih =>
    unfold climb at ha
    cases hk : t.get? c with
    | none =>
      rw [hk] at ha
      exact absurd ha List.not_mem_nil
    | some k =>
      rw [hk] at ha
      rcases List.mem_cons.1 ha with rfl | ha
      · exact Nat.le_refl a
      · cases hs : k.superclass with
        | none =>
          rw [hs] at ha
          exact absurd ha List.not_mem_nil
        | some s =>
          rw [hs] at ha
          exact Nat.le_trans (ih ha) (Nat.le_of_lt (ht c k s hk hs))

theorem chain_of_extends (ht : t.WellFormed) (h : t.classes <+: t'.classes) {c : ClassId}
    (hc : c < t.size) : t'.chain c = t.chain c := by
  have hc' : c < t'.size := Nat.lt_of_lt_of_le hc h.length_le
  unfold chain ancestors
  rw [climb_of_extends ht h hc' hc hc]
  apply List.filterMap_congr
  intro a ha
  exact get?_of_extends h (Nat.lt_of_le_of_lt (le_of_mem_climb ht ha) hc)

theorem findTrait_of_not_declares {c : ClassId} {name : QName} (h : t.declares c name = false)
    (accept : Trait → Bool) : t.findTrait c name accept = none := by
  refine List.findSome?_eq_none_iff.2 fun k hk => ?_
  rw [Option.not_isSome_iff_eq_none.1 (List.any_eq_false.1 h k hk)]
  rfl

theorem isReadable_of_findReadable {c : ClassId} {name : QName} {trait : Trait}
    (h : t.findReadable c name = some trait) : trait.isReadable := by
  obtain ⟨k, -, hk⟩ := List.exists_of_findSome?_eq_some h
  exact (Option.filter_eq_some_iff.1 hk).2

end ClassTable

namespace Instance

variable {t t' : ClassTable} {i j : Instance}

/-- Instances have the same traits if they have the same bound members and the same class chain. -/
structure SameTraits (t t' : ClassTable) (i j : Instance) : Prop where
  bound : j.bound = i.bound
  chain : t'.chain j.cls = t.chain i.cls

theorem SameTraits.trans {t'' : ClassTable} {k : Instance} (h : SameTraits t t' i j)
    (h' : SameTraits t' t'' j k) : SameTraits t t'' i k :=
  ⟨h'.bound.trans h.bound, h'.chain.trans h.chain⟩

theorem SameTraits.readableTrait (h : SameTraits t t' i j) (name : QName) :
    j.readableTrait t' name = i.readableTrait t name := by
  unfold Instance.readableTrait ClassTable.findReadable ClassTable.findTrait
  rw [h.bound, h.chain]

theorem SameTraits.setter? (h : SameTraits t t' i j) (name : QName) :
    j.setter? t' name = i.setter? t name := by
  unfold Instance.setter? ClassTable.findSetter ClassTable.findTrait
  rw [h.bound, h.chain]

theorem SameTraits.hasTrait (h : SameTraits t t' i j) (name : QName) :
    j.hasTrait t' name = i.hasTrait t name := by
  unfold Instance.hasTrait ClassTable.declares
  rw [h.bound, h.chain]

def traitAnswer (t : ClassTable) (i : Instance) (name : QName) : Found :=
  match i.readableTrait t name with
  | some ⟨some getter, _, _⟩ => .getter getter
  | some ⟨none, _, some method⟩ => .value (.function method)
  | _ => .absent

theorem traits_of_not_hasTrait {name : QName} (h : i.hasTrait t name = false) :
    i.readableTrait t name = none ∧ i.setter? t name = none := by
  obtain ⟨hbound, hdeclares⟩ := Bool.or_eq_false_iff.1 h
  have hbound : i.bound.get? name = none :=
    Option.not_isSome_iff_eq_none.1 (Bool.eq_false_iff.1 hbound)
  have hfind := ClassTable.findTrait_of_not_declares hdeclares
  unfold readableTrait setter? ClassTable.findReadable ClassTable.findSetter
  rw [hbound, hfind, hfind]
  exact ⟨rfl, rfl⟩

theorem isReadable_of_readableTrait {name : QName} {trait : Trait}
    (h : i.readableTrait t name = some trait) : trait.isReadable := by
  unfold readableTrait at h
  split at h
  · rename_i hbound
    obtain rfl := Option.some.inj h
    exact (Option.filter_eq_some_iff.1 hbound).2
  · exact ClassTable.isReadable_of_findReadable h

theorem traitAnswer_eq_absent_iff {name : QName} :
    i.traitAnswer t name = .absent ↔ i.readableTrait t name = none := by
  unfold traitAnswer
  cases htrait : i.readableTrait t name with
  | none => simp
  | some trait =>
    have hreadable := isReadable_of_readableTrait htrait
    obtain ⟨getter, setter, method⟩ := trait
    cases getter with
    | some f => simp
    | none =>
      cases method with
      | some f => simp
      | none => exact absurd hreadable Bool.false_ne_true

theorem lookup_of_slot {name : QName} {v : Value} (h : i.slots.get? name = some v) :
    i.lookup t name = .value v := by
  unfold lookup
  rw [h]

theorem lookup_of_no_slot {name : QName} (h : i.slots.get? name = none) :
    i.lookup t name = i.traitAnswer t name := by
  unfold lookup
  rw [h]
  rfl

theorem SameTraits.traitAnswer (h : SameTraits t t' i j) (name : QName) :
    j.traitAnswer t' name = i.traitAnswer t name := by
  unfold Instance.traitAnswer
  rw [h.readableTrait]

end Instance

theorem World.Later.instance_eq {w w' : World} {o : ObjectId} {i j : Instance} (h : w.Later w')
    (hr : w.Registered) (hi : w.instance? o = some i) (hj : w'.instance? o = some j) :
    w'.classes.chain j.cls = w.classes.chain i.cls ∧ j.backing.kind = i.backing.kind := by
  obtain ⟨n, hc⟩ := Heap.content?_eq_some_iff.1 (Heap.instance?_eq_some_iff.1 hi)
  obtain ⟨x, hx, hsame⟩ := h.content o _ (Heap.lt_of_get? hc) (Heap.instance?_eq_some_iff.1 hj)
  obtain rfl := Option.some.inj ((Heap.instance?_eq_some_iff.1 hi).symm.trans hx)
  cases hsame with
  | instanceOf hcls hkind =>
    rw [hcls]
    exact ⟨ClassTable.chain_of_extends hr.classes h.classes (hr.instances o i hi), hkind⟩

end ScriptPlayer
