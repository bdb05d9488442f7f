import Mathlib.Data.List.Basic
import Mathlib.Logic.Relation
import ScriptPlayer.Proofs.World.Chain

/-! The line of superclasses above a class: it ends at a root, its length is the depth of the class,
and it says which classes are subclasses of which and where a trait is found. -/
namespace ScriptPlayer

namespace ClassTable

variable {t : ClassTable} {c a b : ClassId} {l : List ClassId}

def Extends (t : ClassTable) (c s : ClassId) : Prop :=
  ∃ k, t.get? c = some k ∧ k.superclass = some s

/-- The proper ancestors of a class up to a root, the nearest one first. -/
inductive Lineage (t : ClassTable) : ClassId → List ClassId → Prop
  | root {c : ClassId} {k : Class} (hk : t.get? c = some k) (hs : k.superclass = none) :
      Lineage t c []
  | derived {c s : ClassId} {l : List ClassId} (hc : t.Extends c s) (h : Lineage t s l) :
      Lineage t c (s :: l)

theorem Extends.lt (ht : t.WellFormed) {s : ClassId} (h : t.Extends c s) : s < c :=
  let ⟨k, hk, hs⟩ := h
  ht c k s hk hs

theorem lt_size_of_get? {k : Class} (h : t.get? c = some k) : c < t.size :=
  (List.getElem?_eq_some_iff.1 h).1

theorem Extends.lt_size {s : ClassId} (h : t.Extends c s) : c < t.size :=
  let ⟨_, hk, _⟩ := h
  lt_size_of_get? hk

theorem exists_lineage (ht : t.WellFormed) (hc : c < t.size) : ∃ l, t.Lineage c l := by
  -- the superclass is an earlier class
  induction c using Nat.strongRecOn with
  | ind c ih =>
    have hk : t.get? c = some t.classes[c] := List.getElem?_eq_getElem hc
    cases hs : t.classes[c].superclass with
    | none => exact ⟨[], .root hk hs⟩
    | some s =>
      have hlt : s < c := ht c _ s hk hs
      obtain ⟨l, hl⟩ := ih s hlt (Nat.lt_trans hlt hc)
      exact ⟨s :: l, .derived ⟨_, hk, hs⟩ hl⟩

theorem Lineage.lt_size (h : t.Lineage c l) : c < t.size := by
  cases h with
  | root hk => exact lt_size_of_get? hk
  | derived hc => exact hc.lt_size

theorem Lineage.climb_eq (ht : t.WellFormed) (h : t.Lineage c l) {n : Nat} (hn : c < n) :
    t.climb n c = c :: l := by
  induction h generalizing n with
  | root hk hs =>
    obtain ⟨n, rfl⟩ := Nat.exists_eq_succ_of_ne_zero (Nat.ne_zero_of_lt hn)
    simp only [climb, hk, hs]
  | derived hc h ih =>
    obtain ⟨n, rfl⟩ := Nat.exists_eq_succ_of_ne_zero (Nat.ne_zero_of_lt hn)
    have hlt := Nat.lt_of_lt_of_le (hc.lt ht) (Nat.le_of_lt_succ hn)
    obtain ⟨k, hk, hs⟩ := hc
    simp only [climb, hk, hs, ih hlt]

theorem Lineage.ancestors_eq (ht : t.WellFormed) (h : t.Lineage c l) : t.ancestors c = c :: l :=
  h.climb_eq ht h.lt_size

theorem Lineage.pairwise (ht : t.WellFormed) (h : t.Lineage c l) :
    (c :: l).Pairwise fun a b => b < a := by
  induction h with
  | root => exact List.pairwise_singleton _ _
  | @derived c s l hc h ih =>
    refine List.pairwise_cons.2 ⟨fun a ha => ?_, ih⟩
    rcases List.mem_cons.1 ha with rfl | ha
    · exact hc.lt ht
    · exact Nat.lt_trans ((List.pairwise_cons.1 ih).1 a ha) (hc.lt ht)

theorem Lineage.nodup (ht : t.WellFormed) (h : t.Lineage c l) : (c :: l).Nodup :=
  (h.pairwise ht).imp fun hlt => (Nat.ne_of_lt hlt).symm

/-- The line above an ancestor is the rest of the line. -/
theorem Lineage.of_mem (h : t.Lineage c l) (hb : b ∈ c :: l) :
    ∃ l', t.Lineage b l' ∧ b :: l' <:+ c :: l := by
  induction h with
  | root hk hs =>
    obtain rfl := List.mem_singleton.1 hb
    exact ⟨[], .root hk hs, List.suffix_rfl⟩
  | @derived c s l hc h ih =>
    rcases List.mem_cons.1 hb with rfl | hb
    · exact ⟨s :: l, .derived hc h, List.suffix_rfl⟩
    · obtain ⟨l', hl', hsuffix⟩ := ih hb
      exact ⟨l', hl', hsuffix.trans (List.suffix_cons c _)⟩

def Measured (t : ClassTable) : Prop :=
  ∀ c k, t.get? c = some k → k.depth = (k.superclass.map fun s => t.depthOf s + 1).getD 0

theorem Lineage.depthOf_eq (hd : t.Measured) (h : t.Lineage c l) : t.depthOf c = l.length := by
  induction h with
  | root hk hs => simp [depthOf, hk, hd _ _ hk, hs]
  | derived hc h ih =>
    obtain ⟨k, hk, hs⟩ := hc
    rw [depthOf, hk, Option.map_some, Option.getD_some, hd _ k hk, hs, Option.map_some,
      Option.getD_some, ih, List.length_cons]

/-! Subclasses -/

theorem isSubclass_iff : t.isSubclass a b = true ↔ b ∈ t.ancestors a := List.contains_iff_mem

theorem Lineage.isSubclass_iff (ht : t.WellFormed) (h : t.Lineage a l) :
    t.isSubclass a b = true ↔ b ∈ a :: l := by
  rw [ClassTable.isSubclass_iff, h.ancestors_eq ht]

theorem lt_size_of_isSubclass (h : t.isSubclass a b = true) : a < t.size := by
  have hb := isSubclass_iff.1 h
  by_contra hge
  have hnone : t.get? a = none := List.getElem?_eq_none (Nat.le_of_not_lt hge)
  unfold ancestors at hb
  cases hn : t.size with
  | zero => simp [hn, climb] at hb
  | succ n => simp [hn, climb, hnone] at hb

theorem isSubclass_refl (ht : t.WellFormed) (hc : c < t.size) : t.isSubclass c c = true := by
  obtain ⟨l, hl⟩ := exists_lineage ht hc
  exact (hl.isSubclass_iff ht).2 List.mem_cons_self

theorem isSubclass_trans (ht : t.WellFormed) (hab : t.isSubclass a b = true)
    (hbc : t.isSubclass b c = true) : t.isSubclass a c = true := by
  obtain ⟨l, hl⟩ := exists_lineage ht (lt_size_of_isSubclass hab)
  obtain ⟨l', hl', hsuffix⟩ := hl.of_mem ((hl.isSubclass_iff ht).1 hab)
  exact (hl.isSubclass_iff ht).2 (hsuffix.subset ((hl'.isSubclass_iff ht).1 hbc))

theorem Extends.isSubclass (ht : t.WellFormed) (h : t.Extends a b) : t.isSubclass a b = true := by
  obtain ⟨l, hl⟩ := exists_lineage ht (Nat.lt_trans (h.lt ht) h.lt_size)
  exact ((Lineage.derived h hl).isSubclass_iff ht).2 (List.mem_cons_of_mem a List.mem_cons_self)

theorem depthOf_lt_of_isSubclass (ht : t.WellFormed) (hd : t.Measured)
    (hab : t.isSubclass a b = true) (hne : a ≠ b) : t.depthOf b < t.depthOf a := by
  obtain ⟨l, hl⟩ := exists_lineage ht (lt_size_of_isSubclass hab)
  obtain ⟨l', hl', hsuffix⟩ := hl.of_mem ((hl.isSubclass_iff ht).1 hab)
  rw [hl.depthOf_eq hd, hl'.depthOf_eq hd]
  -- the two lines differ in their first class
  refine Nat.lt_of_succ_lt_succ (Nat.lt_of_le_of_ne hsuffix.length_le fun hlength => hne ?_)
  exact (List.cons.inj (hsuffix.eq_of_length hlength)).1.symm

theorem isSubclass_antisymm (ht : t.WellFormed) (hd : t.Measured)
    (hab : t.isSubclass a b = true) (hba : t.isSubclass b a = true) : a = b := by
  by_contra hne
  exact Nat.lt_asymm (depthOf_lt_of_isSubclass ht hd hab hne)
    (depthOf_lt_of_isSubclass ht hd hba (Ne.symm hne))

/-- The subclasses of a class are those from which superclass links lead to it. -/
theorem isSubclass_iff_reflTransGen (ht : t.WellFormed) (ha : a < t.size) :
    t.isSubclass a b = true ↔ Relation.ReflTransGen t.Extends a b := by
  constructor
  · intro hab
    obtain ⟨l, hl⟩ := exists_lineage ht ha
    have hb := (hl.isSubclass_iff ht).1 hab
    clear hab ha
    induction hl with
    | root => exact List.mem_singleton.1 hb ▸ .refl
    | derived hc h ih =>
      rcases List.mem_cons.1 hb with rfl | hb
      · exact .refl
      · exact .head hc (ih hb)
  · intro h
    induction h with
    | refl => exact isSubclass_refl ht ha
    | tail _ hbc ih => exact isSubclass_trans ht ih (hbc.isSubclass ht)

/-! Traits along the line -/

def ownTrait (t : ClassTable) (a : ClassId) (name : QName) : Option Trait :=
  (t.get? a).bind fun k => k.traits.get? name

/-- A class declares a trait of this name with the wanted capability itself. -/
def Offers (t : ClassTable) (name : QName) (accept : Trait → Bool) (a : ClassId) : Prop :=
  ∃ trait, t.ownTrait a name = some trait ∧ accept trait = true

def Nearest (t : ClassTable) (c : ClassId) (P : ClassId → Prop) (a : ClassId) : Prop :=
  ∃ nearer farther, t.ancestors c = nearer ++ a :: farther ∧ P a ∧ ∀ b ∈ nearer, ¬ P b

variable {name : QName} {accept : Trait → Bool} {trait : Trait}

theorem findTrait_eq : t.findTrait c name accept =
    (t.ancestors c).findSome? fun a => (t.ownTrait a name).filter accept := by
  rw [findTrait, chain, ← List.head?_filterMap, List.filterMap_filterMap, List.head?_filterMap]
  refine congrArg (List.findSome? · _) (funext fun a => ?_)
  rw [ownTrait]
  cases t.get? a <;> rfl

theorem filter_ownTrait_eq_none : (t.ownTrait a name).filter accept = none ↔
    ¬ t.Offers name accept a := by
  simp [Offers, Option.filter_eq_none_iff]

theorem findTrait_eq_some_iff : t.findTrait c name accept = some trait ↔
    ∃ a, t.Nearest c (t.Offers name accept) a ∧ t.ownTrait a name = some trait := by
  rw [findTrait_eq, List.findSome?_eq_some_iff]
  simp only [filter_ownTrait_eq_none, Option.filter_eq_some_iff]
  constructor
  · rintro ⟨nearer, a, farther, hline, ⟨hown, haccept⟩, hnearer⟩
    exact ⟨a, ⟨nearer, farther, hline, ⟨trait, hown, haccept⟩, hnearer⟩, hown⟩
  · rintro ⟨a, ⟨nearer, farther, hline, ⟨trait', hown', haccept⟩, hnearer⟩, hown⟩
    obtain rfl := Option.some.inj (hown.symm.trans hown')
    exact ⟨nearer, a, farther, hline, ⟨hown, haccept⟩, hnearer⟩

theorem findTrait_eq_none_iff : t.findTrait c name accept = none ↔
    ∀ a ∈ t.ancestors c, ¬ t.Offers name accept a := by
  simp only [findTrait_eq, List.findSome?_eq_none_iff, filter_ownTrait_eq_none]

theorem findSetter_eq_some_iff {f : FunctionId} : t.findSetter c name = some f ↔
    ∃ a trait, t.Nearest c (t.Offers name fun trait => trait.setter.isSome) a ∧
      t.ownTrait a name = some trait ∧ trait.setter = some f := by
  simp only [findSetter, Option.bind_eq_some_iff, findTrait_eq_some_iff]
  constructor
  · rintro ⟨trait, ⟨a, hnearest, hown⟩, hf⟩
    exact ⟨a, trait, hnearest, hown, hf⟩
  · rintro ⟨a, trait, hnearest, hown, hf⟩
    exact ⟨trait, ⟨a, hnearest, hown⟩, hf⟩

theorem findSetter_eq_none_iff : t.findSetter c name = none ↔
    ∀ a ∈ t.ancestors c, ¬ t.Offers name (fun trait => trait.setter.isSome) a := by
  rw [← findTrait_eq_none_iff, findSetter, Option.bind_eq_none_iff]
  constructor
  · intro h
    by_contra hsome
    obtain ⟨trait, htrait⟩ := Option.ne_none_iff_exists'.1 hsome
    -- the trait that is found has a setter
    obtain ⟨k, -, hk⟩ := List.exists_of_findSome?_eq_some htrait
    have hsetter : trait.setter.isSome = true := (Option.filter_eq_some_iff.1 hk).2
    rw [h trait htrait] at hsetter
    exact Bool.noConfusion hsetter
  · intro h trait htrait
    rw [h] at htrait
    cases htrait

theorem declares_iff : t.declares c name = true ↔
    ∃ a ∈ t.ancestors c, (t.ownTrait a name).isSome := by
  rw [declares, chain, List.any_filterMap, List.any_eq_true]
  refine exists_congr fun a => and_congr_right fun _ => ?_
  rw [ownTrait]
  cases t.get? a <;> simp [TraitTable.contains]

end ClassTable

end ScriptPlayer
