import ScriptPlayer.Object.TraitTable
import ScriptPlayer.Proofs.Container.Assoc

/-! Traits by name and kind of member. Defining a member leaves the members of other names and the
other members of the same name as they are. -/
namespace ScriptPlayer

namespace Trait

def member? (trait : Trait) : TraitKind → Option FunctionId
  | .getter => trait.getter
  | .setter => trait.setter
  | .method => trait.method

theorem member?_define (trait : Trait) (kind kind' : TraitKind) (f : FunctionId) :
    (trait.define kind f).member? kind' = if kind' = kind then some f else trait.member? kind' := by
  cases kind <;> cases kind' <;> rfl

theorem member?_empty (kind : TraitKind) : empty.member? kind = none := by
  cases kind <;> rfl

theorem mem_functions_of_member? {trait : Trait} {kind : TraitKind} {f : FunctionId}
    (h : trait.member? kind = some f) : f ∈ trait.functions := by
  have hmem : f ∈ (trait.member? kind).toList := Option.mem_toList.2 h
  unfold functions
  rw [List.mem_append, List.mem_append]
  cases kind with
  | getter => exact Or.inl (Or.inl hmem)
  | setter => exact Or.inl (Or.inr hmem)
  | method => exact Or.inr hmem

end Trait

namespace TraitTable

def member? (t : TraitTable) (kind : TraitKind) (name : QName) : Option FunctionId :=
  (t.get? name).bind fun trait => trait.member? kind

theorem get?_define (t : TraitTable) (name name' : QName) (kind : TraitKind) (f : FunctionId) :
    (t.define name kind f).get? name' =
      if name' = name then some (((t.get? name).getD .empty).define kind f) else t.get? name' := by
  unfold define
  cases hc : t.get? name with
  | some trait =>
    have hcontains : t.contains name := Option.isSome_of_eq_some hc
    rw [if_pos hcontains]
    refine (Assoc.lookup_alter t.entries name name' fun trait => trait.define kind f).trans ?_
    rw [show t.entries.lookup name = some trait from hc]
    rfl
  | none =>
    have hcontains : ¬t.contains name := by
      rw [contains, hc]
      exact Bool.false_ne_true
    rw [if_neg hcontains]
    have hnew : name ∉ Assoc.keys t.entries := Assoc.lookup_eq_none_iff.1 hc
    have hset := Assoc.lookup_set t.entries name name' (Trait.empty.define kind f)
    rwa [Assoc.set_of_not_mem hnew] at hset

theorem member?_define (t : TraitTable) (name name' : QName) (kind kind' : TraitKind)
    (f : FunctionId) :
    (t.define name kind f).member? kind' name' =
      if name' = name ∧ kind' = kind then some f else t.member? kind' name' := by
  unfold member?
  rw [get?_define]
  by_cases hname : name' = name
  · rw [if_pos hname, Option.bind_some, Trait.member?_define, hname]
    by_cases hkind : kind' = kind
    · rw [if_pos hkind, if_pos ⟨rfl, hkind⟩]
    · rw [if_neg hkind, if_neg fun h => hkind h.2]
      cases t.get? name with
      | some trait => rfl
      | none => exact Trait.member?_empty kind'
  · rw [if_neg hname, if_neg fun h => hname h.1]

theorem isSome_member?_define {t : TraitTable} {name' : QName} {kind' : TraitKind}
    (h : (t.member? kind' name').isSome) (name : QName) (kind : TraitKind) (f : FunctionId) :
    ((t.define name kind f).member? kind' name').isSome := by
  rw [member?_define]
  split
  · rfl
  · exact h

theorem member?_eq_none {t : TraitTable} {name : QName} (h : t.get? name = none)
    (kind : TraitKind) : t.member? kind name = none := by
  rw [member?, h, Option.bind_none]

/-! The functions of a table are among its handles. -/

theorem mem_handles_of_get? {t : TraitTable} {name : QName} {trait : Trait} {f : FunctionId}
    (h : t.get? name = some trait) (hf : f ∈ trait.functions) : Value.function f ∈ t.handles := by
  exact List.mem_flatMap.2 ⟨(name, trait), Assoc.mem_of_lookup h, List.mem_map_of_mem hf⟩

theorem mem_handles_of_member? {t : TraitTable} {kind : TraitKind} {name : QName} {f : FunctionId}
    (h : t.member? kind name = some f) : Value.function f ∈ t.handles := by
  obtain ⟨trait, htrait, hmember⟩ := Option.bind_eq_some_iff.1 h
  exact mem_handles_of_get? htrait (Trait.mem_functions_of_member? hmember)

end TraitTable

end ScriptPlayer
