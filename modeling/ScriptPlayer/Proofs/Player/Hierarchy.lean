import ScriptPlayer.Proofs.Player.Session
import ScriptPlayer.Proofs.World.Lineage

/-! What registrations make of a class table. Whatever is registered, in whatever order, and however
often a name is refused, the table is a forest in which each class is found by its name. -/
namespace ScriptPlayer

open World Run

/-- A table made by registrations, with the answer that each of them got. A superclass is a class
that has been registered. -/
inductive Registrations : List (ClassDecl × Except Fatal ClassId) → ClassTable → Prop
  | nil : Registrations [] .empty
  | made {log : List (ClassDecl × Except Fatal ClassId)} {t t' : ClassTable} {d : ClassDecl}
      {c : ClassId} (h : Registrations log t)
      (hsuper : ∀ s, d.superclass = some s → s < t.size) (hr : t.register d = .ok (c, t')) :
      Registrations (log ++ [(d, .ok c)]) t'
  | refused {log : List (ClassDecl × Except Fatal ClassId)} {t : ClassTable} {d : ClassDecl}
      {e : Fatal} (h : Registrations log t) (hr : t.register d = .error e) :
      Registrations (log ++ [(d, .error e)]) t

/-- The class table as a hierarchy. -/
structure Hierarchy (log : List (ClassDecl × Except Fatal ClassId)) (t : ClassTable) : Prop where
  /-- The classes are those that have been registered, as they were declared. -/
  registered : ∀ c k, t.get? c = some k ↔ ∃ d, (d, .ok c) ∈ log ∧ k = t.describe d
  /-- A registration is refused for its name and nothing else. -/
  refused : ∀ d e, (d, .error e) ∈ log → e = .registeredTwice d.name ∧ t.find? d.name ≠ none
  /-- A name that is taken aborts the run and changes nothing. -/
  aborts : ∀ s d, s.world.classes = t → t.find? d.name ≠ none →
    Run.registerClass d s = .error (.abort (.registeredTwice d.name)) s
  names : ∀ c c' k k', t.get? c = some k → t.get? c' = some k' → k.name = k'.name → c = c'
  find?_iff : ∀ name c, t.find? name = some c ↔ ∃ k, t.get? c = some k ∧ k.name = name
  /-- Above each class there is a finite line of other classes, as many as its depth. -/
  lineage : ∀ c k, t.get? c = some k →
    ∃ l, t.Lineage c l ∧ t.ancestors c = c :: l ∧ (c :: l).Nodup ∧ k.depth = l.length
  subclass_iff : ∀ a b, a < t.size →
    (t.isSubclass a b = true ↔ Relation.ReflTransGen t.Extends a b)
  refl : ∀ a, a < t.size → t.isSubclass a a = true
  trans : ∀ a b c, t.isSubclass a b = true → t.isSubclass b c = true → t.isSubclass a c = true
  antisymm : ∀ a b, t.isSubclass a b = true → t.isSubclass b a = true → a = b
  deeper : ∀ a b, t.isSubclass a b = true → a ≠ b → t.depthOf b < t.depthOf a
  /-- The readable trait is that of the nearest class whose own trait is readable. -/
  readable : ∀ c name trait, t.findReadable c name = some trait ↔
    ∃ a, t.Nearest c (t.Offers name Trait.isReadable) a ∧ t.ownTrait a name = some trait
  not_readable : ∀ c name, t.findReadable c name = none ↔
    ∀ a ∈ t.ancestors c, ¬ t.Offers name Trait.isReadable a
  /-- The setter is that of the nearest class whose own trait has one. -/
  setter : ∀ c name f, t.findSetter c name = some f ↔
    ∃ a trait, t.Nearest c (t.Offers name fun trait => trait.setter.isSome) a ∧
      t.ownTrait a name = some trait ∧ trait.setter = some f
  no_setter : ∀ c name, t.findSetter c name = none ↔
    ∀ a ∈ t.ancestors c, ¬ t.Offers name (fun trait => trait.setter.isSome) a
  declares_iff : ∀ c name, t.declares c name = true ↔
    ∃ a ∈ t.ancestors c, (t.ownTrait a name).isSome

namespace ClassTable

variable {t t' : ClassTable} {d : ClassDecl} {c : ClassId}

theorem register_eq_ok (h : t.register d = .ok (c, t')) :
    t.find? d.name = none ∧ c = t.size ∧ t' = ⟨t.classes ++ [t.describe d]⟩ := by
  unfold register at h
  cases hfind : t.find? d.name with
  | some c' =>
    rw [hfind] at h
    cases h
  | none =>
    rw [hfind] at h
    cases h
    exact ⟨rfl, rfl, rfl⟩

theorem register_eq_error {e : Fatal} :
    t.register d = .error e ↔ e = .registeredTwice d.name ∧ t.find? d.name ≠ none := by
  unfold register
  cases t.find? d.name with
  | some c' => simp [eq_comm]
  | none => simp

theorem find?_ne_none_iff {name : QName} :
    t.find? name ≠ none ↔ ∃ k ∈ t.classes, k.name = name := by
  simp [find?, List.findIdx?_eq_none_iff]

theorem exists_of_find? {name : QName} (h : t.find? name = some c) :
    ∃ k, t.get? c = some k ∧ k.name = name := by
  obtain ⟨hc, hname, -⟩ := List.findIdx?_eq_some_iff_getElem.1 h
  exact ⟨_, List.getElem?_eq_getElem hc, beq_iff_eq.1 hname⟩

theorem describe_of_extends (h : t.classes <+: t'.classes)
    (hsuper : ∀ s, d.superclass = some s → s < t.size) : t'.describe d = t.describe d := by
  unfold describe
  cases hs : d.superclass with
  | none => rfl
  | some s =>
    have hget : t'.get? s = t.get? s := get?_of_extends h (hsuper s hs)
    rw [Option.map_some, Option.map_some, depthOf, depthOf, hget]

theorem get?_snoc_iff {k k' : Class} : (⟨t.classes ++ [k']⟩ : ClassTable).get? c = some k ↔
    t.get? c = some k ∨ c = t.size ∧ k = k' := by
  unfold get? size
  rw [List.getElem?_append]
  split
  case isTrue hlt => exact ⟨.inl, fun h => h.resolve_right fun hc => Nat.ne_of_lt hlt hc.1⟩
  case isFalse hge =>
    rw [List.getElem?_singleton, List.getElem?_eq_none (Nat.le_of_not_lt hge)]
    grind

end ClassTable

namespace Registrations

variable {log : List (ClassDecl × Except Fatal ClassId)} {t : ClassTable}

theorem wellFormed (h : Registrations log t) : t.WellFormed := by
  induction h with
  | nil => exact fun c k s hk => absurd hk (by simp [ClassTable.get?, ClassTable.empty])
  | made h hsuper hr ih =>
    obtain ⟨-, -, rfl⟩ := ClassTable.register_eq_ok hr
    exact ih.register hsuper
  | refused h hr ih => exact ih

theorem distinct (h : Registrations log t) {c c' : ClassId} {k k' : Class}
    (hk : t.get? c = some k) (hk' : t.get? c' = some k') (hname : k.name = k'.name) : c = c' := by
  induction h with
  | nil => simp [ClassTable.get?, ClassTable.empty] at hk
  | @made log t t' d c₁ h hsuper hr ih =>
    obtain ⟨hfree, -, rfl⟩ := ClassTable.register_eq_ok hr
    have hother : ∀ a x, t.get? a = some x → x.name ≠ d.name := fun a x hx hname =>
      ClassTable.find?_ne_none_iff.2 ⟨x, List.mem_of_getElem? hx, hname⟩ hfree
    rcases ClassTable.get?_snoc_iff.1 hk with hold | ⟨rfl, rfl⟩ <;>
      rcases ClassTable.get?_snoc_iff.1 hk' with hold' | ⟨rfl, rfl⟩
    · exact ih hold hold'
    · exact absurd hname (hother c k hold)
    · exact absurd hname.symm (hother c' k' hold')
    · rfl
  | refused h hr ih => exact ih hk hk'

theorem superclass_lt (h : Registrations log t) {d : ClassDecl} {c s : ClassId}
    (hd : (d, .ok c) ∈ log) (hs : d.superclass = some s) : s < t.size := by
  induction h with
  | nil => exact absurd hd List.not_mem_nil
  | @made log t t' d' c' h hsuper hr ih =>
    obtain ⟨-, -, rfl⟩ := ClassTable.register_eq_ok hr
    have hlt : s < t.size := by
      rcases List.mem_append.1 hd with hd | hd
      · exact ih hd
      · cases List.mem_singleton.1 hd
        exact hsuper s hs
    exact Nat.lt_of_lt_of_le hlt (List.prefix_append t.classes _).length_le
  | refused h hr ih =>
    rcases List.mem_append.1 hd with hd | hd
    · exact ih hd
    · cases List.mem_singleton.1 hd

theorem get?_iff (h : Registrations log t) (c : ClassId) (k : Class) :
    t.get? c = some k ↔ ∃ d, (d, .ok c) ∈ log ∧ k = t.describe d := by
  induction h with
  | nil => simp [ClassTable.get?, ClassTable.empty]
  | @made log t t' d c₁ h hsuper hr ih =>
    obtain ⟨-, rfl, rfl⟩ := ClassTable.register_eq_ok hr
    have hmore : t.classes <+: (⟨t.classes ++ [t.describe d]⟩ : ClassTable).classes :=
      List.prefix_append _ _
    rw [ClassTable.get?_snoc_iff, ih]
    constructor
    · rintro (⟨d', hd', rfl⟩ | ⟨rfl, rfl⟩)
      · refine ⟨d', List.mem_append_left _ hd', ?_⟩
        exact (ClassTable.describe_of_extends hmore fun s hs => h.superclass_lt hd' hs).symm
      · refine ⟨d, List.mem_append_right _ (List.mem_singleton_self _), ?_⟩
        exact (ClassTable.describe_of_extends hmore hsuper).symm
    · rintro ⟨d', hd', rfl⟩
      rcases List.mem_append.1 hd' with hd' | hd'
      · refine .inl ⟨d', hd', ?_⟩
        exact ClassTable.describe_of_extends hmore fun s hs => h.superclass_lt hd' hs
      · cases List.mem_singleton.1 hd'
        exact .inr ⟨rfl, ClassTable.describe_of_extends hmore hsuper⟩
  | refused h hr ih => simp [ih]

theorem measured (h : Registrations log t) : t.Measured := by
  intro c k hk
  obtain ⟨d, -, rfl⟩ := (h.get?_iff c k).1 hk
  rfl

theorem find?_iff (h : Registrations log t) (name : QName) (c : ClassId) :
    t.find? name = some c ↔ ∃ k, t.get? c = some k ∧ k.name = name := by
  refine ⟨ClassTable.exists_of_find?, ?_⟩
  rintro ⟨k, hk, hname⟩
  obtain ⟨c', hfind⟩ := Option.ne_none_iff_exists'.1
    (ClassTable.find?_ne_none_iff.2 ⟨k, List.mem_of_getElem? hk, hname⟩)
  obtain ⟨k', hk', hname'⟩ := ClassTable.exists_of_find? hfind
  rw [hfind, h.distinct hk' hk (hname'.trans hname.symm)]

theorem refused_taken (h : Registrations log t) {d : ClassDecl} {e : Fatal}
    (hd : (d, .error e) ∈ log) : e = .registeredTwice d.name ∧ t.find? d.name ≠ none := by
  induction h with
  | nil => exact absurd hd List.not_mem_nil
  | made h hsuper hr ih =>
    obtain ⟨-, -, rfl⟩ := ClassTable.register_eq_ok hr
    rcases List.mem_append.1 hd with hd | hd
    · obtain ⟨he, htaken⟩ := ih hd
      obtain ⟨k, hk, hname⟩ := ClassTable.find?_ne_none_iff.1 htaken
      exact ⟨he, ClassTable.find?_ne_none_iff.2 ⟨k, List.mem_append_left _ hk, hname⟩⟩
    · cases List.mem_singleton.1 hd
  | refused h hr ih =>
    rcases List.mem_append.1 hd with hd | hd
    · exact ih hd
    · cases List.mem_singleton.1 hd
      exact ClassTable.register_eq_error.1 hr

end Registrations

theorem registerClass_run_taken {s : State} {d : ClassDecl}
    (h : s.world.classes.find? d.name ≠ none) :
    Run.registerClass d s = .error (.abort (.registeredTwice d.name)) s := by
  have hr : s.world.classes.register d = .error (.registeredTwice d.name) :=
    ClassTable.register_eq_error.2 ⟨rfl, h⟩
  have hw : s.world.registerClass d = .error (.registeredTwice d.name) := by
    rw [World.registerClass, hr]
    rfl
  have hfatal : ofFatal (s.world.registerClass d) s =
      .error (.abort (.registeredTwice d.name)) s := by
    rw [hw]
    rfl
  exact bind_of_error hfatal _

/-- Registrations make a hierarchy. -/
theorem Registrations.hierarchy {log : List (ClassDecl × Except Fatal ClassId)} {t : ClassTable}
    (h : Registrations log t) : Hierarchy log t := by
  have ht : t.WellFormed := h.wellFormed
  have hd : t.Measured := h.measured
  constructor
  case registered => exact h.get?_iff
  case refused => exact fun _ _ => h.refused_taken
  case aborts =>
    rintro s d rfl htaken
    exact registerClass_run_taken htaken
  case names => exact fun _ _ _ _ => h.distinct
  case find?_iff => exact h.find?_iff
  case lineage =>
    intro c k hk
    obtain ⟨l, hl⟩ := ClassTable.exists_lineage ht (ClassTable.lt_size_of_get? hk)
    refine ⟨l, hl, hl.ancestors_eq ht, hl.nodup ht, ?_⟩
    rw [← hl.depthOf_eq hd, ClassTable.depthOf, hk, Option.map_some, Option.getD_some]
  case subclass_iff => exact fun _ _ => ClassTable.isSubclass_iff_reflTransGen ht
  case refl => exact fun _ => ClassTable.isSubclass_refl ht
  case trans => exact fun _ _ _ => ClassTable.isSubclass_trans ht
  case antisymm => exact fun _ _ => ClassTable.isSubclass_antisymm ht hd
  case deeper => exact fun _ _ => ClassTable.depthOf_lt_of_isSubclass ht hd
  case readable => exact fun _ _ _ => ClassTable.findTrait_eq_some_iff
  case not_readable => exact fun _ _ => ClassTable.findTrait_eq_none_iff
  case setter => exact fun _ _ _ => ClassTable.findSetter_eq_some_iff
  case no_setter => exact fun _ _ => ClassTable.findSetter_eq_none_iff
  case declares_iff => exact fun _ _ => ClassTable.declares_iff

theorem hierarchy_setterOnly :
    let base : ClassDecl := ⟨.pub "Base", none, [(.getter, .pub "x", 0)], none, none, none⟩
    let derived : ClassDecl := ⟨.pub "Derived", some 0, [(.setter, .pub "x", 1)], none, none, none⟩
    let log : List (ClassDecl × Except Fatal ClassId) :=
      [(base, .ok 0), (derived, .ok 1), (base, .error (.registeredTwice base.name))]
    let first : ClassTable := ⟨[ClassTable.empty.describe base]⟩
    let t : ClassTable := ⟨[ClassTable.empty.describe base, first.describe derived]⟩
    Registrations log t ∧ t.findReadable 1 (.pub "x") = some ⟨some 0, none, none⟩ ∧
      t.findSetter 1 (.pub "x") = some 1 ∧ Hierarchy log t := by
  intro base derived log first t
  have hbase : Registrations [(base, .ok 0)] first := .made .nil (fun _ hs => nomatch hs) rfl
  have hderived : Registrations [(base, .ok 0), (derived, .ok 1)] t :=
    .made hbase (by rintro s ⟨⟩; decide) rfl
  have h : Registrations log t := .refused hderived rfl
  exact ⟨h, by decide, by decide, h.hierarchy⟩

/-! The classes of a running player are such a table. -/

namespace World

variable {w w' : World}

theorem Step.classes_cases (h : Step w w') : w'.classes = w.classes ∨
    ∃ d c, (∀ s, d.superclass = some s → s < w.classes.size) ∧
      w.classes.register d = .ok (c, w'.classes) := by
  cases h with
  | registerClass hreg hsuper hd =>
    obtain ⟨hfree, -, rfl⟩ := registerClass_eq_ok hreg
    refine .inr ⟨_, w.classes.size, hsuper, ?_⟩
    rw [ClassTable.register, hfree]
    rfl
  | hold hv => exact .inl (reframes_hold w _).classes
  | letGo v => exact .inl (reframes_letGo w v).classes
  | push hp => exact .inl rfl
  | pop hf hp hkeep => exact .inl (reframes_popFrame w _).classes
  | enter hi hb ho => exact .inl (reframes_putInstance w _ _).classes
  | leave hf hkeep hi hb =>
    exact .inl ((reframes_putInstance _ _ _).classes.trans (reframes_popFrame w _).classes)
  | newInstance spec hc => exact .inl (sameClasses_spawn w _ spec).classes
  | newFunction hf => exact .inl (reframes_newFunction w _).classes
  | update hi hj hnew => exact .inl (reframes_putInstance w _ _).classes
  | defineGlobal name hv => exact .inl rfl
  | retarget ht => exact .inl rfl
  | background hw => exact .inl hw.classes
  | staff hcore hruntime => exact .inl rfl
  | assign i hv => exact .inl (reframes_assign w i _).classes

theorem Steps.registrations (h : Steps w w') (hw : ∃ log, Registrations log w.classes) :
    ∃ log, Registrations log w'.classes := by
  refine h.invariant (P := fun w => ∃ log, Registrations log w.classes) ?_ hw
  rintro w w' ⟨log, hlog⟩ hstep
  rcases hstep.classes_cases with hsame | ⟨d, c, hsuper, hr⟩
  · exact ⟨log, hsame ▸ hlog⟩
  · exact ⟨_, hlog.made hsuper hr⟩

end World

theorem World.classes_withPlaces (w : World) (n : Nat) : (w.withPlaces n).classes = w.classes := rfl

theorem State.Reachable.registrations {s : State} (h : s.Reachable) :
    ∃ log, Registrations log s.world.classes := by
  have hblank : ∃ log, Registrations log World.blank.classes := ⟨[], .nil⟩
  induction h with
  | core places budget moves =>
    rw [classes_withPlaces]
    exact steps_initial.1.registrations hblank
  | player o threads places budget moves =>
    rw [classes_withPlaces]
    exact (steps_ofOptions o threads).1.registrations hblank
  | embed h depth p budget moves ih =>
    obtain ⟨hs, hst⟩ := h.sound
    exact (steps_embed hs hst depth p).registrations ih

end ScriptPlayer
