import ScriptPlayer.Proofs.World.Chain

/-! The globals of a world. A registration binds the name of its class to the class, and nothing but
a definition of that very name ever binds it to something else. -/
namespace ScriptPlayer

namespace ClassTable

variable {t t' : ClassTable}

theorem nameOf_of_extends (h : t.classes <+: t'.classes) {c : ClassId} (hc : c < t.size) :
    t'.nameOf c = t.nameOf c := by
  rw [nameOf, get?_of_extends h hc, ← nameOf]

theorem name_ne_of_find?_eq_none {name : QName} (h : t.find? name = none) {c : ClassId}
    (hc : c < t.size) : t.nameOf c ≠ name := by
  have hget : t.get? c = some t.classes[c] := List.getElem?_eq_getElem hc
  rw [nameOf, hget]
  simpa using List.findIdx?_eq_none_iff.1 h _ (List.getElem_mem hc)

end ClassTable

namespace World

variable {w w' : World} {c : ClassId}

theorem Step.globals_cases (h : Step w w') : w'.globals = w.globals ∨
    (∃ name v, w' = w.defineGlobal name v) ∨ ∃ d c, w.registerClass d = .ok (c, w') := by
  cases h with
  | defineGlobal name hv => exact Or.inr (Or.inl ⟨name, _, rfl⟩)
  | registerClass hreg hsuper hd => exact Or.inr (Or.inr ⟨_, _, hreg⟩)
  | hold hv => exact Or.inl (reframes_hold w _).globals
  | letGo v => exact Or.inl (reframes_letGo w v).globals
  | push hp => exact Or.inl rfl
  | pop hf hp hkeep => exact Or.inl (reframes_popFrame w _).globals
  | enter hi hb ho => exact Or.inl (reframes_putInstance w _ _).globals
  | leave hf hkeep hi hb =>
    exact Or.inl ((reframes_putInstance _ _ _).globals.trans (reframes_popFrame w _).globals)
  | newInstance spec hc =>
    refine Or.inl ?_
    have hbacking : (w.newBacking spec).2.globals = w.globals := by cases spec <;> rfl
    exact (reframes_newInstance _ _).globals.trans hbacking
  | newFunction hf => exact Or.inl (reframes_newFunction w _).globals
  | update hi hj hnew => exact Or.inl (reframes_putInstance w _ _).globals
  | retarget ht => exact Or.inl rfl
  | background hw => exact Or.inl hw.globals
  | staff hcore hruntime => exact Or.inl rfl
  | assign i hv => exact Or.inl (reframes_assign w i _).globals

theorem globals_registerClass {d : ClassDecl} (h : w.registerClass d = .ok (c, w')) :
    w'.globals = (w.globals.insert d.name (.classRef c)).2 := by
  obtain ⟨-, rfl, rfl⟩ := registerClass_eq_ok h
  rfl

theorem Step.wellFormed_globals (h : Step w w') (hw : w.globals.WellFormed) :
    w'.globals.WellFormed := by
  rcases h.globals_cases with hsame | ⟨name, v, rfl⟩ | ⟨d, c, hreg⟩
  · rwa [hsame]
  · exact hw.insert name v
  · rw [globals_registerClass hreg]
    exact hw.insert _ _

theorem Steps.wellFormed_globals (h : Steps w w') (hw : w.globals.WellFormed) :
    w'.globals.WellFormed :=
  h.invariant (fun _ _ hw hstep => hstep.wellFormed_globals hw) hw

/-- The global under the name of a class is the class. -/
def IsBound (w : World) (c : ClassId) : Prop :=
  w.globals.get? (w.classes.nameOf c) = some (.classRef c)

theorem isBound_of_register (hw : w.globals.WellFormed) {d : ClassDecl}
    (h : w.registerClass d = .ok (c, w')) : w'.classes.nameOf c = d.name ∧ w'.IsBound c := by
  have hname : w'.classes.nameOf c = d.name := by
    obtain ⟨-, rfl, rfl⟩ := registerClass_eq_ok h
    simp [ClassTable.nameOf, ClassTable.get?, ClassTable.size, ClassTable.describe, defineGlobal,
      putGlobals]
  refine ⟨hname, ?_⟩
  rw [IsBound, hname, globals_registerClass h, hw.get?_insert, if_pos rfl]

theorem IsBound.step (hb : w.IsBound c) (hw : w.globals.WellFormed) (hc : c < w.classes.size)
    (h : Step w w') : w'.IsBound c ∨
      ∃ v, v ≠ .classRef c ∧ w' = w.defineGlobal (w.classes.nameOf c) v := by
  have hname := ClassTable.nameOf_of_extends h.later.classes hc
  unfold IsBound at hb ⊢
  rw [hname]
  rcases h.globals_cases with hsame | ⟨name, v, rfl⟩ | ⟨d, c', hreg⟩
  · exact Or.inl (hsame ▸ hb)
  · have hget := hw.get?_insert name (w.classes.nameOf c) v
    by_cases he : w.classes.nameOf c = name
    · rw [if_pos he] at hget
      by_cases hv : v = .classRef c
      · exact Or.inl (hv ▸ hget)
      · exact Or.inr ⟨v, hv, he ▸ rfl⟩
    · rw [if_neg he] at hget
      exact Or.inl (hget.trans hb)
  · obtain ⟨hfree, -, -⟩ := registerClass_eq_ok hreg
    have hne := ClassTable.name_ne_of_find?_eq_none hfree hc
    rw [globals_registerClass hreg, hw.get?_insert, if_neg hne]
    exact Or.inl hb

end World

end ScriptPlayer
