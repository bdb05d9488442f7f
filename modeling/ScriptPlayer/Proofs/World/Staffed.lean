import ScriptPlayer.Proofs.World.Lifetime

/-! The classes that are in use are registered: superclasses before the classes below them, the
class of every instance, and the classes that the player itself makes instances of. -/
namespace ScriptPlayer

def ClassTable.WellFormed (t : ClassTable) : Prop :=
  ∀ c k s, t.get? c = some k → k.superclass = some s → s < c

theorem ClassTable.WellFormed.register {t : ClassTable} (ht : t.WellFormed) {d : ClassDecl}
    (hsuper : ∀ s, d.superclass = some s → s < t.size) :
    ClassTable.WellFormed ⟨t.classes ++ [t.describe d]⟩ := by
  intro c k s hk hs
  have hk : (t.classes ++ [t.describe d])[c]? = some k := hk
  rw [List.getElem?_append] at hk
  split at hk
  · exact ht c k s hk hs
  · rename_i hc
    rw [List.getElem?_singleton] at hk
    split at hk
    · obtain rfl := Option.some.inj hk
      exact Nat.lt_of_lt_of_le (hsuper s hs) (Nat.le_of_not_lt hc)
    · exact absurd hk (by simp)

namespace World

/-- The hierarchy is well-formed and the class of every instance is registered. -/
structure Registered (w : World) : Prop where
  classes : w.classes.WellFormed
  instances : ∀ o i, w.instance? o = some i → i.cls < w.classes.size

/-- Besides, the classes that the player makes instances of are registered. -/
structure Staffed (w : World) : Prop extends Registered w where
  object : w.core.object < w.classes.size
  event : ∀ r, w.runtime = some r → r.event < w.classes.size

variable {w w' : World}

theorem Registered.of_later (hr : w.Registered) (hl : w.Later w')
    (hclasses : w'.classes.WellFormed)
    (hnew : ∀ o i, w.heap.cells.length ≤ o → w'.instance? o = some i → i.cls < w'.classes.size) :
    w'.Registered where
  classes := hclasses
  instances o i hi := by
    rcases Nat.lt_or_ge o w.heap.cells.length with hlt | hge
    · obtain ⟨x, hx, hsame⟩ := hl.content o _ hlt (Heap.instance?_eq_some_iff.1 hi)
      cases hsame with
      | @instanceOf j _ hc hb =>
        rw [hc]
        exact Nat.lt_of_lt_of_le (hr.instances o j (Heap.instance?_eq_some_iff.2 hx)) hl.size_le
    · exact hnew o i hge hi

theorem Registered.of_fades (hr : w.Registered) (hf : w.heap.Fades w'.heap)
    (hclasses : w'.classes = w.classes) : w'.Registered :=
  hr.of_later (later_of_fades hf hclasses) (hclasses ▸ hr.classes) fun o i ho hi => by
    have hnone := instance?_eq_none_of_length_le ho
    rw [instance?, hf.instance? hi] at hnone
    exact absurd hnone (by simp)

theorem Registered.putInstance (hr : w.Registered) {o : ObjectId} {i : Instance} (j : Instance)
    (hi : w.instance? o = some i) (hj : Content.SameBody (.instanceOf i) (.instanceOf j)) :
    (w.putInstance o j).Registered := by
  refine hr.of_later (later_putInstance hi hj)
    ((reframes_putInstance w o j).classes.symm ▸ hr.classes) fun o' i' ho' hi' => ?_
  have hnone : (w.putInstance o j).instance? o' = none := by
    apply instance?_eq_none_of_length_le
    rw [length_cells_putInstance]
    exact ho'
  exact absurd (hi'.symm.trans hnone) (by simp)

theorem Step.registered (h : Step w w') (hr : w.Registered) : w'.Registered := by
  cases h with
  | hold hv => exact hr.of_fades (fades_hold w _) (reframes_hold w _).classes
  | letGo v => exact hr.of_fades (fades_letGo w v) (reframes_letGo w v).classes
  | push hp => exact hr.of_fades (Heap.Fades.refl _) rfl
  | pop hf hp hkeep => exact hr.of_fades (fades_popFrame w _) (reframes_popFrame w _).classes
  | @enter o i hi hb ho =>
    have hk : BackingKind.proxy = i.backing.kind := congrArg Backing.kind hb.symm
    have h := hr.putInstance (i.withGuard true) hi (.instanceOf rfl hk)
    exact ⟨h.classes, h.instances⟩
  | @leave o i held rest keep hf hkeep hi hb =>
    have hk : BackingKind.proxy = i.backing.kind := congrArg Backing.kind hb.symm
    have h := hr.of_fades (fades_popFrame w keep) (reframes_popFrame w keep).classes
    exact h.putInstance (i.withGuard false) hi (.instanceOf rfl hk)
  | @newInstance cls spec hc =>
    have hclasses := (sameClasses_spawn w cls spec).classes
    refine hr.of_later ((sameOwners_newBacking w spec).later.trans (later_newInstance _ _))
      (hclasses.symm ▸ hr.classes) fun o i ho hi => ?_
    rw [hclasses]
    rcases instance?_spawn hi with hi | ⟨-, rfl⟩
    · rw [instance?_eq_none_of_length_le ho] at hi
      exact absurd hi (by simp)
    · exact hc
  | @newFunction fn hf =>
    refine hr.of_later (later_newFunction w fn)
      ((reframes_newFunction w fn).classes.symm ▸ hr.classes) fun o i ho hi => ?_
    have hi := instance?_newFunction hi
    rw [instance?_eq_none_of_length_le ho] at hi
    exact absurd hi (by simp)
  | update hi hj hnew => exact hr.putInstance _ hi hj.sameBody
  | defineGlobal name hv => exact hr.of_fades (fades_putGlobals w _) rfl
  | registerClass hreg hsuper hd =>
    have hl := (Step.registerClass hreg hsuper hd).later
    have hf := fades_registerClass hreg
    obtain ⟨-, -, rfl⟩ := registerClass_eq_ok hreg
    refine hr.of_later hl (hr.classes.register hsuper) fun o i ho hi => ?_
    have hnone := instance?_eq_none_of_length_le ho
    rw [instance?, hf.instance? hi] at hnone
    exact absurd hnone (by simp)
  | retarget ht => exact hr.of_fades (fades_putTargets w _) rfl
  | background hw => exact hr.of_fades (hw.heap ▸ Heap.Fades.refl _) hw.classes
  | staff hcore hruntime => exact ⟨hr.classes, hr.instances⟩
  | assign i hv => exact hr.of_fades (fades_assign w i _) (reframes_assign w i _).classes

/-- The classes of the player change where a set-up ends, and are registered then. -/
theorem Step.core_cases (h : Step w w') :
    (w'.core = w.core ∧ w'.runtime = w.runtime) ∨
      (w'.core.object < w'.classes.size ∧
        ∀ r, w'.runtime = some r → r.event < w'.classes.size) := by
  have hsame : w.SameClasses w' → w'.core = w.core ∧ w'.runtime = w.runtime :=
    fun h => ⟨h.core, h.runtime⟩
  cases h with
  | hold hv => exact Or.inl (hsame (reframes_hold w _).sameClasses)
  | letGo v => exact Or.inl (hsame (reframes_letGo w v).sameClasses)
  | push hp => exact Or.inl ⟨rfl, rfl⟩
  | pop hf hp hkeep => exact Or.inl (hsame (reframes_popFrame w _).sameClasses)
  | enter hi hb ho =>
    exact Or.inl (hsame ((reframes_putInstance w _ _).sameClasses.trans ⟨rfl, rfl, rfl⟩))
  | leave hf hkeep hi hb =>
    exact Or.inl (hsame ((reframes_popFrame w _).sameClasses.trans
      (reframes_putInstance _ _ _).sameClasses))
  | newInstance spec hc => exact Or.inl (hsame (sameClasses_spawn w _ spec))
  | newFunction hf => exact Or.inl (hsame (reframes_newFunction w _).sameClasses)
  | update hi hj hnew => exact Or.inl (hsame (reframes_putInstance w _ _).sameClasses)
  | defineGlobal name hv => exact Or.inl ⟨rfl, rfl⟩
  | registerClass hreg hsuper hd =>
    obtain ⟨-, -, rfl⟩ := registerClass_eq_ok hreg
    exact Or.inl ⟨rfl, rfl⟩
  | retarget ht => exact Or.inl ⟨rfl, rfl⟩
  | background hw => exact Or.inl (hsame hw.sameClasses)
  | staff hcore hruntime => exact Or.inr ⟨hcore, hruntime⟩
  | assign i hv => exact Or.inl (hsame (reframes_assign w i _).sameClasses)

theorem Step.staffed (h : Step w w') (hs : w.Staffed) : w'.Staffed := by
  have hr := h.registered hs.toRegistered
  have hsize := h.later.size_le
  rcases h.core_cases with ⟨hcore, hruntime⟩ | ⟨hobject, hevent⟩
  · refine ⟨hr, hcore ▸ Nat.lt_of_lt_of_le hs.object hsize, fun r hr => ?_⟩
    exact Nat.lt_of_lt_of_le (hs.event r (hruntime ▸ hr)) hsize
  · exact ⟨hr, hobject, hevent⟩

theorem Steps.registered (h : Steps w w') (hr : w.Registered) : w'.Registered :=
  h.invariant (fun _ _ hw hstep => hstep.registered hw) hr

theorem Steps.staffed (h : Steps w w') (hs : w.Staffed) : w'.Staffed :=
  h.invariant (fun _ _ hw hstep => hstep.staffed hw) hs

end World

end ScriptPlayer
