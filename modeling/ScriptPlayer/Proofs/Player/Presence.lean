import ScriptPlayer.Proofs.Player.Session
import ScriptPlayer.Proofs.Run.Places
import ScriptPlayer.Proofs.Run.Replies

/-! Asking an instance whether it has a property, beside reading the property. The two agree but
where only setters have the name: such a property is there, and a read of it finds nothing. -/
namespace ScriptPlayer

open Run

namespace Instance

variable {t : ClassTable} {i : Instance} {key : Key}

def HasTrait (t : ClassTable) (i : Instance) (name : QName) (trait : Trait) : Prop :=
  i.bound.get? name = some trait ∨ ∃ k ∈ t.chain i.cls, k.traits.get? name = some trait

/-- A key under which nothing is kept and whose traits can be written only. -/
def WriteOnly (t : ClassTable) (i : Instance) (key : Key) : Prop :=
  i.kept? key = none ∧ ∃ name, i.traitName? key = some name ∧
    (∃ trait, i.HasTrait t name trait) ∧
    ∀ trait, i.HasTrait t name trait → trait.getter = none ∧ trait.method = none

theorem hasTrait_iff {name : QName} : i.hasTrait t name ↔ ∃ trait, i.HasTrait t name trait := by
  simp only [hasTrait, HasTrait, TraitTable.contains, ClassTable.declares, Bool.or_eq_true,
    List.any_eq_true, Option.isSome_iff_exists, exists_or]
  refine or_congr_right ⟨?_, ?_⟩
  · rintro ⟨k, hk, trait, htrait⟩
    exact ⟨trait, k, hk, htrait⟩
  · rintro ⟨trait, k, hk, htrait⟩
    exact ⟨k, hk, trait, htrait⟩

/-- No trait of a name can be read if and only if none has a getter or a method. -/
theorem readableTrait_eq_none_iff {name : QName} : i.readableTrait t name = none ↔
    ∀ trait, i.HasTrait t name trait → trait.getter = none ∧ trait.method = none := by
  have hunreadable : ∀ trait : Trait,
      trait.isReadable = false ↔ trait.getter = none ∧ trait.method = none := by
    intro trait
    simp [Trait.isReadable]
  have hbound : (i.bound.get? name).filter Trait.isReadable = none ↔
      ∀ trait, i.bound.get? name = some trait → trait.isReadable = false := by
    cases i.bound.get? name <;> simp [Option.filter]
  have hchain : t.findReadable i.cls name = none ↔ ∀ k ∈ t.chain i.cls,
      ∀ trait, k.traits.get? name = some trait → trait.isReadable = false := by
    unfold ClassTable.findReadable ClassTable.findTrait
    rw [List.findSome?_eq_none_iff]
    refine forall₂_congr fun k _ => ?_
    cases k.traits.get? name <;> simp [Option.filter]
  have hor : i.readableTrait t name =
      ((i.bound.get? name).filter Trait.isReadable).or (t.findReadable i.cls name) := by
    unfold readableTrait
    cases (i.bound.get? name).filter Trait.isReadable <;> rfl
  rw [hor, Option.or_eq_none_iff, hbound, hchain]
  simp only [← hunreadable, HasTrait]
  constructor
  · rintro ⟨hb, hc⟩ trait (h | ⟨k, hk, h⟩)
    · exact hb trait h
    · exact hc k hk trait h
  · exact fun h => ⟨fun trait ht => h trait (Or.inl ht),
      fun k hk trait ht => h trait (Or.inr ⟨k, hk, ht⟩)⟩

theorem writeOnly_iff : i.WriteOnly t key ↔ i.kept? key = none ∧
    ∃ name, i.traitName? key = some name ∧ i.hasTrait t name ∧ i.readableTrait t name = none := by
  simp only [WriteOnly, hasTrait_iff, readableTrait_eq_none_iff]

/-- What is read is there, and what is there is read, unless it can be written only. -/
theorem WellFormed.has_iff (hi : i.WellFormed) (hk : i.takes key) :
    i.has t key ↔ (∃ found, i.read t key = .ok found ∧ found ≠ .absent) ∨ i.WriteOnly t key := by
  rw [hi.has_eq, Bool.or_eq_true, writeOnly_iff]
  cases hkept : i.kept? key with
  | some v =>
    have hread := read_of_kept (t := t) hk hkept
    simp [hread]
  | none =>
    cases hname : i.traitName? key with
    | none =>
      have hnothing := read_of_nothing (t := t) hkept hname
      simpa [hname] using hnothing
    | some name =>
      have hread := read_of_trait (t := t) hi hk hkept hname
      have hanswer : i.traitAnswer t name = .absent ↔ i.readableTrait t name = none :=
        traitAnswer_eq_absent_iff
      have hreadable : i.readableTrait t name ≠ none → i.hasTrait t name := by
        intro h
        by_contra htrait
        exact h (traits_of_not_hasTrait (Bool.eq_false_iff.2 htrait)).1
      by_cases h : i.readableTrait t name = none
      · simp [hread, h, hanswer.2 h]
      · have hfound : i.traitAnswer t name ≠ .absent := fun ha => h (hanswer.1 ha)
        simp [hread, hfound, hreadable h]

theorem WellFormed.read_of_writeOnly (hi : i.WellFormed) (hk : i.takes key)
    (h : i.WriteOnly t key) : i.read t key = .ok .absent := by
  obtain ⟨hkept, name, hname, -, hunreadable⟩ := writeOnly_iff.1 h
  rw [read_of_trait hi hk hkept hname, traitAnswer_eq_absent_iff.2 hunreadable]

end Instance

/-- A read finds something: it returns a value, or it calls a getter for what it returns. -/
def Run.GetFinds (call : Caller) (s : State) (o : ObjectId) (i : Instance) (key : Key) : Prop :=
  (∃ v s', perform call (.get o key) s = .ok (Except.ok (some v)) s') ∨
    ∃ f, i.read s.world.classes key = .ok (.getter f) ∧
      perform call (.get o key) s = closing (.get o key)
        (attempt (call f o [] >>= fun v => pure (some v)) (opened s (Op.get o key).operands))

namespace Run

variable {call : Caller} {s : State} {o : ObjectId} {i : Instance} {key : Key}

theorem getFinds_iff (hs : s.world.Sound) (hb : 0 < s.budget)
    (hi : s.world.instance? o = some i) (hint : i.Unintercepted s.world.classes)
    (hkey : ∀ v ∈ key.handles, s.world.isValid v) : GetFinds call s o i key ↔
      ∃ found, i.read s.world.classes key = .ok found ∧ found ≠ .absent := by
  have hrun := perform_get call hb hi hint hkey
  constructor
  · rintro (⟨v, s', h⟩ | ⟨f, hf, -⟩)
    · rw [hrun] at h
      cases hread : i.read s.world.classes key with
      | error e =>
        rw [hread] at h
        cases e <;> cases h
      | ok found =>
        refine ⟨found, rfl, ?_⟩
        rintro rfl
        rw [hread] at h
        cases h
    · exact ⟨_, hf, nofun⟩
  · rintro ⟨found, hread, hfound⟩
    cases found with
    | value v =>
      have hfinds : Op.Finds s.world (.get o key) (Except.ok (some v)) := .get hi hint hread
      obtain ⟨s', h, -⟩ := perform_finds_contents call hs hb (isValid_operands hi hkey) hfinds
      exact Or.inl ⟨v, s', h⟩
    | getter f =>
      rw [hread] at hrun
      exact Or.inr ⟨f, hread, hrun⟩
    | absent => exact absurd rfl hfound

end Run

/-- How asking for a property compares with reading it, on an instance whose reads nothing
intercepts. -/
structure Presence (call : Caller) (s : State) (o : ObjectId) (i : Instance) : Prop where
  has_iff : ∀ key, (∀ v ∈ key.handles, s.world.isValid v) → i.takes key →
    (i.has s.world.classes key ↔
      GetFinds call s o i key ∨ i.WriteOnly s.world.classes key)
  /-- a read of what can only be written finds nothing -/
  writeOnly : ∀ key, (∀ v ∈ key.handles, s.world.isValid v) → i.takes key →
    i.WriteOnly s.world.classes key → ¬ GetFinds call s o i key ∧
      ∃ s', perform call (.get o key) s = .ok (Except.ok none) s'
  /-- nothing is found where nothing is, whatever the key -/
  absent : ∀ key, (∀ v ∈ key.handles, s.world.isValid v) → i.has s.world.classes key = false →
    ¬ GetFinds call s o i key
  /-- an index of no use is fatal -/
  unindexed : ∀ key, i.takes key = false → ∃ s', perform call (.get o key) s =
    .error (.abort (.notIndexable (i.className s.world.classes))) s'

variable {s : State} {o : ObjectId} {i : Instance}

theorem State.Reachable.presence (h : s.Reachable) (depth : Nat) (hb : 0 < s.budget)
    (hi : s.world.instance? o = some i) (hint : i.Unintercepted s.world.classes) :
    Presence (callFunction depth) s o i := by
  obtain ⟨hs, -⟩ := h.sound
  have hwf := hs.wellFormed hi
  constructor
  case has_iff =>
    intro key hkey hk
    rw [getFinds_iff hs hb hi hint hkey]
    exact hwf.has_iff hk
  case writeOnly =>
    intro key hkey hk hw
    have hread := hwf.read_of_writeOnly hk hw
    refine ⟨?_, ?_⟩
    · rw [getFinds_iff hs hb hi hint hkey, hread]
      rintro ⟨found, hfound, hne⟩
      exact hne (Except.ok.inj hfound).symm
    · have hfinds : Op.Finds s.world (.get o key) (Except.ok none) := .getNothing hi hint hread
      obtain ⟨s', hrun, -⟩ := perform_finds_contents (callFunction depth) hs hb
        (isValid_operands hi hkey) hfinds
      exact ⟨s', hrun⟩
  case absent =>
    intro key hkey hhas
    rw [getFinds_iff hs hb hi hint hkey]
    cases hk : i.takes key with
    | true =>
      intro hfound
      have htrue := (hwf.has_iff hk).2 (Or.inl hfound)
      rw [hhas] at htrue
      cases htrue
    | false =>
      rw [Instance.read_of_not_takes hk]
      rintro ⟨found, hfound, -⟩
      cases hfound
  case unindexed =>
    intro key hk
    have hkey : ∀ v ∈ key.handles, s.world.isValid v := by
      rw [Instance.handles_of_not_takes hk]
      exact fun v hv => absurd hv List.not_mem_nil
    have hrun := perform_get (callFunction depth) hb hi hint hkey
    rw [Instance.read_of_not_takes hk] at hrun
    exact ⟨_, hrun⟩

def writeOnlyName : Session :=
  .ask (.enter fun _ _ _ => .done .undefined) fun code =>
  .ask (.perform .newObject) fun o =>
  .ask (.assign 0 (.object o)) fun _ =>
  .ask (.perform (.newFunction "x" [] (.script code))) fun f =>
  .ask (.perform (.bind o .setter (QName.pub "x") f)) fun _ =>
  .ask (.perform (.set o (Key.pub "7") .undefined)) fun _ => .done

/-- The object has the name that can be written only, and a read of it finds nothing. It also
answers to the index whose text is the name of the slot, and a read of that index is fatal. -/
theorem writeOnly_there_unread :
    let start : State := ⟨World.initial.withPlaces 1, [], 9, []⟩
    let s : State := { start.afterRun (embed 1 writeOnlyName) with budget := 9, interference := [] }
    ∃ i, s.Reachable ∧ s.world.instance? 4 = some i ∧ i.Unintercepted s.world.classes ∧
      i.has s.world.classes (Key.pub "x") ∧
      ¬ GetFinds (callFunction 1) s 4 i (Key.pub "x") ∧
      (∃ s', perform (callFunction 1) (.get 4 (Key.pub "x")) s = .ok (Except.ok none) s') ∧
      i.has s.world.classes (Key.index 7) ∧
      ∃ c s', perform (callFunction 1) (.get 4 (Key.index 7)) s =
        .error (.abort (.notIndexable c)) s' := by
  intro start s
  have h : s.Reachable := .embed (.core 1 9 []) 1 writeOnlyName 9 []
  obtain ⟨i, hi⟩ := Option.isSome_iff_exists.1 (by decide +kernel : (s.world.instance? 4).isSome)
  have hfacts : (s.world.instance? 4).all fun i => i.backing.kind == .plain &&
      (i.slots.get? (QName.pub "x")).isNone && i.hasTrait s.world.classes (QName.pub "x") &&
      (i.readableTrait s.world.classes (QName.pub "x")).isNone &&
      i.has s.world.classes (Key.index 7) := by decide +kernel
  rw [hi, Option.all_some] at hfacts
  simp only [Bool.and_eq_true, beq_iff_eq, Option.isNone_iff_eq_none] at hfacts
  obtain ⟨⟨⟨⟨hplain, hslot⟩, htrait⟩, hread⟩, hindex⟩ := hfacts
  have hwf := h.sound.1.wellFormed hi
  have hint : i.Unintercepted s.world.classes :=
    Instance.unintercepted_of_kind (by rw [hplain]; decide)
  have htakes : i.takes (Key.pub "x") := by simp [Instance.takes, hplain, Key.pub, Key.qualified]
  have hwrite : i.WriteOnly s.world.classes (Key.pub "x") := by
    have hname : i.traitName? (Key.pub "x") = some (QName.pub "x") := by
      simp [Instance.traitName?, hplain, Key.text?, Key.pub, Key.qualified, QName.pub]
    have hplace : i.place? (Key.pub "x") = some (.slot (QName.pub "x")) := by
      simp [Instance.place?, hplain, Key.text?, Key.pub, Key.qualified, QName.pub]
    have hkept : i.kept? (Key.pub "x") = none := by
      rw [Instance.kept?, hplace]
      exact hslot
    exact Instance.writeOnly_iff.2 ⟨hkept, _, hname, htrait, hread⟩
  have habsent := hwf.read_of_writeOnly htakes hwrite
  have hkeys : ∀ v ∈ (Key.pub "x").handles, s.world.isValid v := fun v hv => nomatch hv
  have hfinds : Op.Finds s.world (.get 4 (Key.pub "x")) (Except.ok none) :=
    .getNothing hi hint habsent
  obtain ⟨s', hrun, -⟩ := perform_finds_contents (callFunction 1) h.sound.1 (by decide)
    (isValid_operands hi hkeys) hfinds
  have hgets := perform_get (callFunction 1) (by decide) hi hint
    (fun v hv => nomatch hv : ∀ v ∈ (Key.index 7).handles, s.world.isValid v)
  have hfatal : i.takes (Key.index 7) = false := by simp [Instance.takes, hplain, Key.index]
  rw [Instance.read_of_not_takes hfatal] at hgets
  refine ⟨i, h, hi, hint, (hwf.has_iff htakes).2 (Or.inr hwrite), ?_, ⟨s', hrun⟩, hindex,
    _, _, hgets⟩
  rw [getFinds_iff h.sound.1 (by decide) hi hint hkeys, habsent]
  rintro ⟨found, hfound, hne⟩
  exact hne (Except.ok.inj hfound).symm

theorem presence_writeOnlyName :
    let start : State := ⟨World.initial.withPlaces 1, [], 9, []⟩
    let s : State := { start.afterRun (embed 1 writeOnlyName) with budget := 9, interference := [] }
    ∃ i, s.Reachable ∧ 0 < s.budget ∧ s.world.instance? 4 = some i ∧
      i.Unintercepted s.world.classes ∧ i.has s.world.classes (Key.pub "7") ∧
      i.has s.world.classes (Key.pub "x") ∧ Presence (callFunction 1) s 4 i := by
  intro start s
  have h : s.Reachable := .embed (.core 1 9 []) 1 writeOnlyName 9 []
  obtain ⟨i, hi⟩ := Option.isSome_iff_exists.1 (by decide +kernel : (s.world.instance? 4).isSome)
  have hfacts : (s.world.instance? 4).all fun i => i.backing.kind == .plain &&
      i.has s.world.classes (Key.pub "7") && i.has s.world.classes (Key.pub "x") := by
    decide +kernel
  rw [hi, Option.all_some] at hfacts
  simp only [Bool.and_eq_true, beq_iff_eq] at hfacts
  obtain ⟨⟨hplain, hslot⟩, hname⟩ := hfacts
  have hint : i.Unintercepted s.world.classes :=
    Instance.unintercepted_of_kind (by rw [hplain]; decide)
  exact ⟨i, h, by decide, hi, hint, hslot, hname,
    State.Reachable.presence h 1 (by decide) hi hint⟩

end ScriptPlayer
