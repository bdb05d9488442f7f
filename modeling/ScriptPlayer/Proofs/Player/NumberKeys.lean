import ScriptPlayer.Proofs.Player.IndexText
import ScriptPlayer.Proofs.Run.Enumeration
import ScriptPlayer.Proofs.Value.NumberKeys

/-! Numbers as keys of a dictionary. What is stored under a number is found under the numbers that
name the same entry, and what there is under any other number stays as it was. -/
namespace ScriptPlayer

open World Run

/-- What there is under a key after a store is what there was before it. -/
structure Untouched (call : Caller) (s s' : State) (o : ObjectId) (i j : Instance) (key : Key) :
    Prop where
  kept : j.kept? key = i.kept? key
  /-- whether it finds an entry or a trait or nothing, a read ends where it would have ended -/
  read : j.read s'.world.classes key = i.read s.world.classes key
  get : ∀ v, i.kept? key = some v →
    ∃ s'', perform call (.get o key) s' = .ok (Except.ok (some v)) s''

/-- What two keys of a dictionary have to do with each other. -/
structure EntryKeys (call : Caller) (s : State) (o : ObjectId) (i : Instance) (a b : Key)
    (shared : Prop) : Prop where
  place : i.place? a = i.place? b ↔ shared
  /-- a value that is stored under the first key is found under the second only if they name one
  entry -/
  set : ∀ v, 1 < s.budget → s.world.isValid v →
    ∃ s', perform call (.set o a v) s = .ok (Except.ok ()) s' ∧
      (s.world.Holds (.object o) → ∃ j, s'.world.instance? o = some j) ∧
      ∀ j, s'.world.instance? o = some j →
        (∃ s'', perform call (.get o a) s' = .ok (Except.ok (some v)) s'') ∧
        (shared → ∃ s'', perform call (.get o b) s' = .ok (Except.ok (some v)) s'') ∧
        (¬shared → Untouched call s s' o i j b)

namespace Instance

variable {i : Instance} {d : Dictionary} {key : Key}

theorem readsIndexAsText_of_dictionary (hd : i.backing = .dictionary d) : i.readsIndexAsText := by
  rw [readsIndexAsText, hd]

theorem write_of_dictionary (t : ClassTable) (hd : i.backing = .dictionary d) (key : Key)
    (v : Value) : i.write t key v =
      .ok (.stored { i with backing := .dictionary (d.set key.entry v).2 }) := by
  obtain ⟨ns, name, spelling⟩ := key
  cases name <;> simp [write, resolve, readsIndexAsText, hd, Key.indexSpelling?, Key.qualified,
    Key.entry, Dictionary.set]

theorem read_of_dictionary (t : ClassTable) (hd : i.backing = .dictionary d) {name : QName}
    (hname : key.text? = some name) : i.read t key =
      .ok (match i.kept? key with
        | some v => .value v
        | none => i.lookup t name) := by
  rw [kept?_of_dictionary hd]
  obtain ⟨ns, kname, spelling⟩ := key
  cases kname with
  | identity o => cases hname
  | _ =>
    obtain rfl := Option.some.inj hname
    simp [read, resolve, readsIndexAsText, hd, Key.indexSpelling?, Key.qualified, content?,
      Key.entry, Dictionary.get?]
    split <;> simp_all

theorem handles_of_text? {name : QName} (h : key.text? = some name) : key.handles = [] := by
  obtain ⟨ns, kname, spelling⟩ := key
  cases kname with
  | identity o => cases h
  | _ => rfl

end Instance

namespace Run

variable {call : Caller} {s s' : State} {o : ObjectId} {i j : Instance} {d : Dictionary}
  {a b : Key} {name name' : QName} {v : Value}

theorem perform_set_of_dictionary (call : Caller) (hs : s.world.Sound) (hb : 0 < s.budget)
    (hi : s.world.instance? o = some i) (hd : i.backing = .dictionary d)
    (ha : a.text? = some name) (hv : s.world.isValid v) :
    ∃ s', perform call (.set o a v) s = .ok (Except.ok ()) s' ∧ s'.budget = s.budget - 1 ∧
      s'.world.classes = s.world.classes ∧ ∀ j, s'.world.instance? o = some j →
        j = { i with backing := .dictionary (d.set a.entry v).2 } := by
  have hstores : Op.Stores s.world (.set o a v) (Except.ok ()) o _ (i.stored a) (i.taken a v) :=
    .set hi (Instance.write_of_dictionary _ hd a v)
  have hops := isValid_written hi (Instance.handles_of_text? ha) hv
  refine ⟨_, perform_stores_run hs hb hops hstores, rfl, ?_, fun j hj => ?_⟩
  · exact (reframes_popFrame _ _).classes.trans
      ((reframes_putInstance _ _ _).classes.trans (sameClasses_opened s _).classes)
  · exact instance?_of_fades hi (fades_exchange hi _ _ _) hj

theorem entryKeys_of_text (hcall : Calls call) (hs : s.world.Sound) (hst : s.world.Staffed)
    (hi : s.world.instance? o = some i) (hd : i.backing = .dictionary d)
    (ha : a.text? = some name) (hb : b.text? = some name') :
    EntryKeys call s o i a b (a.entry = b.entry) := by
  have hplace : ∀ key, i.place? key = some (.entry key.entry) := Instance.place?_of_dictionary hd
  refine ⟨by simp [hplace], fun v hbudget hv => ?_⟩
  obtain ⟨s', hrun, hbudget', hclasses, hstored⟩ :=
    perform_set_of_dictionary call hs (Nat.lt_of_succ_lt hbudget) hi hd ha hv
  refine ⟨s', hrun, fun ho => (exists_instance_of_perform hcall hs hst ho rfl hrun).2.2.2.2,
    fun j hj => ?_⟩
  have hs' := ((ends_perform hcall hs hst (.set o a v)).of_ok hrun).1.sound hs
  have hset : ∀ f, i.write s.world.classes a v ≠ .ok (.setter f) := fun f => by
    rw [Instance.write_of_dictionary _ hd]
    exact nofun
  have hkept : ∀ key, j.kept? key = if key.entry = a.entry then some v else i.kept? key := by
    intro key
    have hkept := kept?_of_set hs hi (Instance.readsIndexAsText_of_dictionary hd) hset hrun hj key
    simpa [hplace] using hkept
  have hj' := hstored j hj
  have hd' : j.backing = .dictionary (d.set a.entry v).2 := by rw [hj']
  have hget : ∀ {key name u}, key.text? = some name → j.kept? key = some u →
      ∃ s'', perform call (.get o key) s' = .ok (Except.ok (some u)) s'' := by
    intro key name u hkey hu
    refine get_of_kept call hs' (by omega) hj (Instance.readsIndexAsText_of_dictionary hd') ?_
      (Instance.unintercepted_of_kind (by simp [hd', Backing.kind])) hu
    rw [Instance.handles_of_text? hkey]
    exact nofun
  refine ⟨hget ha (by rw [hkept, if_pos rfl]), fun hshared => hget hb ?_, fun happart => ?_⟩
  · rw [hkept, if_pos hshared.symm]
  · have hsame : j.kept? b = i.kept? b := by rw [hkept, if_neg (Ne.symm happart)]
    refine ⟨hsame, ?_, fun u hu => hget hb (hsame.trans hu)⟩
    rw [hclasses, Instance.read_of_dictionary _ hd' hb, Instance.read_of_dictionary _ hd hb, hsame,
      hj']
    rfl

end Run

/-- Two numbers name one entry of a dictionary if and only if they are equal or saturate alike. -/
theorem State.Reachable.entryKeys {s : State} (h : s.Reachable) (depth : Nat) {o : ObjectId}
    {i : Instance} {d : Dictionary} (hi : s.world.instance? o = some i)
    (hd : i.backing = .dictionary d) {a b : Value} (ha : a.isFiniteNumber) (hb : b.isFiniteNumber)
    (ns ns' : String) :
    EntryKeys (callFunction depth) s o i (Key.classifyValue s.world.naming a ns)
      (Key.classifyValue s.world.naming b ns')
      (a.strictEq b ∨ a.toNumber.Saturate b.toNumber) := by
  obtain ⟨hs, hst⟩ := h.sound
  obtain ⟨name, hname⟩ :=
    Key.text?_classifyValue s.world.naming ns (Key.ne_object_of_isFiniteNumber ha)
  obtain ⟨name', hname'⟩ :=
    Key.text?_classifyValue s.world.naming ns' (Key.ne_object_of_isFiniteNumber hb)
  rw [← Key.entry_eq_iff ha hb]
  exact entryKeys_of_text (calls_callFunction depth) hs hst hi hd hname hname'

def numberEntry (x : Binary64) : Session :=
  .ask (.perform .look) fun w =>
  .ask (.perform (.instantiate w.core.dictionary none)) fun o =>
  .ask (.assign 0 (.object o)) fun _ =>
  .ask (.perform (.set o (Key.classifyValue w.naming (.number x) "") (.int 1))) fun _ => .done

theorem Instance.exists_dictionary {i : Instance} (h : i.dictionary.isOk) :
    ∃ d, i.backing = .dictionary d := by
  unfold dictionary at h
  split at h
  · exact ⟨_, ‹_›⟩
  · cases h

theorem entryKeys_numberEntry :
    let start : State := ⟨World.initial.withPlaces 1, [], 9, []⟩
    let a : Value := .number (.ofNat 0x8000_0000_0000_0000)
    let b : Value := .number (.ofNat 0x4000_0000_0000_0000)
    let s : State := { start.afterRun (embed 1 (numberEntry (.ofNat 0x8000_0000_0000_0000))) with
      budget := 9, interference := [] }
    ∃ i d, s.Reachable ∧ s.world.instance? 4 = some i ∧ i.backing = .dictionary d ∧
      a.isFiniteNumber ∧ b.isFiniteNumber ∧ EntryKeys (callFunction 1) s 4 i
        (Key.classifyValue s.world.naming a "") (Key.classifyValue s.world.naming b "")
        (a.strictEq b ∨ a.toNumber.Saturate b.toNumber) := by
  intro start a b s
  have h : s.Reachable := .embed (.core 1 9 []) 1 (numberEntry _) 9 []
  obtain ⟨i, hi⟩ := Option.isSome_iff_exists.1 (by decide +kernel : (s.world.instance? 4).isSome)
  have hdict : (s.world.instance? 4).all fun i => i.dictionary.isOk := by decide +kernel
  rw [hi, Option.all_some] at hdict
  obtain ⟨d, hd⟩ := Instance.exists_dictionary hdict
  have ha : a.isFiniteNumber := by decide +kernel
  have hb : b.isFiniteNumber := by decide +kernel
  exact ⟨i, d, h, hi, hd, ha, hb, State.Reachable.entryKeys h 1 hi hd ha hb "" ""⟩

/-- Two numbers that are both too large: what was stored under the one is found under the other. -/
theorem foundUnderAnother_numberEntry :
    let start : State := ⟨World.initial.withPlaces 1, [], 9, []⟩
    let a : Value := .number (.ofNat 0x8000_0000_0000_0000)
    let b : Value := .number (.ofNat 0x1_0000_0000_0000_0000)
    let s : State := { start.afterRun (embed 1 (numberEntry (.ofNat 0x8000_0000_0000_0000))) with
      budget := 9, interference := [] }
    ∃ i s', s.Reachable ∧ s.world.instance? 4 = some i ∧ i.dictionary.isOk ∧
      a.isFiniteNumber ∧ b.isFiniteNumber ∧ a.strictEq b = false ∧
      i.kept? (Key.classifyValue s.world.naming a "") = some (.int 1) ∧
      perform (callFunction 1) (.get 4 (Key.classifyValue s.world.naming b "")) s =
        .ok (Except.ok (some (.int 1))) s' := by
  intro start a b s
  have h : s.Reachable := .embed (.core 1 9 []) 1 (numberEntry _) 9 []
  obtain ⟨i, hi⟩ := Option.isSome_iff_exists.1 (by decide +kernel : (s.world.instance? 4).isSome)
  have hfacts : (s.world.instance? 4).all fun i => i.dictionary.isOk &&
      i.kept? (Key.classifyValue s.world.naming a "") == some (.int 1) &&
      i.kept? (Key.classifyValue s.world.naming b "") == some (.int 1) := by decide +kernel
  rw [hi, Option.all_some] at hfacts
  simp only [Bool.and_eq_true, beq_iff_eq] at hfacts
  obtain ⟨⟨hdict, hkept⟩, hkept'⟩ := hfacts
  obtain ⟨d, hd⟩ := Instance.exists_dictionary hdict
  have hb : b.isFiniteNumber := by decide +kernel
  obtain ⟨name, hname⟩ :=
    Key.text?_classifyValue s.world.naming "" (Key.ne_object_of_isFiniteNumber hb)
  obtain ⟨s', hget⟩ := get_of_kept (callFunction 1) h.sound.1 (by decide) hi
    (Instance.readsIndexAsText_of_dictionary hd)
    (by rw [Instance.handles_of_text? hname]; exact nofun)
    (Instance.unintercepted_of_kind (by simp [hd, Backing.kind])) hkept'
  exact ⟨i, s', h, hi, hdict, by decide +kernel, hb, by decide +kernel, hkept, hget⟩

end ScriptPlayer
