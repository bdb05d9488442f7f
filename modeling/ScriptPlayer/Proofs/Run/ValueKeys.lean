import ScriptPlayer.Player.Setup
import ScriptPlayer.Proofs.Run.TextKeys
import ScriptPlayer.Proofs.Text.NumberText

/-! Keys of values and keys of their texts. Whichever of the two a script goes by, it gets a key of
the same kind with the same text, and dictionaries and proxies do not tell the two apart. -/
namespace ScriptPlayer

open World Run

namespace Key

variable {names : Naming} {v : Value} {ns : String} {a b : Key}

structure Alike (names : Naming) (a b : Key) : Prop where
  ns : a.ns = b.ns
  /-- The kind, and with it the name, the number or the object. -/
  name : a.name = b.name
  indexSpelling? : a.indexSpelling? = b.indexSpelling?
  localName : a.localName names = b.localName names

/-- An access with one key comes to the same as the access with the other, on every object that
takes an index for its text. -/
structure Interchangeable (a b : Key) : Prop where
  get : ∀ call s o i, s.world.instance? o = some i → i.readsIndexAsText →
    perform call (.get o a) s = perform call (.get o b) s
  set : ∀ call s o i v, s.world.instance? o = some i → i.readsIndexAsText →
    perform call (.set o a v) s = perform call (.set o b v) s
  delete : ∀ call s o i, s.world.instance? o = some i → i.readsIndexAsText →
    perform call (.delete o a) s = perform call (.delete o b) s
  intercept : ∀ call s o, perform call (.intercept o a) s = perform call (.intercept o b) s
  has : ∀ (t : ClassTable) (i : Instance), i.readsIndexAsText → i.has t a = i.has t b

theorem interchangeable_of_asText (h : a.asText = b.asText) : Interchangeable a b where
  get call s o i hi ht := by
    rw [← perform_get_asText call hi ht a, h, perform_get_asText call hi ht]
  set call s o i v hi ht := by
    rw [← perform_set_asText call hi ht a, h, perform_set_asText call hi ht]
  delete call s o i hi ht := by
    rw [← perform_delete_asText call hi ht a, h, perform_delete_asText call hi ht]
  intercept call s o := by
    rw [← perform_intercept_asText call o a, h, perform_intercept_asText]
  has t i ht := by
    rw [← Instance.has_asText ht a, h, Instance.has_asText ht]

theorem classify_of_parseIndex? {raw : String} (h : parseIndex? raw = none) (ns : String) :
    classify raw ns = qualified raw ns := by
  rw [classify, h]

theorem classify_indexText (n : UInt32) (ns : String) :
    classify (indexText n) ns = ⟨ns, .index n, some (indexText n)⟩ := by
  rw [classify, parseIndex?_indexText]

theorem toText_of_nonneg {i : Int32} (h : 0 ≤ i.toInt) :
    (Value.int i).toText names = indexText i.toUInt32 := by
  have hsplit := BitVec.toInt_eq_toNat_cond i.toBitVec
  have hword : i.toInt = Int.ofNat i.toUInt32.toNat := by
    change 0 ≤ i.toBitVec.toInt at h
    change i.toBitVec.toInt = i.toBitVec.toNat
    omega
  rw [Value.toText, hword]
  rfl

theorem parseIndex?_of_neg {i : Int32} (h : ¬0 ≤ i.toInt) :
    parseIndex? ((Value.int i).toText names) = none := by
  rw [Value.toText, parseIndex?_toString, if_neg fun hin => h hin.1]

theorem classifyValue_cases (names : Naming) (ns : String) (h : ∀ o, v ≠ .object o) :
    classifyValue names v ns = classify (v.toText names) ns ∨
      ∃ n, classifyValue names v ns = ⟨ns, .index n, none⟩ ∧ v.toText names = indexText n := by
  have hnone : ∀ {text : String}, parseIndex? text = none →
      qualified text ns = classify text ns := fun h => (classify_of_parseIndex? h ns).symm
  cases v with
  | object o => exact absurd rfl (h o)
  | string s => exact Or.inl rfl
  | int i =>
    rw [classifyValue]
    split
    · exact Or.inr ⟨_, rfl, toText_of_nonneg ‹_›⟩
    · exact Or.inl (hnone (parseIndex?_of_neg ‹_›))
  | number x =>
    rw [classifyValue]
    split
    · exact Or.inr ⟨_, rfl, numberText_of_isIndexNumber ‹_›⟩
    · exact Or.inl (hnone (parseIndex?_numberText ‹_›))
  | undefined | null | function f => exact Or.inl (hnone (by simp only [Value.toText]; decide))
  | bool b => exact Or.inl (hnone (by cases b <;> simp only [Value.toText] <;> decide))
  | classRef c =>
    refine Or.inl (hnone (parseIndex?_of_not_isDigit (c := '[') ?_ (by decide)))
    simp [Value.toText]

/-- A value and its text lead to keys that nothing tells apart. -/
theorem classifyValue_alike (names : Naming) (ns : String) (h : ∀ o, v ≠ .object o) :
    Alike names (classifyValue names v ns) (classify (v.toText names) ns) ∧
      Interchangeable (classifyValue names v ns) (classify (v.toText names) ns) := by
  rcases classifyValue_cases names ns h with heq | ⟨n, hindex, htext⟩
  · rw [heq]
    exact ⟨⟨rfl, rfl, rfl, rfl⟩, interchangeable_of_asText rfl⟩
  · rw [hindex, htext, classify_indexText]
    exact ⟨⟨rfl, rfl, rfl, rfl⟩, interchangeable_of_asText rfl⟩

theorem classifyValue_alike_negativeZero :
    let v : Value := .number (.zero true)
    let names := World.blank.naming
    (∀ o, v ≠ .object o) ∧ classifyValue names v "a" = ⟨"a", .index 0, none⟩ ∧
      v.toText names = "0" ∧
      Alike names (classifyValue names v "a") (classify (v.toText names) "a") ∧
      Interchangeable (classifyValue names v "a") (classify (v.toText names) "a") := by
  have h : ∀ o, Value.number (.zero true) ≠ .object o := nofun
  exact ⟨h, by decide +kernel, by decide +kernel, classifyValue_alike _ "a" h⟩

end Key

end ScriptPlayer
