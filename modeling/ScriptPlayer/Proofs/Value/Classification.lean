import ScriptPlayer.Proofs.Run.ValueKeys

/-! Which texts are indices. A grammar says which number the digits of a text write; a text is an
index exactly if that number is below 2^32. Either way nothing of the text is lost. -/
namespace ScriptPlayer

open Key

/-- The number that decimal digits write. Zeros may stand before the others. -/
inductive Numeral : List Char → Nat → Prop
  | digit {d : Nat} (hd : d < 10) : Numeral [Nat.digitChar d] d
  | snoc {digits : List Char} {n d : Nat} (h : Numeral digits n) (hd : d < 10) :
      Numeral (digits ++ [Nat.digitChar d]) (10 * n + d)

theorem isDigit_iff {c : Char} : c.isDigit ↔ '0' ≤ c ∧ c ≤ '9' := by
  rw [Char.isDigit, Bool.and_eq_true, decide_eq_true_eq, decide_eq_true_eq]
  exact Iff.rfl

theorem isDigit_digitChar {d : Nat} (hd : d < 10) : (Nat.digitChar d).isDigit := by
  rw [Nat.isDigit_digitChar]
  exact decide_eq_true hd

theorem digitValue_digitChar {d : Nat} (hd : d < 10) : digitValue (Nat.digitChar d) = d := by
  have hcode := Nat.toNat_digitChar_of_lt_ten hd
  rw [digitValue_of_isDigit (isDigit_digitChar hd), hcode]
  exact Nat.add_sub_cancel_left 48 d

theorem digitChar_digitValue {c : Char} (h : c.isDigit) :
    digitValue c < 10 ∧ Nat.digitChar (digitValue c) = c := by
  obtain ⟨hlow, hhigh⟩ : 48 ≤ c.toNat ∧ c.toNat ≤ 57 := Char.isDigit_iff_toNat.1 h
  have hvalue : digitValue c = c.toNat - 48 := digitValue_of_isDigit h
  have hlt : digitValue c < 10 := by omega
  refine ⟨hlt, Char.toNat_inj.1 ?_⟩
  rw [Nat.toNat_digitChar_of_lt_ten hlt]
  omega

theorem numeral_append_singleton (base : Nat) (digits : List Char) (c : Char) :
    numeral base (digits ++ [c]) = numeral base digits * base + digitValue c :=
  List.foldl_append

namespace Numeral

variable {digits : List Char} {n : Nat}

theorem ne_nil (h : Numeral digits n) : digits ≠ [] := by
  cases h with
  | digit hd => exact List.cons_ne_nil _ _
  | snoc h hd => exact List.append_ne_nil_of_right_ne_nil _ (List.cons_ne_nil _ _)

theorem isDigit (h : Numeral digits n) : ∀ c ∈ digits, c.isDigit := by
  induction h with
  | digit hd =>
    intro c hc
    rw [List.mem_singleton.1 hc]
    exact isDigit_digitChar hd
  | snoc h hd ih =>
    intro c hc
    rcases List.mem_append.1 hc with hc | hc
    · exact ih c hc
    · rw [List.mem_singleton.1 hc]
      exact isDigit_digitChar hd

theorem numeral_eq (h : Numeral digits n) : numeral 10 digits = n := by
  induction h with
  | digit hd => exact (Nat.zero_add _).trans (digitValue_digitChar hd)
  | snoc h hd ih => rw [numeral_append_singleton, ih, digitValue_digitChar hd, Nat.mul_comm]

theorem of_isDigit (hne : digits ≠ []) (h : ∀ c ∈ digits, c.isDigit) :
    Numeral digits (numeral 10 digits) := by
  induction digits using List.reverseRecOn with
  | nil => exact absurd rfl hne
  | append_singleton digits c ih =>
    have hc : c.isDigit := h c (List.mem_append_right _ (List.mem_singleton_self c))
    obtain ⟨hlt, hchar⟩ := digitChar_digitValue hc
    rw [numeral_append_singleton]
    by_cases hnil : digits = []
    · subst hnil
      have hzero : numeral 10 [] * 10 + digitValue c = digitValue c := Nat.zero_add _
      have hdigit := digit hlt
      rwa [hchar, ← hzero] at hdigit
    · have hdigits := ih hnil fun d hd => h d (List.mem_append_left _ hd)
      have hsnoc := hdigits.snoc hlt
      rwa [hchar, Nat.mul_comm] at hsnoc

theorem iff_numeral :
    Numeral digits n ↔ digits ≠ [] ∧ (∀ c ∈ digits, c.isDigit) ∧ numeral 10 digits = n := by
  constructor
  · exact fun h => ⟨h.ne_nil, h.isDigit, h.numeral_eq⟩
  · rintro ⟨hne, hdigits, rfl⟩
    exact of_isDigit hne hdigits

theorem zeros (h : Numeral digits n) (k : Nat) : Numeral (List.replicate k '0' ++ digits) n := by
  have hcons : ∀ {digits : List Char}, Numeral digits n → Numeral ('0' :: digits) n := by
    intro digits h
    refine iff_numeral.2 ⟨List.cons_ne_nil _ _, fun c hc => ?_, h.numeral_eq⟩
    rcases List.mem_cons.1 hc with rfl | hc
    · rfl
    · exact h.isDigit c hc
  induction k with
  | zero => exact h
  | succ k ih => exact hcons ih

theorem repr (n : Nat) : Numeral (Nat.repr n).toList n := by
  have hdigits : ∀ c ∈ Nat.toDigits 10 n, c.isDigit := fun c hc =>
    Nat.isDigit_of_mem_toDigits (by decide) (by decide) hc
  rw [Nat.toList_repr]
  refine iff_numeral.2 ⟨Nat.toDigits_ne_nil, hdigits, ?_⟩
  rw [numeral_eq_ofDigitChars hdigits, Nat.ofDigitChars_ten_toDigits]

end Numeral

namespace Key

variable {raw ns : String} {n : UInt32}

theorem parseIndex?_of_numeral {m : Nat} (h : Numeral raw.toList m) :
    parseIndex? raw = if m < UInt32.size then some (UInt32.ofNat m) else none := by
  have hall : raw.toList.all Char.isDigit := List.all_eq_true.2 h.isDigit
  have hsome : raw.toList.isEmpty = false := List.isEmpty_eq_false_iff.2 h.ne_nil
  unfold parseIndex?
  simp only [hall, hsome, h.numeral_eq]
  rfl

theorem numeral_of_parseIndex? (h : parseIndex? raw = some n) : Numeral raw.toList n.toNat := by
  unfold parseIndex? at h
  simp only at h
  split at h
  · cases h
  · rename_i hguard
    obtain ⟨hne, hall⟩ := Bool.or_eq_false_iff.1 (Bool.not_eq_true _ ▸ hguard)
    split at h
    · rename_i hlt
      rw [← Option.some.inj h, UInt32.toNat_ofNat_of_lt' hlt]
      exact .of_isDigit (List.isEmpty_eq_false_iff.1 hne)
        (List.all_eq_true.1 (by simpa using hall))
    · cases h

theorem parseIndex?_eq_some_iff : parseIndex? raw = some n ↔ Numeral raw.toList n.toNat := by
  refine ⟨numeral_of_parseIndex?, fun h => ?_⟩
  rw [parseIndex?_of_numeral h, if_pos n.toNat_lt, UInt32.ofNat_toNat]

theorem name_classify_eq_index_iff :
    (classify raw ns).name = .index n ↔ Numeral raw.toList n.toNat := by
  rw [← parseIndex?_eq_some_iff]
  unfold classify
  cases parseIndex? raw with
  | some i => simp
  | none => simp [Key.qualified]

end Key

def Instance.keeping (text : String) : Instance :=
  .fresh 0 (.dictionary ⟨[(.content text, .undefined)], .empty⟩)

theorem Instance.has_keeping (text raw ns : String) :
    (keeping text).has .empty (classify raw ns) = (text == raw) := by
  have hslots : PropertyMap.empty.contains ⟨ns, raw⟩ = false := rfl
  have hbound : TraitTable.empty.contains ⟨ns, raw⟩ = false := rfl
  have hdeclared : ClassTable.empty.declares 0 ⟨ns, raw⟩ = false := rfl
  have hnamed : (keeping text).hasNamed .empty ⟨ns, raw⟩ =
      ((keeping text).content? raw).isSome := by
    simp [hasNamed, hasTrait, keeping, fresh, hslots, hbound, hdeclared]
  rw [← has_asText (i := keeping text) rfl, asText_classify]
  refine hnamed.trans ?_
  by_cases h : text = raw <;>
    simp [h, keeping, fresh, content?, Dictionary.getContent?, Dictionary.contentPosition?,
      Dictionary.valueAt?]

namespace Key

/-- What can be told of the key that a text denotes. -/
structure Classified (raw ns : String) : Prop where
  index_iff : ∀ n : UInt32, (classify raw ns).name = .index n ↔
    raw ≠ "" ∧ (∀ c ∈ raw.toList, '0' ≤ c ∧ c ≤ '9') ∧ Numeral raw.toList n.toNat
  /-- also where the digits write too large a number -/
  otherwise : (∀ n < 0x1_0000_0000, ¬Numeral raw.toList n) →
    classify raw ns = Key.qualified raw ns
  zeros : ∀ n k, (classify raw ns).name = .index n →
    (classify (String.ofList (List.replicate k '0') ++ raw) ns).name = .index n
  localName : ∀ names, (classify raw ns).localName names = raw
  namespaced : (classify raw ns).ns = ns
  spelling : ∀ n, (classify raw ns).name = .index n → (classify raw ns).indexSpelling? = some raw
  distinct : ∀ raw' ns', Interchangeable (classify raw ns) (classify raw' ns') → raw = raw'

variable {raw ns : String} {n : UInt32}

theorem localName_classify (names : Naming) : (classify raw ns).localName names = raw := by
  unfold classify
  cases parseIndex? raw <;> rfl

theorem classified (raw ns : String) : Classified raw ns where
  index_iff n := by
    rw [name_classify_eq_index_iff]
    constructor
    · intro h
      refine ⟨?_, fun c hc => ?_, h⟩
      · rintro rfl
        exact h.ne_nil rfl
      · exact isDigit_iff.1 (h.isDigit c hc)
    · exact fun h => h.2.2
  otherwise h := by
    apply classify_of_parseIndex?
    rw [Option.eq_none_iff_forall_ne_some]
    intro n hn
    exact h n.toNat n.toNat_lt (parseIndex?_eq_some_iff.1 hn)
  zeros n k h := by
    rw [name_classify_eq_index_iff] at h ⊢
    rw [String.toList_append, String.toList_ofList]
    exact h.zeros k
  localName := localName_classify
  namespaced := by
    unfold classify
    cases parseIndex? raw <;> rfl
  spelling n h := by
    unfold classify at h ⊢
    cases hn : parseIndex? raw with
    | some i => rfl
    | none =>
      rw [hn] at h
      cases h
  distinct raw' ns' h := by
    have hsame := h.has .empty (Instance.keeping raw) rfl
    rw [Instance.has_keeping, Instance.has_keeping, beq_self_eq_true] at hsame
    exact beq_iff_eq.1 hsame.symm

/-- A text is an index exactly if it is a numeral of a number below 2^32, and keeps its spelling;
the decimal text of such a number leads back to it. -/
theorem classify_grammar (raw ns : String) : Classified raw ns ∧
    ∀ n : UInt32, Numeral (indexText n).toList n.toNat ∧
      (classify (indexText n) ns).name = .index n := by
  refine ⟨classified raw ns, fun n => ?_⟩
  have hnumeral : Numeral (indexText n).toList n.toNat := .repr n.toNat
  exact ⟨hnumeral, name_classify_eq_index_iff.2 hnumeral⟩

example : (classify "007" "").name = .index 7 ∧
    classify "4294967296" "" = Key.qualified "4294967296" "" := by decide +kernel

end Key

end ScriptPlayer
