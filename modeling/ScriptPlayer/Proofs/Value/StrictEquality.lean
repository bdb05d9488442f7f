import ScriptPlayer.Proofs.Number.Wrapping
import ScriptPlayer.Proofs.Run.ValueKeys

/-! Strict equality. It is the agreement of what it compares, so it is a partial equivalence that
only leaves out NaN. Equal values have the same text, the same integer and the same key. -/
namespace ScriptPlayer

namespace Binary64

variable {x y : Binary64}

/-- What a comparison of numbers compares; there is nothing to compare of a NaN. -/
def rank? (x : Binary64) : Option Int := if x.isNaN then none else some x.signedQuanta

theorem eq_iff_rank? : x.eq y ↔ x.rank? = y.rank? ∧ y.rank? ≠ none := by
  unfold eq rank?
  cases x.isNaN <;> cases y.isNaN <;> simp

theorem eq_symm (x y : Binary64) : x.eq y = y.eq x := by
  unfold eq
  rw [Bool.and_comm (!x.isNaN), Bool.beq_comm]

theorem isInteger_ofInt32 (i : Int32) : (ofInt i.toInt).IsInteger i.toInt := by
  have hleast := i.le_toInt
  have hlt := i.toInt_lt
  exact isInteger_ofInt (by omega)

theorem rank?_ofInt32 (i : Int32) : (ofInt i.toInt).rank? = some (i.toInt * one) := by
  have h := isInteger_ofInt32 i
  rw [rank?, h.isNaN, h.signedQuanta]
  rfl

theorem rank?_ofInt32_inj {i j : Int32} :
    (ofInt i.toInt).rank? = (ofInt j.toInt).rank? ↔ i = j := by
  have hone : (one : Int) ≠ 0 := Int.natCast_ne_zero.2 (Nat.ne_of_gt one_pos)
  rw [rank?_ofInt32, rank?_ofInt32, Option.some_inj, Int.mul_eq_mul_right_iff hone,
    Int32.toInt_inj]

end Binary64

namespace Value

variable {names : Naming} {a b c : Value} {x y : Binary64} {i : Int32}

/-- What strict equality compares: numbers by their rank, whichever kind they are of, and any other
value as it is. -/
def essence : Value → Option (Value ⊕ Int)
  | int i => (Binary64.ofInt i.toInt).rank?.map .inr
  | number x => x.rank?.map .inr
  | v => some (.inl v)

theorem strictEq_iff : a.strictEq b ↔ a.essence = b.essence ∧ b.essence ≠ none := by
  have hmap : ∀ {r r' : Option Int}, r.map (Sum.inr (α := Value)) = r'.map .inr ↔ r = r' :=
    Option.map_inj_right fun _ _ => Sum.inr.inj
  cases a <;> cases b
  case int.int i j =>
    rw [strictEq, essence, essence, hmap, Binary64.rank?_ofInt32_inj, Binary64.rank?_ofInt32]
    simp
  case int.number i x => simp [strictEq, essence, hmap, Binary64.eq_iff_rank?]
  case number.int x i =>
    rw [strictEq, Binary64.eq_symm]
    simp [essence, hmap, Binary64.eq_iff_rank?]
  case number.number x y => simp [strictEq, essence, hmap, Binary64.eq_iff_rank?]
  all_goals simp [strictEq, essence]

theorem strictEq_symm (h : a.strictEq b) : b.strictEq a := by
  rw [strictEq_iff] at h ⊢
  exact ⟨h.1.symm, h.1 ▸ h.2⟩

theorem strictEq_trans (hab : a.strictEq b) (hbc : b.strictEq c) : a.strictEq c := by
  rw [strictEq_iff] at hab hbc ⊢
  exact ⟨hab.1.trans hbc.1, hbc.2⟩

theorem strictEq_self_iff : a.strictEq a ↔ ∀ x, a = number x → x.isNaN = false := by
  rw [strictEq_iff]
  cases a
  case int i => simp [essence, Binary64.rank?_ofInt32]
  case number x => simp [essence, Binary64.rank?]
  all_goals simp [essence]

/-! What becomes of equal values -/

structure ConvertsLike (names : Naming) (a b : Value) : Prop where
  text : a.toText names = b.toText names
  integer : a.toInt = b.toInt
  /-- the keys are the same in kind, namespace, name and spelling, so that they come to the same
  place of every instance -/
  key : ∀ ns, Key.classifyValue names a ns = Key.classifyValue names b ns

namespace ConvertsLike

theorem refl (a : Value) : ConvertsLike names a a := ⟨rfl, rfl, fun _ => rfl⟩

theorem symm (h : ConvertsLike names a b) : ConvertsLike names b a :=
  ⟨h.text.symm, h.integer.symm, fun ns => (h.key ns).symm⟩

theorem trans (hab : ConvertsLike names a b) (hbc : ConvertsLike names b c) :
    ConvertsLike names a c :=
  ⟨hab.text.trans hbc.text, hab.integer.trans hbc.integer, fun ns =>
    (hab.key ns).trans (hbc.key ns)⟩

end ConvertsLike

theorem toInt_toUInt32 (h : 0 ≤ i.toInt) : (i.toUInt32.toNat : Int) = i.toInt := by
  have hsplit := BitVec.toInt_eq_toNat_cond i.toBitVec
  change 0 ≤ i.toBitVec.toInt at h
  change (i.toBitVec.toNat : Int) = i.toBitVec.toInt
  omega

theorem convertsLike_of_isInteger (names : Naming) (h : x.IsInteger i.toInt) :
    ConvertsLike names (int i) (number x) := by
  have hleast := i.le_toInt
  have hlt := i.toInt_lt
  have hwhole := h.whole
  have htext : (int i).toText names = (number x).toText names := by
    have hword : x.toInt64 = i.toInt := by
      rw [Binary64.toInt64_eq h.isIntegral, hwhole]
      omega
    rw [toText, toText, Binary64.numberText_of_isIntegral h.isIntegral, if_pos (by omega), hword]
  refine ⟨htext, ?_, fun ns => ?_⟩
  · rw [toInt_number h.finite, hwhole]
    exact (Int32.ofInt_toInt i).symm
  · by_cases hsign : 0 ≤ i.toInt
    · have hindex := Binary64.isIndexNumber_iff.2 ⟨h.isIntegral, by omega, by omega⟩
      have hword : i.toUInt32 = x.toUInt32 := by
        apply UInt32.toNat_inj.1
        have := toInt_toUInt32 hsign
        have := Binary64.toNat_toUInt32 h hsign (by omega)
        omega
      rw [Key.classifyValue, Key.classifyValue, if_pos hsign, if_pos hindex, hword]
    · have hindex : ¬Key.isIndexNumber x := fun hin =>
        hsign (hwhole ▸ (Binary64.isIndexNumber_iff.1 hin).2.1)
      rw [Key.classifyValue, Key.classifyValue, if_neg hsign, if_neg hindex, htext]

theorem isInteger_zero (negative : Bool) : (Binary64.zero negative).IsInteger 0 := by
  cases negative <;> exact ⟨rfl, rfl⟩

theorem convertsLike_of_eq (names : Naming) (h : x.eq y) :
    ConvertsLike names (number x) (number y) := by
  rcases Binary64.eq_cases h with rfl | ⟨hx, hy⟩
  · exact .refl _
  · have hzero := fun negative =>
      convertsLike_of_isInteger names (i := 0) (isInteger_zero negative)
    rw [hx, hy]
    exact (hzero _).symm.trans (hzero _)

theorem convertsLike_of_strictEq (names : Naming) (h : a.strictEq b) : ConvertsLike names a b := by
  have hint := fun i => convertsLike_of_isInteger names (Binary64.isInteger_ofInt32 i)
  cases a <;> cases b
  case int.number i x => exact (hint i).trans (convertsLike_of_eq names h)
  case number.int x i => exact ((hint i).trans (convertsLike_of_eq names h)).symm
  case number.number x y => exact convertsLike_of_eq names h
  case undefined.undefined | null.null => exact .refl _
  case int.int | bool.bool | string.string | object.object | function.function
      | classRef.classRef =>
    obtain rfl := eq_of_beq h
    exact .refl _
  all_goals cases h

/-- The laws of strict equality, for any three values. -/
structure StrictEqLaws (names : Naming) (a b c : Value) : Prop where
  symmetric : a.strictEq b = b.strictEq a
  transitive : a.strictEq b → b.strictEq c → a.strictEq c
  reflexive : a.strictEq a ↔ ∀ x, a = number x → x.isNaN = false
  respected : a.strictEq b → ConvertsLike names a b

theorem strictEq_laws (names : Naming) (a b c : Value) : StrictEqLaws names a b c where
  symmetric := Bool.eq_iff_iff.2 ⟨strictEq_symm, strictEq_symm⟩
  transitive := strictEq_trans
  reflexive := strictEq_self_iff
  respected := convertsLike_of_strictEq names

end Value

end ScriptPlayer
