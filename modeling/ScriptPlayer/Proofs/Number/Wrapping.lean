import Mathlib.Data.Int.ModEq
import Mathlib.Data.Rat.Floor
import ScriptPlayer.Proofs.Number.Exactness
import ScriptPlayer.Proofs.Number.Reciprocal

/-! The conversion of numbers to 32-bit integers. Every step of it is exact, however large or small
the number is: the integer part, the remainder, its correction and the cast to a word. -/
namespace ScriptPlayer

/-- The integer that is left of a value when its fractional part is dropped. -/
def towardZero (q : ℚ) : ℤ := if 0 ≤ q then ⌊q⌋ else ⌈q⌉

namespace Binary64

variable {x : Binary64} {a : ℤ}

theorem towardZero_neg (q : ℚ) : towardZero (-q) = -towardZero q := by
  unfold towardZero
  rw [Int.ceil_neg, Int.floor_neg]
  rcases lt_trichotomy q 0 with hneg | rfl | hpos
  · rw [if_pos (by linarith), if_neg (by linarith)]
  · simp
  · rw [if_neg (by linarith), if_pos hpos.le]

theorem whole_eq_towardZero (x : Binary64) : x.whole = towardZero x.value := by
  have hone : (0 : ℚ) < one := by exact_mod_cast one_pos
  have hmagnitude : towardZero ((x.quanta : ℚ) / one) = (x.quanta / one : Nat) := by
    rw [towardZero, if_pos (div_nonneg (Nat.cast_nonneg _) hone.le)]
    exact Rat.floor_intCast_div_natCast x.quanta one
  unfold value whole signedQuanta
  split
  · rw [Int.cast_neg, neg_div, towardZero_neg, Int.cast_natCast, hmagnitude]
  · rw [Int.cast_natCast, hmagnitude]

theorem IsInteger.value (h : x.IsInteger a) : x.value = a := by
  have hone : (one : ℚ) ≠ 0 := by exact_mod_cast Nat.ne_of_gt one_pos
  rw [Binary64.value, h.signedQuanta, div_eq_iff hone]
  push_cast
  rfl

theorem isInteger_intModulus : Value.intModulus.IsInteger (UInt32.size : Nat) := by
  unfold Value.intModulus ofNat
  exact isInteger_ofInt (by decide)

theorem isInteger_remEuclid (h : x.isFinite) :
    (x.trunc.remEuclid Value.intModulus).IsInteger (x.whole % (UInt32.size : Nat)) :=
  (isInteger_trunc h).remEuclid isInteger_intModulus (by decide) (by decide)

theorem toNat_toUInt32 (h : x.IsInteger a) (hnonneg : 0 ≤ a) (hlt : a < 0x1_0000_0000) :
    (x.toUInt32.toNat : ℤ) = a := by
  have hclamp : x.clampToInt 0 0xFFFF_FFFF = a := h.clampToInt hnonneg (by omega)
  have hword : a.toNat < UInt32.size := by
    change a.toNat < 0x1_0000_0000
    omega
  rw [toUInt32, hclamp, UInt32.toNat_ofNat_of_lt' hword]
  omega

/-- How a number is converted: no step rounds, and none is beyond the range of the next. -/
structure ConvertsExactly (x : Binary64) : Prop where
  integerPart : x.trunc.isFinite ∧ x.trunc.value = towardZero x.value
  remainder : (x.trunc.rem Value.intModulus).isFinite ∧
    (x.trunc.rem Value.intModulus).value = (towardZero x.value).tmod (2 ^ 32)
  /-- a negative remainder becomes less than 2^32, however close to zero it is -/
  corrected : (x.trunc.remEuclid Value.intModulus).isFinite ∧
    (x.trunc.remEuclid Value.intModulus).value = (towardZero x.value % 2 ^ 32 : ℤ)
  cast : ((x.trunc.remEuclid Value.intModulus).toUInt32.toNat : ℚ) =
    (x.trunc.remEuclid Value.intModulus).value
  /-- the result is the one 32-bit integer that is congruent to the integer part -/
  unique : ∀ i : Int32, i = (Value.number x).toInt ↔ i.toInt ≡ towardZero x.value [ZMOD 2 ^ 32]

end Binary64

namespace Value

variable {x : Binary64}

/-- The 32-bit integer that is congruent to a given one. -/
theorem eq_ofInt_iff (i : Int32) (a : ℤ) : i = Int32.ofInt a ↔ i.toInt ≡ a [ZMOD 2 ^ 32] := by
  have hleast := i.le_toInt
  have hlt := i.toInt_lt
  rw [← Int32.toInt_inj, Int32.toInt_ofInt, eq_comm, Int.bmod_eq_iff (by decide), Int.modEq_comm,
    Int.modEq_iff_dvd]
  exact ⟨fun h => h.2.2, fun h => ⟨hleast, hlt, h⟩⟩

theorem toInt_number (h : x.isFinite) : (number x).toInt = Int32.ofInt x.whole := by
  have hrem := Binary64.isInteger_remEuclid h
  have hword := Binary64.toNat_toUInt32 hrem (Int.emod_nonneg _ (by decide))
    (Int.emod_lt_of_pos _ (by decide))
  have hresult : (number x).toInt =
      (x.trunc.remEuclid intModulus).toUInt32.toInt32 := if_pos h
  rw [hresult, ← Int32.toInt_inj, Int32.toInt_ofInt]
  change BitVec.toInt (x.trunc.remEuclid intModulus).toUInt32.toBitVec = _
  rw [BitVec.toInt_eq_toNat_bmod]
  change Int.bmod ((x.trunc.remEuclid intModulus).toUInt32.toNat : ℤ) (2 ^ 32) = _
  rw [hword]
  exact Int.emod_bmod x.whole UInt32.size

theorem toInt_number_of_not_isFinite (h : ¬x.isFinite) : (number x).toInt = 0 := if_neg h

theorem toInt_toNumber (i : Int32) : (int i).toNumber.value = i.toInt ∧
    (number (int i).toNumber).toInt = (int i).toInt := by
  have hleast := i.le_toInt
  have hlt := i.toInt_lt
  have hinteger : (int i).toNumber.IsInteger i.toInt := Binary64.isInteger_ofInt (by omega)
  refine ⟨hinteger.value, ?_⟩
  rw [toInt_number hinteger.finite, hinteger.whole]
  exact Int32.ofInt_toInt i

end Value

namespace Binary64

variable {x : Binary64}

theorem convertsExactly (h : x.isFinite) : x.ConvertsExactly := by
  have hwhole := x.whole_eq_towardZero
  have hpart := isInteger_trunc h
  have hrem := hpart.rem isInteger_intModulus (by decide) (by decide)
  have hcorrected := isInteger_remEuclid h
  have hword := toNat_toUInt32 hcorrected (Int.emod_nonneg _ (by decide))
    (Int.emod_lt_of_pos _ (by decide))
  constructor
  case integerPart => exact ⟨hpart.finite, hwhole ▸ hpart.value⟩
  case remainder => exact ⟨hrem.finite, hwhole ▸ hrem.value⟩
  case corrected => exact ⟨hcorrected.finite, hwhole ▸ hcorrected.value⟩
  case cast =>
    rw [hcorrected.value, ← hword]
    norm_cast
  case unique =>
    intro i
    rw [Value.toInt_number h, ← hwhole]
    exact Value.eq_ofInt_iff i x.whole

end Binary64

/-- The conversion to integers is exact modulo 2^32, for every number. -/
theorem Value.toInt_exact :
    (∀ x : Binary64, if x.isFinite then x.ConvertsExactly else (Value.number x).toInt = 0) ∧
      ∀ i : Int32, (Value.int i).toNumber.value = i.toInt ∧
        (Value.number (Value.int i).toNumber).toInt = (Value.int i).toInt := by
  refine ⟨fun x => ?_, Value.toInt_toNumber⟩
  split
  · exact Binary64.convertsExactly ‹_›
  · exact Value.toInt_number_of_not_isFinite ‹_›

end ScriptPlayer
