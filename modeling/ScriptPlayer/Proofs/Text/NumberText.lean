import Mathlib.Data.List.Basic
import ScriptPlayer.Key

/-! The texts of numbers, read as indices. A whole number below 2^32 is written in the digits that
are read back as it; what is written for any other number holds a character that is no digit, or
digits of a number that is too large. -/
namespace ScriptPlayer

theorem digitValue_of_isDigit {c : Char} (h : c.isDigit) : digitValue c = c.toNat - '0'.toNat :=
  if_pos h

theorem numeral_eq_ofDigitChars {digits : List Char} (h : ∀ c ∈ digits, c.isDigit) :
    numeral 10 digits = Nat.ofDigitChars 10 digits 0 := by
  rw [Nat.ofDigitChars_eq_foldl, numeral]
  refine List.foldl_ext _ _ _ fun n c hc => ?_
  rw [digitValue_of_isDigit (h c hc), Nat.mul_comm]

namespace Key

variable {raw : String}

theorem parseIndex?_of_not_isDigit {c : Char} (hc : c ∈ raw.toList) (hdigit : ¬c.isDigit) :
    parseIndex? raw = none := by
  have hall : raw.toList.all Char.isDigit = false :=
    List.all_eq_false.2 ⟨c, hc, hdigit⟩
  simp [parseIndex?, hall]

theorem parseIndex?_repr (n : Nat) :
    parseIndex? (Nat.repr n) = if n < 0x1_0000_0000 then some (UInt32.ofNat n) else none := by
  have hdigits : ∀ c ∈ Nat.toDigits 10 n, c.isDigit := fun c hc =>
    Nat.isDigit_of_mem_toDigits (by decide) (by decide) hc
  have hnumeral : numeral 10 (Nat.toDigits 10 n) = n :=
    (numeral_eq_ofDigitChars hdigits).trans (Nat.ofDigitChars_ten_toDigits)
  simp only [parseIndex?, Nat.toList_repr, hnumeral]
  rw [if_neg]
  simpa [Nat.toDigits_ne_nil] using hdigits

theorem parseIndex?_indexText (i : UInt32) : parseIndex? (indexText i) = some i := by
  rw [indexText, parseIndex?_repr, if_pos i.toNat_lt, UInt32.ofNat_toNat]

theorem parseIndex?_toString (n : Int) : parseIndex? (toString n) =
    if 0 ≤ n ∧ n < 0x1_0000_0000 then some (UInt32.ofNat n.toNat) else none := by
  cases n with
  | ofNat n =>
    have hbound : (0 ≤ Int.ofNat n ∧ Int.ofNat n < 0x1_0000_0000) ↔ n < 0x1_0000_0000 := by
      simp only [Int.ofNat_eq_natCast]
      omega
    simp only [hbound]
    exact parseIndex?_repr n
  | negSucc n =>
    rw [if_neg (by omega)]
    refine parseIndex?_of_not_isDigit (c := '-') ?_ (by decide)
    change '-' ∈ ("-" ++ Nat.repr (n + 1)).toList
    simp

end Key

namespace Binary64

variable {x : Binary64}

theorem one_pos : 0 < one := by decide +kernel

theorem mem_neighbours {num den d : Nat} (h : d ∈ neighbours num den) : num / den ≤ d := by
  simp only [neighbours] at h
  split at h <;> simp at h <;> omega

theorem quanta_ofQuanta_zero (negative : Bool) : (ofQuanta negative 0).quanta = 0 := by
  cases negative <;> decide +kernel

/-- What is read back as a number is no less than half of it: where the grid is so coarse that one
of the points next to the number is zero, only zero is read back. -/
theorem le_of_onCoarseGrid {zeros d : Nat} (h : onCoarseGrid x zeros = some d) :
    x.quanta / one ≤ 2 * (d * Nat.pow 10 zeros) := by
  unfold onCoarseGrid at h
  have hnear := mem_neighbours (List.mem_of_find?_eq_some h)
  have hreads := List.find?_some h
  have hstep : 0 < Nat.pow 10 zeros := Nat.pow_pos (by decide)
  generalize Nat.pow 10 zeros = step at hnear hreads hstep ⊢
  rcases Nat.eq_zero_or_pos d with rfl | hpos
  · rw [Nat.zero_mul, Nat.zero_mul, beq_iff_eq] at hreads
    rw [← hreads, quanta_ofQuanta_zero]
    simp
  · rw [Nat.mul_comm step, ← Nat.div_div_eq_div_mul] at hnear
    have hlt : x.quanta / one < (d + 1) * step :=
      (Nat.div_lt_iff_lt_mul hstep).1 (Nat.lt_succ_of_le hnear)
    calc x.quanta / one ≤ (d + 1) * step := Nat.le_of_lt hlt
      _ ≤ 2 * d * step := Nat.mul_le_mul_right step (by omega)
      _ = 2 * (d * step) := Nat.mul_assoc 2 d step

/-- The roundest multiple is the last resort or one of the multiples that were found. -/
theorem roundestMultiple_induct {multiple : Nat → Option Nat} {whole : Nat} {P : Nat → Prop}
    (hwhole : P whole) (h : ∀ zeros d, multiple zeros = some d → P (d * Nat.pow 10 zeros))
    (zeros : Nat) : P (roundestMultiple multiple whole zeros) := by
  induction zeros with
  | zero => exact hwhole
  | succ zeros ih =>
    rw [roundestMultiple]
    cases hd : multiple (zeros + 1) with
    | none => exact ih
    | some d => exact h (zeros + 1) d hd

theorem le_roundestInteger (x : Binary64) (zeros : Nat) :
    x.quanta / one ≤ 2 * roundestInteger x zeros :=
  roundestMultiple_induct (P := fun n => x.quanta / one ≤ 2 * n) (by omega)
    (fun _ _ => le_of_onCoarseGrid) zeros

def whole (x : Binary64) : Int :=
  if x.negative then -(x.quanta / one : Nat) else (x.quanta / one : Nat)

theorem natAbs_whole (x : Binary64) : x.whole.natAbs = x.quanta / one := by
  unfold whole
  generalize x.quanta / one = n
  split <;> omega

theorem isNaN_of_isFinite (h : x.isFinite) : x.isNaN = false := by
  simp_all [isFinite, isNaN]

theorem isInfinite_of_isFinite (h : x.isFinite) : x.isInfinite = false := by
  simp_all [isFinite, isInfinite]

theorem isFinite_of_isIntegral (h : x.isIntegral) : x.isFinite :=
  (Bool.and_eq_true_iff.1 h).1

theorem signedQuanta_of_isIntegral (h : x.isIntegral) : x.signedQuanta = x.whole * one := by
  have hmod : x.quanta % one = 0 := by simpa [isIntegral] using (Bool.and_eq_true_iff.1 h).2
  have hquanta : (x.quanta : Int) = (x.quanta / one : Nat) * (one : Nat) := by
    exact_mod_cast (Nat.div_mul_cancel (Nat.dvd_of_mod_eq_zero hmod)).symm
  unfold signedQuanta whole
  split
  · rw [hquanta, Int.neg_mul]
  · exact hquanta

theorem clampToInt_eq (h : x.isNaN = false) (lo hi : Int) :
    x.clampToInt lo hi = max lo (min hi x.whole) := by
  simp [clampToInt, h, whole]

theorem signedQuanta_zero : (zero false).signedQuanta = 0 := by decide +kernel

theorem signedQuanta_maxIndex : (ofNat 0xFFFF_FFFF).signedQuanta = 0xFFFF_FFFF * (one : Int) := by
  decide +kernel

theorem signedQuanta_textLimit :
    Value.textLimit.signedQuanta = 1000_000_000_000_000_000_000 * (one : Int) := by
  decide +kernel

theorem mul_one_le_mul_one {a b : Int} : a * (one : Int) ≤ b * (one : Int) ↔ a ≤ b :=
  Int.mul_le_mul_iff_of_pos_right (Int.natCast_pos.2 one_pos)

theorem isIndexNumber_iff :
    Key.isIndexNumber x ↔ x.isIntegral ∧ 0 ≤ x.whole ∧ x.whole < 0x1_0000_0000 := by
  by_cases h : x.isIntegral
  · have hnan := isNaN_of_isFinite (isFinite_of_isIntegral h)
    have hnonneg := mul_one_le_mul_one (a := 0) (b := x.whole)
    have hle := mul_one_le_mul_one (a := x.whole) (b := 0xFFFF_FFFF)
    have hzero : (zero false).isNaN = false := rfl
    have hmax : (ofNat 0xFFFF_FFFF).isNaN = false := by decide +kernel
    rw [Int.zero_mul] at hnonneg
    simp only [Key.isIndexNumber, le, h, hnan, hzero, hmax, signedQuanta_zero,
      signedQuanta_maxIndex, signedQuanta_of_isIntegral h, hnonneg, hle, Bool.not_false,
      Bool.true_and, Bool.and_true, Bool.and_eq_true, decide_eq_true_eq, true_and]
    omega
  · simp [Key.isIndexNumber, h]

/-! How a number is written -/

theorem whole_abs (x : Binary64) : x.abs.whole = x.whole.natAbs := by
  rw [natAbs_whole]
  rfl

theorem abs_lt_textLimit_iff (h : x.isIntegral) :
    x.abs.lt Value.textLimit ↔ x.whole.natAbs < 1000_000_000_000_000_000_000 := by
  have habs : x.abs.isIntegral := h
  have hlt := not_congr (mul_one_le_mul_one (a := 1000_000_000_000_000_000_000) (b := x.abs.whole))
  have hnan := isNaN_of_isFinite (isFinite_of_isIntegral habs)
  have hlimit : Value.textLimit.isNaN = false := by decide +kernel
  simp only [lt, hnan, hlimit, signedQuanta_textLimit, signedQuanta_of_isIntegral habs,
    Bool.not_false, Bool.true_and, decide_eq_true_eq]
  rw [← Int.not_le, hlt, whole_abs]
  omega

theorem numberText_of_isIntegral (h : x.isIntegral) :
    Value.numberText x =
      if x.whole.natAbs < 1000_000_000_000_000_000_000 then toString x.toInt64 else x.toText := by
  have hfinite := isFinite_of_isIntegral h
  simp only [Value.numberText, isNaN_of_isFinite hfinite, isInfinite_of_isFinite hfinite, h,
    Bool.true_and, abs_lt_textLimit_iff h, Bool.false_eq_true, if_false]

theorem toText_of_isFinite (h : x.isFinite) :
    x.toText = (if x.negative then "-" else "") ++ x.magnitudeText := by
  simp [toText, isNaN_of_isFinite h, isInfinite_of_isFinite h]

theorem toInt64_eq (h : x.isIntegral) : x.toInt64 =
    max (-0x8000_0000_0000_0000) (min 0x7FFF_FFFF_FFFF_FFFF x.whole) :=
  clampToInt_eq (isNaN_of_isFinite (isFinite_of_isIntegral h)) _ _

theorem point_mem_fixedText (d places : Nat) : '.' ∈ (fixedText d places).toList := by
  simp [fixedText]

theorem point_mem_magnitudeText (h : ¬x.isIntegral) : '.' ∈ x.magnitudeText.toList := by
  rw [magnitudeText, if_neg h]
  exact point_mem_fixedText _ _

end Binary64

namespace Key

variable {x : Binary64}

theorem numberText_of_isIndexNumber (h : isIndexNumber x) :
    Value.numberText x = indexText x.toUInt32 := by
  obtain ⟨hintegral, hnonneg, hlt⟩ := Binary64.isIndexNumber_iff.1 h
  have hnan := Binary64.isNaN_of_isFinite (Binary64.isFinite_of_isIntegral hintegral)
  rw [Binary64.numberText_of_isIntegral hintegral, if_pos (by omega), Binary64.toInt64_eq hintegral,
    indexText, Binary64.toUInt32, Binary64.clampToInt_eq hnan]
  obtain ⟨n, hn⟩ := Int.eq_ofNat_of_zero_le hnonneg
  have hint : max (-0x8000_0000_0000_0000) (min 0x7FFF_FFFF_FFFF_FFFF x.whole) = Int.ofNat n := by
    simp only [Int.ofNat_eq_natCast]
    omega
  have hword : (max 0 (min 0xFFFF_FFFF x.whole)).toNat = n := by omega
  have hsmall : n < 0x1_0000_0000 := by omega
  rw [hint, hword, UInt32.toNat_ofNat_of_lt' hsmall]
  rfl

theorem parseIndex?_toText (h : x.isFinite)
    (hlarge : x.isIntegral → 0x2_0000_0000 ≤ x.whole.natAbs) : parseIndex? x.toText = none := by
  rw [Binary64.toText_of_isFinite h]
  by_cases hneg : x.negative
  · exact parseIndex?_of_not_isDigit (c := '-') (by simp [hneg]) (by decide)
  · rw [if_neg hneg, String.empty_append]
    by_cases hintegral : x.isIntegral
    · have hwhole := Binary64.le_roundestInteger x 308
      rw [← Binary64.natAbs_whole] at hwhole
      rw [Binary64.magnitudeText, if_pos hintegral, parseIndex?_repr, if_neg]
      have := hlarge hintegral
      omega
    · exact parseIndex?_of_not_isDigit (Binary64.point_mem_magnitudeText hintegral) (by decide)

theorem parseIndex?_of_not_isFinite (h : ¬x.isFinite) :
    parseIndex? (Value.numberText x) = none := by
  have hwords : x.isNaN ∨ x.isInfinite := by
    simp only [Binary64.isFinite, Binary64.isNaN, Binary64.isInfinite] at h ⊢
    simp_all
    exact Decidable.not_or_self _
  unfold Value.numberText
  split
  · decide
  · rw [if_pos (hwords.resolve_left ‹_›)]
    split <;> decide

theorem parseIndex?_numberText (h : ¬isIndexNumber x) :
    parseIndex? (Value.numberText x) = none := by
  by_cases hintegral : x.isIntegral
  · have hout : ¬(0 ≤ x.whole ∧ x.whole < 0x1_0000_0000) := fun hin =>
      h (Binary64.isIndexNumber_iff.2 ⟨hintegral, hin⟩)
    rw [Binary64.numberText_of_isIntegral hintegral]
    split
    · rw [parseIndex?_toString, Binary64.toInt64_eq hintegral, if_neg]
      omega
    · refine parseIndex?_toText (Binary64.isFinite_of_isIntegral hintegral) fun _ => ?_
      omega
  · by_cases hfinite : x.isFinite
    · have htext : Value.numberText x = x.toText := by
        simp [Value.numberText, Binary64.isNaN_of_isFinite hfinite,
          Binary64.isInfinite_of_isFinite hfinite, hintegral]
      rw [htext]
      exact parseIndex?_toText hfinite fun hin => absurd hin hintegral
    · exact parseIndex?_of_not_isFinite hfinite

end Key

end ScriptPlayer
