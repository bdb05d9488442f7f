import Mathlib.Algebra.Order.Group.Nat
import ScriptPlayer.Value
import ScriptPlayer.Proofs.Number.Quotient

/-! Results that need no rounding. A magnitude of no more than 53 bits at its place is represented,
so the integer part of every number is, and so are the remainders and the sums of integers that
are small enough. -/
namespace ScriptPlayer.Binary64

variable {x y : Binary64} {negative : Bool} {m k n d : Nat} {a b : Int}

theorem roundDiv_mul (m : Nat) (hd : 0 < d) : roundDiv (m * d) d = m :=
  Nat.le_antisymm (roundDiv_le hd (Nat.le_refl _)) (le_roundDiv hd (Nat.le_refl _))

theorem quanta_ofQuanta_of_dvd (negative : Bool) (hdvd : 2 ^ quotientShift n 1 ∣ n)
    (hshift : quotientShift n 1 ≤ 2045) :
    (ofQuanta negative n).isFinite ∧ (ofQuanta negative n).quanta = n := by
  have hlt := @lt_of_quotientShift n 1 Nat.one_pos
  have hle : quotientShift n 1 ≠ 0 → _ := le_of_quotientShift
  have heq : ofQuanta negative n = ofMagnitude negative (quotientShift n 1 *
      0x10_0000_0000_0000 + roundDiv n (2 ^ quotientShift n 1)) := by
    rw [ofQuanta, ofQuotient, Nat.one_shiftLeft]
    rfl
  rw [Nat.one_mul] at hlt hle
  rw [heq]
  have hpos := Nat.two_pow_pos (quotientShift n 1)
  generalize quotientShift n 1 = s at *
  obtain ⟨c, rfl⟩ := hdvd
  rw [Nat.mul_comm (2 ^ s)] at hlt hle ⊢
  rw [roundDiv_mul c hpos]
  have hbits : c < 0x20_0000_0000_0000 := Nat.lt_of_mul_lt_mul_right hlt
  have hleast : s = 0 ∨ 0x10_0000_0000_0000 ≤ c :=
    or_iff_not_imp_left.2 fun hne => Nat.le_of_mul_le_mul_right (hle hne) hpos
  exact quanta_ofMagnitude (Nat.le_of_lt hbits) hleast (by omega)

/-- A significand of 53 bits at one of the places is kept. -/
theorem quanta_ofQuanta (negative : Bool) (hm : m < 2 ^ 53) (hk : k ≤ 2045) :
    (ofQuanta negative (m * 2 ^ k)).isFinite ∧
      (ofQuanta negative (m * 2 ^ k)).quanta = m * 2 ^ k := by
  have hshift : quotientShift (m * 2 ^ k) 1 ≤ k := by
    by_contra hlt
    have hle := @le_of_quotientShift (m * 2 ^ k) 1 (by omega)
    have hgrid : 2 ^ (k + 1) ≤ 2 ^ quotientShift (m * 2 ^ k) 1 :=
      Nat.pow_le_pow_right (by decide) (by omega)
    have hnum : m * 2 ^ k < 2 ^ 53 * 2 ^ k := Nat.mul_lt_mul_of_pos_right hm (Nat.two_pow_pos k)
    rw [Nat.pow_succ] at hgrid
    omega
  exact quanta_ofQuanta_of_dvd negative (Nat.dvd_trans (Nat.pow_dvd_pow 2 hshift)
    (Nat.dvd_mul_left _ _)) (Nat.le_trans hshift hk)

theorem exists_significand (h : x.isFinite) :
    ∃ m k, m < 2 ^ 53 ∧ k ≤ 2045 ∧ x.quanta = m * 2 ^ k := by
  have hfraction := x.fraction.isLt
  have hexponent := x.exponent.isLt
  unfold isFinite at h
  rw [bne_iff_ne] at h
  unfold quanta
  split
  · exact ⟨x.fraction.val, 0, by omega, by omega, by simp⟩
  · exact ⟨0x10_0000_0000_0000 + x.fraction.val, x.exponent.val - 1, by omega, by omega,
      Nat.shiftLeft_eq ..⟩

/-! A number is told by its sign and its magnitude. -/

theorem quanta_lt_of_exponent (h : x.exponent.val < y.exponent.val) : x.quanta < y.quanta := by
  have hx : x.quanta < 0x10_0000_0000_0000 * 2 ^ x.exponent.val := by
    have hfraction := x.fraction.isLt
    unfold quanta
    split
    · rename_i hzero
      rw [hzero]
      omega
    · obtain ⟨e, he⟩ := Nat.exists_eq_succ_of_ne_zero ‹_›
      have hpos := Nat.two_pow_pos e
      rw [he, Nat.shiftLeft_eq, Nat.succ_sub_one, Nat.pow_succ', ← Nat.mul_assoc]
      exact Nat.mul_lt_mul_of_pos_right (by omega) hpos
  have hy : 0x10_0000_0000_0000 * 2 ^ (y.exponent.val - 1) ≤ y.quanta := by
    rw [quanta, if_neg (by omega), Nat.shiftLeft_eq]
    exact Nat.mul_le_mul_right _ (Nat.le_add_right ..)
  have hpow : 2 ^ x.exponent.val ≤ 2 ^ (y.exponent.val - 1) :=
    Nat.pow_le_pow_right (by decide) (by omega)
  exact Nat.lt_of_lt_of_le hx (Nat.le_trans (Nat.mul_le_mul_left _ hpow) hy)

theorem eq_of_quanta (hsign : x.negative = y.negative) (h : x.quanta = y.quanta) : x = y := by
  have hexponent : x.exponent = y.exponent := by
    rcases Nat.lt_trichotomy x.exponent.val y.exponent.val with hlt | heq | hlt
    · exact absurd h (Nat.ne_of_lt (quanta_lt_of_exponent hlt))
    · exact Fin.ext heq
    · exact absurd h (Nat.ne_of_gt (quanta_lt_of_exponent hlt))
  have hfraction : x.fraction = y.fraction := by
    unfold quanta at h
    rw [hexponent] at h
    split at h
    · exact Fin.ext h
    · rw [Nat.shiftLeft_eq, Nat.shiftLeft_eq] at h
      have heq := Nat.eq_of_mul_eq_mul_right (Nat.two_pow_pos _) h
      exact Fin.ext (by omega)
  obtain ⟨_, _, _⟩ := x
  obtain ⟨_, _, _⟩ := y
  exact (mk.injEq ..).mpr ⟨hsign, hexponent, hfraction⟩

theorem eq_zero_of_quanta (h : x.quanta = 0) : x = zero x.negative :=
  eq_of_quanta rfl h

theorem negative_eq (h : 0 < x.quanta) : x.negative = decide (x.signedQuanta < 0) := by
  unfold signedQuanta
  cases x.negative with
  | false => simp
  | true =>
    simp only [if_true]
    exact (decide_eq_true (by omega)).symm

/-- Numbers that compare equal are the same, or are the two zeros. -/
theorem eq_cases (h : x.eq y) : x = y ∨ x = zero x.negative ∧ y = zero y.negative := by
  simp only [eq, Bool.and_eq_true, beq_iff_eq] at h
  have habs : x.quanta = y.quanta := by
    have hsigned := h.2
    unfold signedQuanta at hsigned
    split at hsigned <;> split at hsigned <;> omega
  rcases Nat.eq_zero_or_pos x.quanta with hzero | hpos
  · exact Or.inr ⟨eq_zero_of_quanta hzero, eq_zero_of_quanta (habs ▸ hzero)⟩
  · refine Or.inl (eq_of_quanta ?_ habs)
    rw [negative_eq hpos, h.2, ← negative_eq (habs ▸ hpos)]

theorem ofQuanta_quanta (h : x.isFinite) : ofQuanta x.negative x.quanta = x := by
  obtain ⟨m, k, hm, hk, hquanta⟩ := exists_significand h
  refine eq_of_quanta (negative_ofQuotient ..) ?_
  rw [hquanta]
  exact (quanta_ofQuanta x.negative hm hk).2

/-! Integers -/

/-- A finite number that is this integer. -/
structure IsInteger (x : Binary64) (a : Int) : Prop where
  finite : x.isFinite = true
  signedQuanta : x.signedQuanta = a * one

theorem isInteger_of_isIntegral (h : x.isIntegral) : x.IsInteger x.whole :=
  ⟨isFinite_of_isIntegral h, signedQuanta_of_isIntegral h⟩

namespace IsInteger

theorem quanta (h : x.IsInteger a) : x.quanta = a.natAbs * one := by
  have habs : x.signedQuanta.natAbs = x.quanta := by
    unfold Binary64.signedQuanta
    split <;> simp
  rw [← habs, h.signedQuanta, Int.natAbs_mul, Int.natAbs_natCast]

theorem nonpos_of_negative (h : x.IsInteger a) (hneg : x.negative = true) : a ≤ 0 := by
  have hquanta := h.signedQuanta
  rw [Binary64.signedQuanta, if_pos hneg] at hquanta
  have hle := mul_one_le_mul_one (a := a) (b := 0)
  omega

theorem nonneg_of_not_negative (h : x.IsInteger a) (hneg : x.negative = false) : 0 ≤ a := by
  have hquanta := h.signedQuanta
  rw [Binary64.signedQuanta, hneg] at hquanta
  have hle := mul_one_le_mul_one (a := 0) (b := a)
  simp only [Bool.false_eq_true, if_false] at hquanta
  omega

theorem eq_sign_mul (h : x.IsInteger a) :
    a = if x.negative then -(a.natAbs : Int) else a.natAbs := by
  cases hneg : x.negative with
  | true =>
    have := h.nonpos_of_negative hneg
    simp only [if_true]
    omega
  | false =>
    have := h.nonneg_of_not_negative hneg
    simp only [Bool.false_eq_true, if_false]
    omega

theorem isIntegral (h : x.IsInteger a) : x.isIntegral = true := by
  rw [Binary64.isIntegral, h.finite, h.quanta, Nat.mul_mod_left]
  rfl

theorem whole (h : x.IsInteger a) : x.whole = a := by
  rw [h.eq_sign_mul, Binary64.whole, h.quanta, Nat.mul_div_cancel _ one_pos]

theorem isNaN (h : x.IsInteger a) : x.isNaN = false := isNaN_of_isFinite h.finite

theorem lt_zero_iff (h : x.IsInteger a) : x.lt (zero false) ↔ a < 0 := by
  have hnan : (zero false).isNaN = false := rfl
  have hle := mul_one_le_mul_one (a := 0) (b := a)
  simp only [lt, h.isNaN, hnan, h.signedQuanta, signedQuanta_zero, Bool.not_false, Bool.true_and,
    decide_eq_true_eq]
  omega

theorem abs (h : x.IsInteger a) : x.abs.IsInteger a.natAbs := by
  refine ⟨h.finite, ?_⟩
  have hquanta : x.abs.signedQuanta = x.quanta := rfl
  rw [hquanta, h.quanta, Int.natCast_mul]

theorem isZero_eq_false (h : x.IsInteger a) (ha : a ≠ 0) : x.isZero = false := by
  have hpos : 0 < x.quanta := by
    rw [h.quanta]
    exact Nat.mul_pos (Int.natAbs_pos.2 ha) one_pos
  refine Bool.eq_false_iff.2 fun hzero => ?_
  simp only [isZero, Bool.and_eq_true, beq_iff_eq] at hzero
  rw [Binary64.quanta, if_pos hzero.1, hzero.2] at hpos
  exact Nat.lt_irrefl 0 hpos

end IsInteger

theorem isInteger_of_kept (h : (ofQuanta negative (n * one)).isFinite ∧
    (ofQuanta negative (n * one)).quanta = n * one) :
    (ofQuanta negative (n * one)).IsInteger (if negative then -(n : Int) else n) := by
  refine ⟨h.1, ?_⟩
  rw [signedQuanta, h.2, ofQuanta, negative_ofQuotient, Int.natCast_mul]
  split
  · exact (Int.neg_mul ..).symm
  · rfl

/-- An integer of 53 bits is represented. -/
theorem isInteger_ofQuanta (negative : Bool) (hn : n < 2 ^ 53) :
    (ofQuanta negative (n * one)).IsInteger (if negative then -(n : Int) else n) :=
  isInteger_of_kept (one_eq ▸ quanta_ofQuanta negative hn (by decide))

theorem isInteger_ofInt (ha : a.natAbs < 2 ^ 53) : (ofInt a).IsInteger a := by
  have h := isInteger_ofQuanta (decide (a < 0)) ha
  have hsign : (if decide (a < 0) then -(a.natAbs : Int) else a.natAbs) = a := by
    simp only [decide_eq_true_eq]
    omega
  rwa [hsign] at h

/-- The integer part is represented: below 2^53 as an integer of so many bits, and above it a number
is its own integer part. -/
theorem isInteger_trunc (h : x.isFinite) : x.trunc.IsInteger x.whole := by
  obtain ⟨m, k, hm, hk, hquanta⟩ := exists_significand h
  have hkept : (ofQuanta x.negative (x.quanta / one * one)).isFinite ∧
      (ofQuanta x.negative (x.quanta / one * one)).quanta = x.quanta / one * one := by
    rcases Nat.le_total k unitPlace with hle | hle
    · have hbits : x.quanta / one < 2 ^ 53 := by
        rw [Nat.div_lt_iff_lt_mul one_pos, one_eq]
        calc x.quanta = m * 2 ^ k := hquanta
          _ < 2 ^ 53 * 2 ^ k := Nat.mul_lt_mul_of_pos_right hm (Nat.two_pow_pos k)
          _ ≤ 2 ^ 53 * 2 ^ unitPlace :=
            Nat.mul_le_mul_left _ (Nat.pow_le_pow_right (by decide) hle)
      have hkept := quanta_ofQuanta (k := unitPlace) x.negative hbits (by decide)
      rwa [← one_eq] at hkept
    · have hdvd : one ∣ x.quanta := by
        rw [one_eq, hquanta]
        exact Nat.dvd_trans (Nat.pow_dvd_pow 2 hle) (Nat.dvd_mul_left _ _)
      rw [Nat.div_mul_cancel hdvd, hquanta]
      exact quanta_ofQuanta x.negative hm hk
  rw [trunc, if_pos h]
  exact isInteger_of_kept hkept

namespace IsInteger

theorem rem (hx : x.IsInteger a) (hy : y.IsInteger d) (hd : 0 < d) (hbits : d ≤ 2 ^ 53) :
    (x.rem y).IsInteger (a.tmod d) := by
  have hinfinite := isInfinite_of_isFinite hx.finite
  have hinfinite' := isInfinite_of_isFinite hy.finite
  have hzero := hy.isZero_eq_false (Int.natCast_ne_zero.2 (Nat.ne_of_gt hd))
  have hresult : x.rem y = ofQuanta x.negative (a.natAbs % d * one) := by
    simp only [Binary64.rem, hx.isNaN, hy.isNaN, hinfinite, hinfinite', hzero, Bool.or_false,
      Bool.false_eq_true, if_false]
    rw [hx.quanta, hy.quanta, Int.natAbs_natCast, Nat.mul_mod_mul_right]
  have hsign : a.tmod d = if x.negative then -((a.natAbs % d : Nat) : Int)
      else (a.natAbs % d : Nat) := by
    rw [congrArg (Int.tmod · d) hx.eq_sign_mul]
    split
    · rw [Int.neg_tmod, Int.ofNat_tmod]
    · exact (Int.ofNat_tmod ..).symm
  rw [hresult, hsign]
  exact isInteger_ofQuanta x.negative (Nat.lt_of_lt_of_le (Nat.mod_lt _ hd) hbits)

theorem add (hx : x.IsInteger a) (hy : y.IsInteger b) (hbits : (a + b).natAbs < 2 ^ 53) :
    (x.add y).IsInteger (a + b) := by
  have hsum : x.signedQuanta + y.signedQuanta = (a + b) * one := by
    rw [hx.signedQuanta, hy.signedQuanta, Int.add_mul]
  have hnatAbs : ((a + b) * (one : Int)).natAbs = (a + b).natAbs * one := by
    rw [Int.natAbs_mul, Int.natAbs_natCast]
  have hle := mul_one_le_mul_one (a := 0) (b := a + b)
  have hle' := mul_one_le_mul_one (a := a + b) (b := 0)
  simp only [Binary64.add, hx.isNaN, hy.isNaN, isInfinite_of_isFinite hx.finite,
    isInfinite_of_isFinite hy.finite, Bool.or_false, Bool.false_eq_true, if_false]
  rw [hsum, hnatAbs]
  generalize hneg : (decide ((a + b) * (one : Int) < 0) ||
    ((a + b) * (one : Int) == 0 && x.negative && y.negative)) = negative
  have h := isInteger_ofQuanta negative hbits
  have hsign : (if negative then -((a + b).natAbs : Int) else (a + b).natAbs) = a + b := by
    cases negative with
    | true =>
      simp only [Bool.or_eq_true, Bool.and_eq_true, decide_eq_true_eq, beq_iff_eq] at hneg
      simp only [if_true]
      omega
    | false =>
      simp only [Bool.or_eq_false_iff, decide_eq_false_iff_not] at hneg
      simp only [Bool.false_eq_true, if_false]
      omega
  rwa [hsign] at h

theorem remEuclid (hx : x.IsInteger a) (hy : y.IsInteger d) (hd : 0 < d) (hbits : d ≤ 2 ^ 53) :
    (x.remEuclid y).IsInteger (a % d) := by
  have hrem := hx.rem hy hd hbits
  have hsplit := Int.tmod_eq_emod (a := a) (b := d)
  have hnonneg := Int.emod_nonneg a (Int.natCast_ne_zero.2 (Nat.ne_of_gt hd))
  have hlt := Int.emod_lt_of_pos a (Int.natCast_pos.2 hd)
  rw [Int.natAbs_natCast] at hsplit
  unfold Binary64.remEuclid
  dsimp only
  split
  · have hneg := hrem.lt_zero_iff.1 ‹_›
    have hshift : a % d = a.tmod d + (d : Int).natAbs := by
      rw [Int.natAbs_natCast]
      split at hsplit <;> omega
    rw [hshift]
    exact hrem.add hy.abs (by rw [← hshift]; omega)
  · have hpos := mt hrem.lt_zero_iff.2 ‹_›
    have hsame : a % d = a.tmod d := by
      split at hsplit <;> omega
    rwa [hsame]

theorem clampToInt {lo hi : Int} (h : x.IsInteger a) (hlo : lo ≤ a) (hhi : a ≤ hi) :
    x.clampToInt lo hi = a := by
  rw [clampToInt_eq h.isNaN, h.whole]
  omega

end IsInteger

end ScriptPlayer.Binary64
