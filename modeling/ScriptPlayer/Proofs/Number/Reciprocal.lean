import Mathlib.Algebra.Order.Field.Basic
import Mathlib.Algebra.Order.Ring.Rat
import Mathlib.Tactic.FieldSimp
import Mathlib.Tactic.Linarith
import Mathlib.Tactic.Ring
import ScriptPlayer.Proofs.Number.Quotient

/-! Periods of rates. The period of a rate is its reciprocal in seconds, rounded to a binary64
number and then to whole nanoseconds. It is too long for a span just if the rate is no more than
2^-64, for the next rate above that one has a period below the limit. -/
namespace ScriptPlayer.Binary64

variable {x : Binary64} {num den : Nat}

def value (x : Binary64) : ℚ := x.signedQuanta / one

structure IsRate (x : Binary64) : Prop where
  finite : x.isFinite = true
  positive : (zero false).lt x = true

theorem isRate_iff : (x.isFinite && (zero false).lt x) = true ↔ x.IsRate := by
  rw [Bool.and_eq_true]
  exact ⟨fun h => ⟨h.1, h.2⟩, fun h => ⟨h.finite, h.positive⟩⟩

theorem IsRate.signedQuanta_pos (h : x.IsRate) : 0 < x.signedQuanta := by
  have hpositive := h.positive
  unfold lt at hpositive
  rw [signedQuanta_zero, isNaN_of_isFinite h.finite] at hpositive
  simp only [Bool.and_eq_true, decide_eq_true_eq] at hpositive
  exact hpositive.2

theorem IsRate.not_negative (h : x.IsRate) : x.negative = false := by
  have hpos := h.signedQuanta_pos
  unfold signedQuanta at hpos
  cases hn : x.negative with
  | false => rfl
  | true =>
    rw [hn, if_pos rfl] at hpos
    omega

theorem IsRate.signedQuanta_eq (h : x.IsRate) : x.signedQuanta = x.quanta := by
  unfold signedQuanta
  rw [h.not_negative]
  rfl

theorem IsRate.quanta_pos (h : x.IsRate) : 0 < x.quanta := by
  have hpos := h.signedQuanta_pos
  rw [h.signedQuanta_eq] at hpos
  omega

theorem IsRate.value_eq (h : x.IsRate) : x.value = x.quanta / one := by
  rw [value, h.signedQuanta_eq]
  rfl

theorem IsRate.not_zero (h : x.IsRate) : x.isZero = false := by
  refine Bool.eq_false_iff.2 fun hzero => ?_
  unfold isZero at hzero
  simp only [Bool.and_eq_true, beq_iff_eq] at hzero
  have hquanta : x.quanta = 0 := by
    unfold quanta
    rw [if_pos hzero.1, hzero.2]
  exact Nat.ne_of_gt h.quanta_pos hquanta

theorem one_div (h : x.IsRate) : (ofNat 1).div x = ofQuotient false (one * one) x.quanta := by
  obtain ⟨hsign, hnan, hinfinite, hquanta⟩ : (ofNat 1).negative = false ∧
      (ofNat 1).isNaN = false ∧ (ofNat 1).isInfinite = false ∧ (ofNat 1).quanta = one := by
    decide +kernel
  simp only [div, isNaN_of_isFinite h.finite, isInfinite_of_isFinite h.finite, h.not_negative,
    h.not_zero, hsign, hnan, hinfinite, hquanta, Bool.or_false, Bool.false_eq_true, if_false,
    Bool.bne_false]

theorem IsRate.value_le_iff (h : x.IsRate) :
    x.value ≤ 1 / 2 ^ 64 ↔ UInt64.size * x.quanta ≤ one := by
  have hone : (0 : ℚ) < one := by exact_mod_cast one_pos
  rw [h.value_eq, div_le_div_iff₀ hone (by positivity), one_mul, mul_comm]
  exact_mod_cast Iff.rfl

theorem IsRate.value_eq_of_quanta (h : x.IsRate) (hx : UInt64.size * x.quanta = one) :
    x.value = 1 / 2 ^ 64 := by
  have hone : (one : ℚ) ≠ 0 := by exact_mod_cast Nat.ne_of_gt one_pos
  rw [h.value_eq, div_eq_div_iff hone (by positivity), one_mul, mul_comm]
  exact_mod_cast hx

/-- No number lies between a power of two and the one that is larger by a part in 2^52. -/
theorem le_quanta_of_lt {k : Nat} (h : 2 ^ (52 + k) < x.quanta) :
    (2 ^ 52 + 1) * 2 ^ k ≤ x.quanta := by
  by_contra hlt
  have hgap := quanta_gap (Nat.lt_succ_self _) (Nat.lt_of_not_le hlt)
  rw [Nat.pow_add] at h
  rw [Nat.succ_mul] at hgap
  omega

/-- The reciprocal of a rate is a span in seconds just if the rate is above 2^-64. -/
theorem ofSeconds?_one_div (h : x.IsRate) :
    Nanos.ofSeconds? ((ofNat 1).div x) = none ↔ x.value ≤ 1 / 2 ^ 64 := by
  rw [h.value_le_iff, one_div h]
  constructor
  · contrapose!
    intro hlt
    have hone : one = UInt64.size * 2 ^ (52 + 958) := by decide +kernel
    have hquanta : (2 ^ 52 + 1) * 2 ^ 958 ≤ x.quanta :=
      le_quanta_of_lt (Nat.lt_of_mul_lt_mul_left (hone ▸ hlt))
    -- the next rate above the limit has the last number below 2^64 for a reciprocal
    have hnext : one * one ≤ 0x1F_FFFF_FFFF_FFFF * 2 ^ (unitPlace + 11) *
        ((2 ^ 52 + 1) * 2 ^ 958) := by decide +kernel
    have hnum := Nat.le_trans hnext (Nat.mul_le_mul_left _ hquanta)
    exact ofSeconds?_ofQuotient_ne_none h.quanta_pos (.inl rfl) hnum
  · intro hle
    have hnum : UInt64.size * one * x.quanta ≤ one * one := by
      rw [Nat.mul_right_comm]
      exact Nat.mul_le_mul_right one hle
    exact ofSeconds?_ofQuotient_eq_none h.quanta_pos hnum

/-! How near a period is to the reciprocal -/

theorem abs_roundDiv_sub (hden : 0 < den) (num : Nat) :
    |(roundDiv num den : ℚ) - num / den| ≤ 1 / 2 := by
  have hnat : 2 * num ≤ 2 * (roundDiv num den * den) + den ∧
      2 * (roundDiv num den * den) ≤ 2 * num + den := by
    have hparts := Nat.div_add_mod num den
    have hlt := Nat.mod_lt num hden
    have hsucc : (num / den + 1) * den = num / den * den + den := Nat.succ_mul ..
    rw [Nat.mul_comm] at hparts
    unfold roundDiv
    dsimp only
    split
    · omega
    · split
      · omega
      · rcases Nat.mod_two_eq_zero_or_one (num / den) with heven | hodd
        · rw [heven, Nat.add_zero]
          omega
        · rw [hodd]
          omega
  have hpos : (0 : ℚ) < den := by exact_mod_cast hden
  have hle : (2 * num : ℚ) ≤ 2 * (roundDiv num den * den) + den := by exact_mod_cast hnat.1
  have hge : (2 * (roundDiv num den * den) : ℚ) ≤ 2 * num + den := by exact_mod_cast hnat.2
  have hbelow : (num / den : ℚ) ≤ roundDiv num den + 1 / 2 := by
    rw [div_le_iff₀ hpos]
    linarith
  have habove : (roundDiv num den - 1 / 2 : ℚ) ≤ num / den := by
    rw [le_div_iff₀ hpos]
    linarith
  rw [abs_le]
  constructor <;> linarith

/-- Rounding moves a quotient by half its last place, which is no more than a quantum or one part
in 2^52. -/
theorem abs_quanta_ofQuotient_sub (hden : 0 < den)
    (hfinite : (ofQuotient false num den).isFinite) :
    |((ofQuotient false num den).quanta : ℚ) - num / den| ≤ (1 + num / den / 2 ^ 52) / 2 := by
  obtain ⟨-, hquanta⟩ := quanta_ofQuotient false hden (Or.inr hfinite)
  generalize hshift : quotientShift num den = k at hquanta
  have hpos : (0 : ℚ) < den := by exact_mod_cast hden
  have hround := abs_roundDiv_sub (Nat.mul_pos hden (Nat.two_pow_pos k)) num
  have hplace : (2 ^ k : ℚ) ≤ 1 + num / den / 2 ^ 52 := by
    have hratio : (0 : ℚ) ≤ num / den / 2 ^ 52 := by positivity
    rcases Nat.eq_zero_or_pos k with rfl | hk
    · rw [pow_zero]
      linarith
    · have hle := le_of_quotientShift (hshift ▸ Nat.ne_of_gt hk)
      rw [hshift] at hle
      have hle : (2 ^ 52 * (den * 2 ^ k) : ℚ) ≤ num := by exact_mod_cast hle
      have hpart : (2 ^ k : ℚ) ≤ num / den / 2 ^ 52 := by
        rw [le_div_iff₀ (by positivity), le_div_iff₀ hpos]
        linarith
      linarith
  have hsame : ((ofQuotient false num den).quanta : ℚ) - num / den =
      (roundDiv num (den * 2 ^ k) - num / (den * 2 ^ k : Nat)) * 2 ^ k := by
    rw [hquanta]
    push_cast
    field_simp
  have hunit : (0 : ℚ) < 2 ^ k := by positivity
  rw [hsame, abs_mul, abs_of_pos hunit]
  calc |(roundDiv num (den * 2 ^ k) : ℚ) - num / (den * 2 ^ k : Nat)| * 2 ^ k
      ≤ 1 / 2 * 2 ^ k := mul_le_mul_of_nonneg_right hround hunit.le
    _ ≤ (1 + num / den / 2 ^ 52) / 2 := by linarith

/-- How far nanoseconds `n` are from the reciprocal of `q` in units of `1 / u` if they are rounded
from seconds `d` in such units, and those from the reciprocal. -/
theorem abs_nanos_sub {n d u q : ℚ} (hq : 0 < q) (hfine : 10 ^ 9 ≤ u)
    (hround : |n - d * 10 ^ 9 / u| ≤ 1 / 2)
    (hquotient : |d - u * u / q| ≤ (1 + u * u / q / 2 ^ 52) / 2) :
    |n - 10 ^ 9 / (q / u)| ≤ 1 + 10 ^ 9 / (q / u) / 2 ^ 53 := by
  have hu : 0 < u := by linarith
  have hperiod : 10 ^ 9 / (q / u) = 10 ^ 9 / u * (u * u / q) := by field_simp
  have hscale : 0 < 10 ^ 9 / u := by positivity
  -- a unit is no more than a nanosecond
  have hunit : 10 ^ 9 / u ≤ 1 := (div_le_one hu).2 hfine
  have hseconds : |d * 10 ^ 9 / u - 10 ^ 9 / u * (u * u / q)| ≤
      1 / 2 + 10 ^ 9 / u * (u * u / q) / 2 ^ 53 := by
    calc |d * 10 ^ 9 / u - 10 ^ 9 / u * (u * u / q)|
        = 10 ^ 9 / u * |d - u * u / q| := by
          rw [← abs_of_pos hscale, ← abs_mul, abs_of_pos hscale]
          congr 1
          ring
      _ ≤ 10 ^ 9 / u * ((1 + u * u / q / 2 ^ 52) / 2) :=
          mul_le_mul_of_nonneg_left hquotient hscale.le
      _ ≤ 1 / 2 + 10 ^ 9 / u * (u * u / q) / 2 ^ 53 := by linarith
  rw [hperiod]
  calc |n - 10 ^ 9 / u * (u * u / q)|
      ≤ |n - d * 10 ^ 9 / u| + |d * 10 ^ 9 / u - 10 ^ 9 / u * (u * u / q)| := abs_sub_le ..
    _ ≤ 1 + 10 ^ 9 / u * (u * u / q) / 2 ^ 53 := by linarith

/-- What a rate has for a period, in nanoseconds. -/
structure IsPeriod (x : Binary64) (n : Nanos) : Prop where
  exact : Nanos.ofSeconds? ((ofNat 1).div x) = some n
  /-- it is the reciprocal but for one nanosecond and one part in 2^53 -/
  near : |(n : ℚ) - 10 ^ 9 / x.value| ≤ 1 + 10 ^ 9 / x.value / 2 ^ 53

theorem isPeriod_of_ofSeconds? (h : x.IsRate) {n : Nanos}
    (hn : Nanos.ofSeconds? ((ofNat 1).div x) = some n) : x.IsPeriod n := by
  refine ⟨hn, ?_⟩
  rw [one_div h] at hn
  unfold Nanos.ofSeconds? at hn
  split at hn
  · cases hn
  · rename_i hspan
    have hfinite : (ofQuotient false (one * one) x.quanta).isFinite := by
      by_contra hinfinite
      simp [hinfinite] at hspan
    obtain rfl := Option.some.inj hn
    have hquotient := abs_quanta_ofQuotient_sub h.quanta_pos hfinite
    generalize (ofQuotient false (one * one) x.quanta).quanta = d at *
    have hround := abs_roundDiv_sub one_pos (d * Nanos.perSecond)
    have hq : (0 : ℚ) < x.quanta := by exact_mod_cast h.quanta_pos
    have hfine : (10 ^ 9 : ℚ) ≤ one := by
      have hle : 10 ^ 9 ≤ one := by decide +kernel
      exact_mod_cast hle
    have hsecond : ((Nanos.perSecond : Nat) : ℚ) = 10 ^ 9 := by norm_num [Nanos.perSecond]
    rw [h.value_eq]
    rw [Nat.cast_mul, hsecond] at hround
    rw [Nat.cast_mul] at hquotient
    exact abs_nanos_sub hq hfine hround hquotient

end ScriptPlayer.Binary64
