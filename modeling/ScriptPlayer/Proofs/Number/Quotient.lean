import Mathlib.Algebra.Order.Group.Nat
import ScriptPlayer.Number.Duration
import ScriptPlayer.Proofs.Text.NumberText

/-! Quotients of binary64 numbers. A quotient is rounded to one of the two numbers next to it, so it
never gets past a number that is represented exactly. Hence the numbers whose thousandth part is too
long a span in seconds are those from a thousand times the limit on, and no others. -/
namespace ScriptPlayer.Binary64

variable {x : Binary64} {negative : Bool} {num den m k s : Nat}

theorem roundDiv_le (hden : 0 < den) (h : num ≤ m * den) : roundDiv num den ≤ m := by
  have hdiv : num / den ≤ m := Nat.div_le_of_le_mul (Nat.mul_comm m den ▸ h)
  rcases Nat.lt_or_eq_of_le hdiv with hlt | heq
  · unfold roundDiv
    dsimp only
    split
    · exact hdiv
    · split <;> omega
  · -- what is left over can only be nothing
    have hmod : num % den = 0 := by
      have hparts := Nat.div_add_mod num den
      rw [heq, Nat.mul_comm den] at hparts
      omega
    simp [roundDiv, hmod, hden, heq]

theorem le_roundDiv (hden : 0 < den) (h : m * den ≤ num) : m ≤ roundDiv num den := by
  have hdiv : m ≤ num / den := (Nat.le_div_iff_mul_le hden).2 h
  unfold roundDiv
  dsimp only
  split
  · exact hdiv
  · split <;> omega

/-- A significand of 53 bits, or one more than they hold, at its place. -/
theorem quanta_ofMagnitude (hm : m ≤ 0x20_0000_0000_0000)
    (hs : s = 0 ∨ 0x10_0000_0000_0000 ≤ m)
    (hword : s * 0x10_0000_0000_0000 + m < 2047 * 0x10_0000_0000_0000) :
    (ofMagnitude negative (s * 0x10_0000_0000_0000 + m)).isFinite ∧
      (ofMagnitude negative (s * 0x10_0000_0000_0000 + m)).quanta = m * 2 ^ s := by
  have hexponent : (s * 0x10_0000_0000_0000 + m) / 0x10_0000_0000_0000 % 2048 =
      s + m / 0x10_0000_0000_0000 := by omega
  have hfraction : (s * 0x10_0000_0000_0000 + m) % 0x10_0000_0000_0000 =
      m % 0x10_0000_0000_0000 := by omega
  have hplace : s + m / 0x10_0000_0000_0000 < 2047 := by omega
  rw [ofMagnitude, if_pos hword]
  simp only [isFinite, quanta, Fin.val_ofNat, hexponent, hfraction, bne_iff_ne]
  refine ⟨Nat.ne_of_lt hplace, ?_⟩
  rw [Nat.shiftLeft_eq]
  rcases Nat.lt_or_ge m 0x10_0000_0000_0000 with hsmall | hlarge
  · obtain rfl : s = 0 := hs.resolve_right (Nat.not_le.2 hsmall)
    rw [Nat.div_eq_of_lt hsmall, Nat.mod_eq_of_lt hsmall, if_pos rfl]
    simp
  · rcases Nat.lt_or_eq_of_le hm with hlt | rfl
    · have hone : m / 0x10_0000_0000_0000 = 1 := by omega
      have hrest : 0x10_0000_0000_0000 + m % 0x10_0000_0000_0000 = m := by omega
      rw [hone, if_neg (Nat.succ_ne_zero s), hrest, Nat.add_sub_cancel]
    · -- the significand has carried into the exponent
      have htwo : 0x20_0000_0000_0000 / 0x10_0000_0000_0000 = 2 := rfl
      rw [htwo, if_neg (Nat.succ_ne_zero _)]
      change 0x10_0000_0000_0000 * 2 ^ (s + 1) = 0x20_0000_0000_0000 * 2 ^ s
      rw [Nat.pow_succ']
      omega

def quotientShift (num den : Nat) : Nat := (num / den).log2 - 52

theorem lt_of_quotientShift (hden : 0 < den) :
    num < 0x20_0000_0000_0000 * (den * 2 ^ quotientShift num den) := by
  have hlog : (num / den).log2 + 1 ≤ 53 + quotientShift num den := by
    unfold quotientShift
    omega
  have hlt : num / den < 2 ^ (53 + quotientShift num den) :=
    Nat.lt_of_lt_of_le Nat.lt_log2_self (Nat.pow_le_pow_right (by decide) hlog)
  rw [Nat.div_lt_iff_lt_mul hden, Nat.pow_add] at hlt
  rwa [Nat.mul_comm den, ← Nat.mul_assoc]

theorem le_of_quotientShift (h : quotientShift num den ≠ 0) :
    0x10_0000_0000_0000 * (den * 2 ^ quotientShift num den) ≤ num := by
  have hlog : (num / den).log2 = 52 + quotientShift num den := by
    unfold quotientShift at h ⊢
    omega
  have hne : num / den ≠ 0 := by
    intro hzero
    rw [hzero, Nat.log2_zero] at hlog
    omega
  have hle : 2 ^ (52 + quotientShift num den) ≤ num / den := hlog ▸ Nat.log2_self_le hne
  have hden : 0 < den := Nat.pos_of_ne_zero fun hzero => hne (hzero ▸ Nat.div_zero num)
  rw [Nat.le_div_iff_mul_le hden, Nat.pow_add] at hle
  rwa [Nat.mul_comm den, ← Nat.mul_assoc]

/-- The number nearest to a quotient, unless the quotient is too large for any. -/
theorem quanta_ofQuotient (negative : Bool) (hden : 0 < den)
    (hfinite : quotientShift num den < 2045 ∨ (ofQuotient negative num den).isFinite) :
    (ofQuotient negative num den).isFinite ∧ (ofQuotient negative num den).quanta =
      roundDiv num (den * 2 ^ quotientShift num den) * 2 ^ quotientShift num den := by
  have hpos : 0 < den * 2 ^ quotientShift num den := Nat.mul_pos hden (Nat.two_pow_pos _)
  have hle : roundDiv num (den * 2 ^ quotientShift num den) ≤ 0x20_0000_0000_0000 :=
    roundDiv_le hpos (Nat.le_of_lt (lt_of_quotientShift hden))
  have hleast : quotientShift num den = 0 ∨
      0x10_0000_0000_0000 ≤ roundDiv num (den * 2 ^ quotientShift num den) :=
    or_iff_not_imp_left.2 fun h => le_roundDiv hpos (le_of_quotientShift h)
  have heq : ofQuotient negative num den = ofMagnitude negative (quotientShift num den *
      0x10_0000_0000_0000 + roundDiv num (den * 2 ^ quotientShift num den)) := by
    rw [ofQuotient, Nat.shiftLeft_eq]
    rfl
  have hword : quotientShift num den * 0x10_0000_0000_0000 +
      roundDiv num (den * 2 ^ quotientShift num den) < 2047 * 0x10_0000_0000_0000 := by
    rcases hfinite with hshift | hfinite
    · omega
    · by_contra hlarge
      rw [heq, ofMagnitude, if_neg hlarge] at hfinite
      cases hfinite
  rw [heq]
  exact quanta_ofMagnitude hle hleast hword

theorem quanta_ofQuotient_le (negative : Bool) (hden : 0 < den)
    (hm : m < 0x20_0000_0000_0000) (hleast : 0x10_0000_0000_0000 ≤ m) (hk : k < 2045)
    (h : num ≤ m * 2 ^ k * den) :
    (ofQuotient negative num den).isFinite ∧ (ofQuotient negative num den).quanta ≤ m * 2 ^ k := by
  have hshift : quotientShift num den ≤ k := by
    have hlt : num / den < 2 ^ (53 + k) := by
      refine Nat.lt_of_le_of_lt (Nat.div_le_of_le_mul (Nat.mul_comm den _ ▸ h)) ?_
      rw [Nat.pow_add]
      exact Nat.mul_lt_mul_of_pos_right hm (Nat.two_pow_pos k)
    unfold quotientShift
    rcases Nat.eq_zero_or_pos (num / den) with hzero | hpos
    · simp [hzero]
    · have := (Nat.log2_lt (Nat.ne_of_gt hpos)).2 hlt
      omega
  obtain ⟨hfinite, hquanta⟩ := quanta_ofQuotient negative hden
    (Or.inl (Nat.lt_of_le_of_lt hshift hk))
  refine ⟨hfinite, ?_⟩
  rw [hquanta]
  have hpos : 0 < den * 2 ^ quotientShift num den := Nat.mul_pos hden (Nat.two_pow_pos _)
  rcases Nat.lt_or_eq_of_le hshift with hlt | heq
  · calc roundDiv num (den * 2 ^ quotientShift num den) * 2 ^ quotientShift num den
        ≤ 0x20_0000_0000_0000 * 2 ^ quotientShift num den :=
          Nat.mul_le_mul_right _ (roundDiv_le hpos (Nat.le_of_lt (lt_of_quotientShift hden)))
      _ = 0x10_0000_0000_0000 * 2 ^ (quotientShift num den + 1) := by
          rw [Nat.pow_succ']
          omega
      _ ≤ m * 2 ^ k := Nat.mul_le_mul hleast (Nat.pow_le_pow_right (by decide) hlt)
  · rw [heq] at hpos ⊢
    refine Nat.mul_le_mul_right _ (roundDiv_le hpos ?_)
    rwa [Nat.mul_comm den, ← Nat.mul_assoc]

theorem le_quanta_ofQuotient (hden : 0 < den) (hleast : 0x10_0000_0000_0000 ≤ m)
    (hm : m < 0x20_0000_0000_0000) (hfinite : (ofQuotient negative num den).isFinite)
    (h : m * 2 ^ k * den ≤ num) : m * 2 ^ k ≤ (ofQuotient negative num den).quanta := by
  have hshift : k ≤ quotientShift num den := by
    have hle : 2 ^ (52 + k) ≤ num / den := by
      rw [Nat.le_div_iff_mul_le hden, Nat.pow_add]
      exact Nat.le_trans (Nat.mul_le_mul_right _ (Nat.mul_le_mul_right _ hleast)) h
    have hne : num / den ≠ 0 := Nat.ne_of_gt (Nat.lt_of_lt_of_le (Nat.two_pow_pos _) hle)
    have := (Nat.le_log2 hne).2 hle
    unfold quotientShift
    omega
  obtain ⟨-, hquanta⟩ := quanta_ofQuotient negative hden (Or.inr hfinite)
  rw [hquanta]
  have hpos : 0 < den * 2 ^ quotientShift num den := Nat.mul_pos hden (Nat.two_pow_pos _)
  rcases Nat.lt_or_eq_of_le hshift with hlt | heq
  · calc m * 2 ^ k ≤ 0x20_0000_0000_0000 * 2 ^ k := Nat.mul_le_mul_right _ (Nat.le_of_lt hm)
      _ = 0x10_0000_0000_0000 * 2 ^ (k + 1) := by
          rw [Nat.pow_succ']
          omega
      _ ≤ 0x10_0000_0000_0000 * 2 ^ quotientShift num den :=
          Nat.mul_le_mul_left _ (Nat.pow_le_pow_right (by decide) hlt)
      _ ≤ _ := Nat.mul_le_mul_right _ (le_roundDiv hpos (le_of_quotientShift (by omega)))
  · rw [← heq] at hpos ⊢
    refine Nat.mul_le_mul_right _ (le_roundDiv hpos ?_)
    rwa [Nat.mul_comm den, ← Nat.mul_assoc]

theorem negative_ofMagnitude (negative : Bool) (word : Nat) :
    (ofMagnitude negative word).negative = negative := by
  unfold ofMagnitude
  split <;> rfl

theorem negative_ofQuotient (negative : Bool) (num den : Nat) :
    (ofQuotient negative num den).negative = negative :=
  negative_ofMagnitude negative _

theorem quanta_ofQuotient_zero (negative : Bool) (hden : 0 < den) :
    (ofQuotient negative 0 den).quanta = 0 := by
  have hshift : quotientShift 0 den < 2045 := by simp [quotientShift]
  obtain ⟨-, hquanta⟩ := quanta_ofQuotient negative hden (Or.inl hshift)
  have hround : roundDiv 0 (den * 2 ^ quotientShift 0 den) = 0 :=
    Nat.le_zero.1 (roundDiv_le (Nat.mul_pos hden (Nat.two_pow_pos _)) (Nat.zero_le _))
  rw [hquanta, hround, Nat.zero_mul]

theorem exists_quanta (x : Binary64) : ∃ m k, m < 2 ^ 53 ∧ x.quanta = m * 2 ^ k := by
  have hfraction := x.fraction.isLt
  unfold quanta
  split
  · exact ⟨x.fraction.val, 0, by omega, by simp⟩
  · exact ⟨0x10_0000_0000_0000 + x.fraction.val, x.exponent.val - 1, by omega, Nat.shiftLeft_eq ..⟩

/-- Below a multiple of a power of two that has more than 53 bits on top of it there is no number
nearer than that power. -/
theorem quanta_gap {c : Nat} (hc : 2 ^ 52 < c) (h : x.quanta < c * 2 ^ k) :
    x.quanta + 2 ^ k ≤ c * 2 ^ k := by
  obtain ⟨m, e, hm, hquanta⟩ := x.exists_quanta
  rw [hquanta] at h ⊢
  rcases Nat.lt_or_ge e k with hlt | hge
  · -- the number is below half of the other, but for the last place
    have hhalf : m * 2 ^ e ≤ 2 ^ 52 * 2 ^ k := by
      calc m * 2 ^ e ≤ 2 ^ 53 * 2 ^ e := Nat.mul_le_mul_right _ (Nat.le_of_lt hm)
        _ = 2 ^ 52 * 2 ^ (e + 1) := by rw [← Nat.pow_add, ← Nat.pow_add]; congr 1; omega
        _ ≤ 2 ^ 52 * 2 ^ k := Nat.mul_le_mul_left _ (Nat.pow_le_pow_right (by decide) hlt)
    calc m * 2 ^ e + 2 ^ k ≤ 2 ^ 52 * 2 ^ k + 2 ^ k := Nat.add_le_add_right hhalf _
      _ = (2 ^ 52 + 1) * 2 ^ k := (Nat.succ_mul _ _).symm
      _ ≤ c * 2 ^ k := Nat.mul_le_mul_right _ hc
  · have hmultiple : m * 2 ^ e = m * 2 ^ (e - k) * 2 ^ k := by
      rw [Nat.mul_assoc, ← Nat.pow_add, Nat.sub_add_cancel hge]
    rw [hmultiple] at h ⊢
    rw [← Nat.succ_mul]
    exact Nat.mul_le_mul_right _ (Nat.lt_of_mul_lt_mul_right h)

/-! Milliseconds as seconds -/

/-- A number that can measure a span of time. -/
structure IsSpan (x : Binary64) : Prop where
  finite : x.isFinite = true
  nonnegative : x.lt (zero false) = false

instance (x : Binary64) : Decidable x.IsSpan :=
  decidable_of_iff (x.isFinite = true ∧ x.lt (zero false) = false)
    ⟨fun h => ⟨h.1, h.2⟩, fun h => ⟨h.finite, h.nonnegative⟩⟩

theorem lt_zero_eq (h : x.isFinite) : x.lt (zero false) = (x.negative && x.quanta != 0) := by
  have hnan : (zero false).isNaN = false := rfl
  rw [lt, isNaN_of_isFinite h, hnan, signedQuanta_zero, signedQuanta]
  cases x.negative with
  | false => simp
  | true =>
    rw [Bool.eq_iff_iff]
    simp
    omega

def unitPlace : Nat := 1074

theorem one_eq : one = 2 ^ unitPlace := Nat.one_shiftLeft unitPlace

theorem size_mul_one (h : m * 2 ^ k = UInt64.size) :
    UInt64.size * one = m * 2 ^ (unitPlace + k) := by
  rw [← h, one_eq, Nat.mul_assoc, ← Nat.pow_add, Nat.add_comm]

theorem div_thousand (h : x.isFinite) :
    x.div (.ofNat 1000) = ofQuotient x.negative (x.quanta * one) (1000 * one) := by
  obtain ⟨hsign, hnan, hinfinite, hzero, hquanta⟩ : (ofNat 1000).negative = false ∧
      (ofNat 1000).isNaN = false ∧ (ofNat 1000).isInfinite = false ∧
      (ofNat 1000).isZero = false ∧ (ofNat 1000).quanta = 1000 * one := by decide +kernel
  simp only [div, isNaN_of_isFinite h, isInfinite_of_isFinite h, hsign, hnan, hinfinite, hzero,
    hquanta, Bool.or_false, Bool.false_eq_true, if_false, Bool.bne_false]

/-- Just below a thousand times the limit, numbers are so far apart that the thousandth part of each
is no more than the last number below the limit. -/
theorem thousandth_le (h : x.quanta < 1000 * (UInt64.size * one)) :
    x.quanta * one ≤ 0x1F_FFFF_FFFF_FFFF * 2 ^ (unitPlace + 11) * (1000 * one) := by
  have hplace : 2 ^ (unitPlace + 21) = 2 ^ 10 * 2 ^ (unitPlace + 11) := by
    rw [← Nat.pow_add, Nat.add_comm 10]
  rw [size_mul_one (m := 2 ^ 43) (k := 21) rfl, ← Nat.mul_assoc] at h
  have hgap := quanta_gap (by decide) h
  rw [hplace] at hgap
  rw [← Nat.mul_assoc]
  refine Nat.mul_le_mul_right _ ?_
  omega

theorem IsSpan.sign (h : x.IsSpan) : x.negative = false ∨ x.quanta = 0 := by
  have hnonnegative := h.nonnegative
  rw [lt_zero_eq h.finite] at hnonnegative
  exact (Bool.and_eq_false_iff.1 hnonnegative).imp_right fun hzero => by simpa using hzero

theorem lt_zero_ofQuotient (hden : 0 < den) (hsign : negative = false ∨ num = 0)
    (hfinite : (ofQuotient negative num den).isFinite) :
    (ofQuotient negative num den).lt (zero false) = false := by
  rw [lt_zero_eq hfinite, negative_ofQuotient]
  rcases hsign with rfl | rfl
  · exact Bool.false_and _
  · rw [quanta_ofQuotient_zero _ hden]
    simp

theorem ofSeconds?_ofQuotient_ne_none (hden : 0 < den) (hsign : negative = false ∨ num = 0)
    (hnum : num ≤ 0x1F_FFFF_FFFF_FFFF * 2 ^ (unitPlace + 11) * den) :
    Nanos.ofSeconds? (ofQuotient negative num den) ≠ none := by
  obtain ⟨hfinite, hquanta⟩ := quanta_ofQuotient_le negative hden (by decide) (by decide)
    (by decide) hnum
  have hlt := lt_zero_ofQuotient hden hsign hfinite
  have hbelow : ¬UInt64.size ≤ (ofQuotient negative num den).quanta / one := by
    rw [Nat.le_div_iff_mul_le one_pos, size_mul_one (m := 2 ^ 53) (k := 11) rfl, Nat.not_le]
    have hunit := Nat.two_pow_pos (unitPlace + 11)
    omega
  simp [Nanos.ofSeconds?, hlt, hfinite, hbelow]

theorem ofSeconds?_ofQuotient_eq_none (hden : 0 < den) (hnum : UInt64.size * one * den ≤ num) :
    Nanos.ofSeconds? (ofQuotient negative num den) = none := by
  unfold Nanos.ofSeconds?
  refine if_pos ?_
  cases hfinite : (ofQuotient negative num den).isFinite with
  | false => simp
  | true =>
    rw [size_mul_one (m := 0x10_0000_0000_0000) (k := 12) rfl] at hnum
    have hquanta := le_quanta_ofQuotient hden (by decide) (by decide) hfinite hnum
    have habove : UInt64.size ≤ (ofQuotient negative num den).quanta / one := by
      rwa [Nat.le_div_iff_mul_le one_pos, size_mul_one (m := 0x10_0000_0000_0000) (k := 12) rfl]
    simp [habove]

/-- A span in milliseconds is too long in seconds just from 2^64 seconds on. -/
theorem ofSeconds?_thousandth (h : x.IsSpan) :
    Nanos.ofSeconds? (x.div (.ofNat 1000)) = none ↔ 1000 * (UInt64.size * one) ≤ x.quanta := by
  have hpos : 0 < 1000 * one := Nat.mul_pos (by decide) one_pos
  rw [div_thousand h.finite]
  constructor
  · contrapose!
    intro hlt
    have hsign : x.negative = false ∨ x.quanta * one = 0 :=
      h.sign.imp_right fun hzero => by rw [hzero, Nat.zero_mul]
    exact ofSeconds?_ofQuotient_ne_none hpos hsign (thousandth_le hlt)
  · intro hle
    have hscaled : UInt64.size * one * (1000 * one) ≤ x.quanta * one := by
      rw [← Nat.mul_assoc, Nat.mul_comm _ 1000]
      exact Nat.mul_le_mul_right one hle
    exact ofSeconds?_ofQuotient_eq_none hpos hscaled

end ScriptPlayer.Binary64
