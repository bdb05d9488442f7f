import Mathlib.Data.Nat.Digits.Defs
import ScriptPlayer.Proofs.Number.Exactness

/-! What is written for a number reads back as it. So different finite numbers are written
differently, where all their digits are written. -/
namespace ScriptPlayer.Binary64

variable {x y : Binary64} {negative : Bool} {n d c places : Nat}

theorem roundDiv_mul_right (hc : 0 < c) (n d : Nat) : roundDiv (n * c) (d * c) = roundDiv n d := by
  have hlt : 2 * (n % d * c) < d * c ↔ 2 * (n % d) < d := by
    rw [← Nat.mul_assoc]
    exact Nat.mul_lt_mul_right hc
  have hlt' : d * c < 2 * (n % d * c) ↔ d < 2 * (n % d) := by
    rw [← Nat.mul_assoc]
    exact Nat.mul_lt_mul_right hc
  unfold roundDiv
  simp only [Nat.mul_div_mul_right _ _ hc, Nat.mul_mod_mul_right, hlt, hlt']

theorem ofQuotient_mul_right (hc : 0 < c) (negative : Bool) (n d : Nat) :
    ofQuotient negative (n * c) (d * c) = ofQuotient negative n d := by
  unfold ofQuotient
  rw [Nat.mul_div_mul_right _ _ hc]
  simp only [Nat.shiftLeft_eq]
  rw [Nat.mul_right_comm, roundDiv_mul_right hc]

/-! Grid points -/

theorem ofQuotient_of_onFineGrid (h : onFineGrid x places = some d) :
    ofQuotient x.negative (d * one) (Nat.pow 10 places) = x := by
  unfold onFineGrid at h
  have hreads := List.find?_some h
  exact beq_iff_eq.1 hreads

theorem one_dvd_pow_ten (h : unitPlace ≤ places) : one ∣ Nat.pow 10 places := by
  rw [one_eq]
  exact Nat.dvd_trans (Nat.pow_dvd_pow 2 h) (pow_dvd_pow_of_dvd (by decide) places)

/-- On a grid that is so fine no digit is missing. -/
theorem ofQuotient_of_finest (h : x.isFinite) (hfine : unitPlace ≤ places) :
    ofQuotient x.negative (x.quanta * Nat.pow 10 places / one * one) (Nat.pow 10 places) = x := by
  have hpos : 0 < Nat.pow 10 places := Nat.pow_pos (by decide)
  rw [Nat.div_mul_cancel (Nat.dvd_mul_left_of_dvd (one_dvd_pow_ten hfine) _)]
  calc ofQuotient x.negative (x.quanta * Nat.pow 10 places) (Nat.pow 10 places)
      = ofQuotient x.negative (x.quanta * Nat.pow 10 places) (1 * Nat.pow 10 places) := by
        rw [Nat.one_mul]
    _ = ofQuanta x.negative x.quanta := ofQuotient_mul_right hpos ..
    _ = x := ofQuanta_quanta h

theorem ofQuotient_shortestPlaces (h : x.isFinite) (fuel : Nat) :
    ∀ places, unitPlace ≤ fuel + places → places ≤ (shortestPlaces x fuel places).1 ∧
      ofQuotient x.negative ((shortestPlaces x fuel places).2 * one)
        (Nat.pow 10 (shortestPlaces x fuel places).1) = x := by
  induction fuel with
  | zero =>
    intro places hfuel
    exact ⟨Nat.le_refl _, ofQuotient_of_finest h (by omega)⟩
  | succ fuel ih =>
    intro places hfuel
    rw [shortestPlaces]
    cases hd : onFineGrid x places with
    | some d => exact ⟨Nat.le_refl _, ofQuotient_of_onFineGrid hd⟩
    | none =>
      obtain ⟨hle, hreads⟩ := ih (places + 1) (by omega)
      exact ⟨Nat.le_of_succ_le hle, hreads⟩

theorem ofQuanta_roundestInteger (h : x.isIntegral) (zeros : Nat) :
    ofQuanta x.negative (roundestInteger x zeros * one) = x := by
  have hinteger := isInteger_of_isIntegral h
  unfold roundestInteger
  refine roundestMultiple_induct (P := fun n => ofQuanta x.negative (n * one) = x)
    ?_ (fun zeros d hd => ?_) zeros
  · have hdvd : one ∣ x.quanta := hinteger.quanta ▸ Nat.dvd_mul_left ..
    rw [Nat.div_mul_cancel hdvd]
    exact ofQuanta_quanta hinteger.finite
  · unfold onCoarseGrid at hd
    have hreads := List.find?_some hd
    exact beq_iff_eq.1 hreads

/-! Texts -/

def decimals (d places : Nat) : List Char :=
  let digits := Nat.toDigits 10 (d % Nat.pow 10 places)
  List.replicate (places - digits.length) '0' ++ digits

theorem toList_fixedText (d places : Nat) : (fixedText d places).toList =
    Nat.toDigits 10 (d / Nat.pow 10 places) ++ '.' :: decimals d places := by
  simp [fixedText, decimals, ← String.length_toList]

theorem length_decimals (h : 0 < places) (d : Nat) : (decimals d places).length = places := by
  have hlt : d % Nat.pow 10 places < 10 ^ places := Nat.mod_lt _ (Nat.pow_pos (by decide))
  have hle := (Nat.length_toDigits_le_iff (by decide) h).2 hlt
  simp only [decimals, List.length_append, List.length_replicate]
  omega

theorem ofDigitChars_decimals (d places : Nat) :
    Nat.ofDigitChars 10 (decimals d places) 0 = d % Nat.pow 10 places := by
  rw [decimals, Nat.ofDigitChars_append, Nat.ofDigitChars_replicate_zero, Nat.mul_zero,
    Nat.ofDigitChars_ten_toDigits]

theorem toDigits_inj {m n : Nat} : Nat.toDigits 10 m = Nat.toDigits 10 n ↔ m = n := by
  refine ⟨fun h => ?_, fun h => h ▸ rfl⟩
  rw [← Nat.ofDigitChars_ten_toDigits (n := m), h, Nat.ofDigitChars_ten_toDigits]

theorem notMem_toDigits {c : Char} (h : ¬c.isDigit) (n : Nat) : c ∉ Nat.toDigits 10 n :=
  fun hc => h (Nat.isDigit_of_mem_toDigits (by decide) (by decide) hc)

theorem notMem_repr {c : Char} (h : ¬c.isDigit) (n : Nat) : c ∉ (Nat.repr n).toList := by
  rw [Nat.toList_repr]
  exact notMem_toDigits h n

theorem notMem_decimals {c : Char} (h : ¬c.isDigit) (d places : Nat) : c ∉ decimals d places := by
  have hzero : c ≠ '0' := fun hc => h (hc ▸ by decide)
  simp [decimals, hzero, notMem_toDigits h]

theorem fixedText_inj {d' places' : Nat} (hplaces : 0 < places) (hplaces' : 0 < places')
    (h : fixedText d places = fixedText d' places') : d = d' ∧ places = places' := by
  have hpoint : ¬Char.isDigit '.' := by decide
  rw [← String.toList_inj, toList_fixedText, toList_fixedText,
    List.append_cons_inj_of_notMem (notMem_toDigits hpoint _) (notMem_decimals hpoint _ _)] at h
  obtain ⟨hwhole, -, hdecimals⟩ := h
  obtain rfl : places = places' := by
    rw [← length_decimals hplaces d, hdecimals, length_decimals hplaces']
  have hfraction : d % Nat.pow 10 places = d' % Nat.pow 10 places := by
    rw [← ofDigitChars_decimals, hdecimals, ofDigitChars_decimals]
  refine ⟨?_, rfl⟩
  rw [← Nat.div_add_mod d (Nat.pow 10 places), toDigits_inj.1 hwhole, hfraction, Nat.div_add_mod]

theorem minus_notMem_magnitudeText (x : Binary64) : '-' ∉ x.magnitudeText.toList := by
  have hminus : ¬Char.isDigit '-' := by decide
  unfold magnitudeText
  split
  · exact notMem_repr hminus _
  · simp [toList_fixedText, notMem_toDigits hminus, notMem_decimals hminus]

theorem repr_inj {m n : Nat} : Nat.repr m = Nat.repr n ↔ m = n := by
  rw [← String.toList_inj, Nat.toList_repr, Nat.toList_repr, toDigits_inj]

theorem eq_of_magnitudeText (hx : x.isFinite) (hy : y.isFinite)
    (hsign : x.negative = y.negative) (h : x.magnitudeText = y.magnitudeText) : x = y := by
  have hpoint : ∀ {z : Binary64}, z.isIntegral → '.' ∉ z.magnitudeText.toList := fun hz => by
    rw [magnitudeText, if_pos hz]
    exact notMem_repr (by decide) _
  by_cases hintegral : x.isIntegral <;> by_cases hintegral' : y.isIntegral
  · rw [magnitudeText, magnitudeText, if_pos hintegral, if_pos hintegral', repr_inj] at h
    rw [← ofQuanta_roundestInteger hintegral 308, h, hsign]
    exact ofQuanta_roundestInteger hintegral' 308
  · exact absurd (h ▸ point_mem_magnitudeText hintegral') (hpoint hintegral)
  · exact absurd (h ▸ point_mem_magnitudeText hintegral) (hpoint hintegral')
  · have hreads := ofQuotient_shortestPlaces hx 1074 1 (by decide)
    have hreads' := ofQuotient_shortestPlaces hy 1074 1 (by decide)
    rw [magnitudeText, magnitudeText, if_neg hintegral, if_neg hintegral'] at h
    generalize shortestPlaces x 1074 1 = grid at h hreads
    generalize shortestPlaces y 1074 1 = grid' at h hreads'
    obtain ⟨hpoint, hplaces⟩ := fixedText_inj hreads.1 hreads'.1 h
    rw [← hreads.2, hplaces, hpoint, hsign]
    exact hreads'.2

theorem signed_inj {negative negative' : Bool} {digits digits' : String}
    (hdigits : '-' ∉ digits.toList) (hdigits' : '-' ∉ digits'.toList)
    (h : (if negative then "-" else "") ++ digits = (if negative' then "-" else "") ++ digits') :
    negative = negative' ∧ digits = digits' := by
  rw [← String.toList_inj] at h
  cases negative <;> cases negative' <;>
    simp only [Bool.false_eq_true, if_true, if_false, String.empty_append,
      String.toList_append] at h
  case false.false => exact ⟨rfl, String.toList_inj.1 h⟩
  case true.true => exact ⟨rfl, String.toList_inj.1 (List.append_cancel_left h)⟩
  case false.true => exact absurd (h ▸ List.mem_append_left _ (by decide)) hdigits
  case true.false => exact absurd (h ▸ List.mem_append_left _ (by decide)) hdigits'

/-- Two finite numbers with all their digits written are written differently. -/
theorem eq_of_toText (hx : x.isFinite) (hy : y.isFinite) (h : x.toText = y.toText) : x = y := by
  rw [toText_of_isFinite hx, toText_of_isFinite hy] at h
  obtain ⟨hsign, hdigits⟩ :=
    signed_inj x.minus_notMem_magnitudeText y.minus_notMem_magnitudeText h
  exact eq_of_magnitudeText hx hy hsign hdigits

end ScriptPlayer.Binary64
