import ScriptPlayer.Proofs.Text.ReadBack
import ScriptPlayer.Proofs.Value.StrictEquality

/-! The entries that numbers name. A dictionary keeps an entry under the text of a number, so two
numbers share an entry if they are equal, and else only if both are whole numbers that lie beyond
the same end of the 64-bit integers and are still written through one. -/
namespace ScriptPlayer

namespace Binary64

variable {x y : Binary64}

/-- A whole number that is written through a 64-bit integer. -/
def IsShort (x : Binary64) : Prop :=
  x.isIntegral ∧ x.whole.natAbs < 1000_000_000_000_000_000_000

/-- Two numbers that become the same 64-bit integer because none is so large, or so small. -/
structure Saturate (x y : Binary64) : Prop where
  left : x.IsShort
  right : y.IsShort
  beyond : 0x8000_0000_0000_0000 ≤ x.whole ∧ 0x8000_0000_0000_0000 ≤ y.whole ∨
    x.whole ≤ -0x8000_0000_0000_0000 ∧ y.whole ≤ -0x8000_0000_0000_0000

theorem toString_int (n : Int) :
    toString n = (if decide (n < 0) then "-" else "") ++ Nat.repr n.natAbs := by
  cases n with
  | ofNat n =>
    rw [decide_eq_false (by simp), if_neg Bool.false_ne_true, String.empty_append]
    rfl
  | negSucc n =>
    rw [decide_eq_true (Int.negSucc_lt_zero n), if_pos rfl]
    rfl

theorem numberText_of_isShort (h : x.IsShort) : Value.numberText x =
    (if decide (x.toInt64 < 0) then "-" else "") ++ Nat.repr x.toInt64.natAbs := by
  rw [numberText_of_isIntegral h.1, if_pos h.2, toString_int]

theorem numberText_of_not_isShort (hfinite : x.isFinite) (h : ¬x.IsShort) :
    Value.numberText x = x.toText := by
  by_cases hintegral : x.isIntegral
  · rw [numberText_of_isIntegral hintegral, if_neg fun hlt => h ⟨hintegral, hlt⟩]
  · simp [Value.numberText, isNaN_of_isFinite hfinite, isInfinite_of_isFinite hfinite, hintegral]

/-- The greatest 64-bit integer is not represented, nor is any integer near it. -/
theorem whole_gap (h : x.isIntegral) (hlt : x.whole.natAbs < 0x8000_0000_0000_0000) :
    x.whole.natAbs + 0x400 ≤ 0x8000_0000_0000_0000 := by
  have hplace : 2 ^ (unitPlace + 10) = 0x400 * one := by
    rw [one_eq, Nat.pow_add, Nat.mul_comm]
  have hquanta := (isInteger_of_isIntegral h).quanta
  have hgap := quanta_gap (x := x) (c := 2 ^ 53) (k := unitPlace + 10) (by decide)
  rw [hplace, hquanta, ← Nat.mul_assoc, ← Nat.add_mul] at hgap
  exact Nat.le_of_mul_le_mul_right (hgap (Nat.mul_lt_mul_of_pos_right hlt one_pos)) one_pos

theorem eq_iff_whole (hx : x.isIntegral) (hy : y.isIntegral) : x.eq y ↔ x.whole = y.whole := by
  have hone : (one : Int) ≠ 0 := Int.natCast_ne_zero.2 (Nat.ne_of_gt one_pos)
  rw [eq, (isInteger_of_isIntegral hx).isNaN, (isInteger_of_isIntegral hy).isNaN,
    signedQuanta_of_isIntegral hx, signedQuanta_of_isIntegral hy]
  simp [Int.mul_eq_mul_right_iff hone]

theorem toInt64_eq_iff (hx : x.IsShort) (hy : y.IsShort) :
    x.toInt64 = y.toInt64 ↔ x.eq y ∨ x.Saturate y := by
  have hgap := whole_gap hx.1
  have hgap' := whole_gap hy.1
  rw [toInt64_eq hx.1, toInt64_eq hy.1, eq_iff_whole hx.1 hy.1]
  constructor
  · intro h
    by_cases heq : x.whole = y.whole
    · exact Or.inl heq
    · exact Or.inr ⟨hx, hy, by omega⟩
  · rintro (heq | hsaturate)
    · rw [heq]
    · have hbeyond := hsaturate.beyond
      omega

theorem natAbs_toInt64_le (h : x.isIntegral) : x.toInt64.natAbs ≤ 0x8000_0000_0000_0000 := by
  rw [toInt64_eq h]
  omega

theorem numberText_ne (hx : x.IsShort) (hfinite : y.isFinite) (hy : ¬y.IsShort) :
    Value.numberText x ≠ Value.numberText y := by
  intro h
  rw [numberText_of_isShort hx, numberText_of_not_isShort hfinite hy,
    toText_of_isFinite hfinite] at h
  have hminus := notMem_repr (c := '-') (by decide)
  have hdigits := (signed_inj (hminus _) y.minus_notMem_magnitudeText h).2
  by_cases hintegral : y.isIntegral
  · rw [magnitudeText, if_pos hintegral, repr_inj] at hdigits
    have hlarge : ¬y.whole.natAbs < 1000_000_000_000_000_000_000 := fun hlt => hy ⟨hintegral, hlt⟩
    have hleast := y.le_roundestInteger 308
    have hmost := natAbs_toInt64_le hx.1
    rw [← natAbs_whole] at hleast
    omega
  · have hpoint := point_mem_magnitudeText hintegral
    rw [← hdigits] at hpoint
    exact notMem_repr (by decide) _ hpoint

theorem numberText_eq_iff (hx : x.isFinite) (hy : y.isFinite) :
    Value.numberText x = Value.numberText y ↔ x.eq y ∨ x.Saturate y := by
  have htext : x.eq y → Value.numberText x = Value.numberText y := fun h =>
    (Value.convertsLike_of_eq World.blank.naming h).text
  by_cases hshort : x.IsShort <;> by_cases hshort' : y.IsShort
  · rw [← toInt64_eq_iff hshort hshort', numberText_of_isShort hshort,
      numberText_of_isShort hshort']
    refine ⟨fun h => ?_, fun h => by rw [h]⟩
    have hminus := notMem_repr (c := '-') (by decide)
    obtain ⟨hsign, hdigits⟩ := signed_inj (hminus _) (hminus _) h
    rw [repr_inj] at hdigits
    rw [decide_eq_decide] at hsign
    omega
  · have hne := numberText_ne hshort hy hshort'
    exact ⟨fun h => absurd h hne, fun h =>
      h.elim htext fun hsaturate => absurd hsaturate.right hshort'⟩
  · have hne := (numberText_ne hshort' hx hshort).symm
    exact ⟨fun h => absurd h hne, fun h =>
      h.elim htext fun hsaturate => absurd hsaturate.left hshort⟩
  · refine ⟨fun h => Or.inl ?_, fun h =>
      h.elim htext fun hsaturate => absurd hsaturate.left hshort⟩
    rw [numberText_of_not_isShort hx hshort, numberText_of_not_isShort hy hshort'] at h
    obtain rfl := eq_of_toText hx hy h
    simp [eq, isNaN_of_isFinite hx]

end Binary64

namespace Value

variable {a b v : Value} {names : Naming}

def isFiniteNumber : Value → Bool
  | int _ => true
  | number x => x.isFinite
  | _ => false

theorem isFinite_toNumber (h : v.isFiniteNumber) : v.toNumber.isFinite := by
  cases v with
  | int i => exact (Binary64.isInteger_ofInt32 i).finite
  | number x => exact h
  | _ => cases h

theorem toText_of_isFiniteNumber (h : v.isFiniteNumber) :
    v.toText names = numberText v.toNumber := by
  cases v with
  | int i => exact (convertsLike_of_isInteger names (Binary64.isInteger_ofInt32 i)).text
  | number x => rfl
  | _ => cases h

theorem essence_of_isFiniteNumber (h : v.isFiniteNumber) :
    v.essence = v.toNumber.rank?.map .inr := by
  cases v with
  | int i => rfl
  | number x => rfl
  | _ => cases h

theorem strictEq_iff_eq (ha : a.isFiniteNumber) (hb : b.isFiniteNumber) :
    a.strictEq b ↔ a.toNumber.eq b.toNumber := by
  rw [strictEq_iff, essence_of_isFiniteNumber ha, essence_of_isFiniteNumber hb,
    Option.map_inj_right fun _ _ => Sum.inr.inj, Binary64.eq_iff_rank?]
  simp

end Value

namespace Key

variable {a b v : Value} {names : Naming} {ns ns' : String}

theorem entry_classifyValue (names : Naming) (ns : String) (h : ∀ o, v ≠ .object o) :
    (classifyValue names v ns).entry = .content (v.toText names) := by
  rcases classifyValue_cases names ns h with heq | ⟨n, hindex, htext⟩
  · rw [heq, ← entry_asText, asText_classify]
    rfl
  · rw [hindex, htext]
    rfl

theorem text?_classifyValue (names : Naming) (ns : String) (h : ∀ o, v ≠ .object o) :
    ∃ name, (classifyValue names v ns).text? = some name := by
  rcases classifyValue_cases names ns h with heq | ⟨n, hindex, -⟩
  · rw [heq, ← text?_asText, asText_classify]
    exact ⟨_, rfl⟩
  · rw [hindex]
    exact ⟨_, rfl⟩

theorem ne_object_of_isFiniteNumber (h : v.isFiniteNumber) (o : ObjectId) : v ≠ .object o := by
  rintro rfl
  cases h

/-- Which numbers name one entry, in whatever namespaces. -/
theorem entry_eq_iff (ha : a.isFiniteNumber) (hb : b.isFiniteNumber) :
    (classifyValue names a ns).entry = (classifyValue names b ns').entry ↔
      a.strictEq b ∨ a.toNumber.Saturate b.toNumber := by
  rw [entry_classifyValue _ _ (ne_object_of_isFiniteNumber ha),
    entry_classifyValue _ _ (ne_object_of_isFiniteNumber hb), DictKey.content.injEq,
    Value.toText_of_isFiniteNumber ha, Value.toText_of_isFiniteNumber hb,
    Value.strictEq_iff_eq ha hb,
    Binary64.numberText_eq_iff (Value.isFinite_toNumber ha) (Value.isFinite_toNumber hb)]

end Key

end ScriptPlayer
