import Mathlib.Data.List.Nodup
import ScriptPlayer.Object.PositionIndex

/-! When a position index is right: it knows exactly the keyed places of a list. Appending, and
renumbering after a removal, keep it right. -/
namespace ScriptPlayer.PositionIndex

variable {κ α : Type}

def Distinct (keys : List (Option κ)) : Prop :=
  ∀ k (i j : Nat), keys[i]? = some (some k) → keys[j]? = some (some k) → i = j

theorem Distinct.tail {key : Option κ} {keys : List (Option κ)} (h : Distinct (key :: keys)) :
    Distinct keys := by
  intro k i j hi hj
  exact Nat.succ.inj (h k (i + 1) (j + 1) (by simpa using hi) (by simpa using hj))

variable [DecidableEq κ]

/-- The index knows each keyed place of the list and no other. -/
def Agrees (m : PositionIndex κ) (keys : List (Option κ)) : Prop :=
  ∀ k i, m.get? k = some i ↔ keys[i]? = some (some k)

theorem agrees_empty : (empty : PositionIndex κ).Agrees [] := by
  intro k i
  simp

theorem Agrees.distinct {m : PositionIndex κ} {keys : List (Option κ)} (h : m.Agrees keys) :
    Distinct keys := by
  intro k i j hi hj
  have hi := (h k i).2 hi
  rw [(h k j).2 hj] at hi
  exact (Option.some.inj hi).symm

theorem Agrees.get?_eq_none_iff {m : PositionIndex κ} {keys : List (Option κ)}
    (h : m.Agrees keys) {k : κ} : m.get? k = none ↔ some k ∉ keys := by
  rw [List.mem_iff_getElem?, Option.eq_none_iff_forall_not_mem]
  constructor
  · rintro hn ⟨i, hi⟩
    exact hn i ((h k i).2 hi)
  · intro hn i hi
    exact hn ⟨i, (h k i).1 hi⟩

theorem Agrees.append_some {m : PositionIndex κ} {keys : List (Option κ)} (h : m.Agrees keys)
    {k : κ} (hk : m.get? k = none) : (m.insert k keys.length).Agrees (keys ++ [some k]) := by
  intro k' i
  rw [get?_insert, List.getElem?_append]
  by_cases hlt : i < keys.length
  · rw [if_pos hlt]
    by_cases he : k' = k
    · have := h.get?_eq_none_iff.1 hk
      rw [if_pos he, he]
      constructor
      · intro hi
        have := Option.some.inj hi
        omega
      · intro hi
        exact absurd (List.mem_of_getElem? hi) this
    · rw [if_neg he]
      exact h k' i
  · rw [if_neg hlt]
    by_cases he : k' = k
    · rw [if_pos he, he, List.getElem?_singleton]
      constructor
      · intro hi
        have : i - keys.length = 0 := by have := Option.some.inj hi; omega
        rw [if_pos this]
      · intro hi
        split at hi
        · congr 1
          omega
        · exact absurd hi (by simp)
    · rw [if_neg he, h k' i, List.getElem?_eq_none (Nat.le_of_not_lt hlt), List.getElem?_singleton]
      constructor
      · intro hi
        exact absurd hi (by simp)
      · intro hi
        split at hi
        · exact absurd (Option.some.inj (Option.some.inj hi)).symm he
        · exact absurd hi (by simp)

theorem Agrees.append_none {m : PositionIndex κ} {keys : List (Option κ)} (h : m.Agrees keys) :
    m.Agrees (keys ++ [none]) := by
  intro k i
  rw [h k i, List.getElem?_append]
  by_cases hlt : i < keys.length
  · rw [if_pos hlt]
  · rw [if_neg hlt, List.getElem?_eq_none (Nat.le_of_not_lt hlt), List.getElem?_singleton]
    split
    · simp
    · simp

theorem getElem?_cons_sub {β : Type} {b c : β} {l : List β} {n i : Nat} :
    (n ≤ i ∧ (b :: l)[i - n]? = some c) ↔
      (i = n ∧ b = c) ∨ (n + 1 ≤ i ∧ l[i - (n + 1)]? = some c) := by
  by_cases hin : i = n
  · have hlt : ¬ n + 1 ≤ i := by omega
    simp only [hin, Nat.le_refl, Nat.sub_self, List.getElem?_cons_zero, Option.some.injEq,
      true_and]
    exact ⟨Or.inl, fun h => h.resolve_right fun h => by omega⟩
  · have hs : n ≤ i ↔ n + 1 ≤ i := by omega
    rw [hs]
    by_cases hle : n + 1 ≤ i
    · have hc : i - n = (i - (n + 1)) + 1 := by omega
      rw [hc, List.getElem?_cons_succ]
      exact ⟨Or.inr, fun h => h.resolve_left fun h => hin h.1⟩
    · exact ⟨fun h => absurd h.1 hle, fun h => absurd (h.resolve_left fun h => hin h.1).1 hle⟩

/-- Recorded positions win over older ones. -/
theorem get?_insertFrom (m : PositionIndex κ) (keyOf : α → Option κ) (n : Nat) (l : List α)
    (hd : Distinct (l.map keyOf)) (k : κ) (i : Nat) :
    (m.insertFrom keyOf n l).get? k = some i ↔
      (n ≤ i ∧ (l.map keyOf)[i - n]? = some (some k)) ∨
      (some k ∉ l.map keyOf ∧ m.get? k = some i) := by
  induction l generalizing m n with
  | nil => simp [insertFrom]
  | cons a l ih =>
    have hd' : Distinct (l.map keyOf) := hd.tail
    rw [List.map_cons, getElem?_cons_sub, List.mem_cons, not_or]
    cases ha : keyOf a with
    | none =>
      simp only [insertFrom, ha]
      rw [ih m (n + 1) hd']
      simp
    | some k₀ =>
      simp only [insertFrom, ha]
      rw [ih (m.insert k₀ n) (n + 1) hd', get?_insert]
      by_cases hk : k = k₀
      · subst hk
        have hn : some k ∉ l.map keyOf := by
          intro hmem
          obtain ⟨j, hj⟩ := List.mem_iff_getElem?.1 hmem
          have := hd k 0 (j + 1) (by simp [ha]) (by simpa using hj)
          omega
        rw [if_pos rfl]
        simp only [hn, not_false_eq_true, true_and, Option.some.injEq, and_true, not_true_eq_false,
          false_and, or_false]
        rw [or_comm, eq_comm]
      · have hk' : k₀ ≠ k := Ne.symm hk
        simp [hk, hk']

theorem Agrees.get?_erase_iff {m : PositionIndex κ} {keys : List (Option κ)} (h : m.Agrees keys)
    {k : κ} {i : Nat} (hi : keys[i]? = some (some k)) (k' : κ) (j : Nat) :
    (m.erase k).get? k' = some j ↔ m.get? k' = some j ∧ j ≠ i := by
  rw [get?_erase]
  by_cases hk : k' = k
  · rw [if_pos hk, hk]
    constructor
    · intro hj
      exact absurd hj (by simp)
    · rintro ⟨hj, hne⟩
      exact absurd (h.distinct k j i ((h k j).1 hj) hi) hne
  · rw [if_neg hk]
    constructor
    · intro hj
      refine ⟨hj, fun he => hk ?_⟩
      rw [h k' j, he, hi] at hj
      exact (Option.some.inj (Option.some.inj hj)).symm
    · exact And.left

theorem Agrees.get?_iff_of_none {m : PositionIndex κ} {keys : List (Option κ)} (h : m.Agrees keys)
    {i : Nat} (hi : keys[i]? = some none) (k : κ) (j : Nat) :
    m.get? k = some j ↔ m.get? k = some j ∧ j ≠ i := by
  constructor
  · intro hj
    refine ⟨hj, fun he => ?_⟩
    rw [h k j, he, hi] at hj
    exact absurd (Option.some.inj hj) (by simp)
  · exact And.left

theorem drop_eraseIdx (l : List α) (i : Nat) : (l.eraseIdx i).drop i = l.drop (i + 1) := by
  apply List.ext_getElem?
  intro j
  rw [List.getElem?_drop, List.getElem?_drop, List.getElem?_eraseIdx, if_neg (by omega)]
  congr 1
  omega

/-- Once the removed place is forgotten, renumbering what stood after it makes the index right. -/
theorem Agrees.renumber {m m' : PositionIndex κ} {keyOf : α → Option κ} {l : List α} {i : Nat}
    (h : m.Agrees (l.map keyOf))
    (hm : ∀ k j, m'.get? k = some j ↔ m.get? k = some j ∧ j ≠ i) :
    (m'.insertFrom keyOf i ((l.eraseIdx i).drop i)).Agrees ((l.eraseIdx i).map keyOf) := by
  have hkeys : ∀ j, ((l.drop (i + 1)).map keyOf)[j]? = (l.map keyOf)[i + 1 + j]? := by
    intro j
    rw [List.map_drop, List.getElem?_drop]
  have herase : ∀ j, ((l.eraseIdx i).map keyOf)[j]? =
      if j < i then (l.map keyOf)[j]? else (l.map keyOf)[j + 1]? := by
    intro j
    rw [List.getElem?_map, List.getElem?_eraseIdx, List.getElem?_map, List.getElem?_map]
    split
    · rfl
    · rfl
  have hmem : ∀ k, some k ∈ (l.drop (i + 1)).map keyOf ↔
      ∃ j, (l.map keyOf)[i + 1 + j]? = some (some k) := by
    intro k
    rw [List.mem_iff_getElem?]
    simp only [hkeys]
  intro k j
  rw [drop_eraseIdx, get?_insertFrom, hm k j, h k j, hkeys, hmem, herase]
  · by_cases hlt : j < i
    · rw [if_pos hlt]
      constructor
      · rintro (⟨hle, -⟩ | ⟨-, hj, -⟩)
        · omega
        · exact hj
      · intro hj
        refine Or.inr ⟨?_, hj, by omega⟩
        rintro ⟨b, hb⟩
        have := h.distinct k j _ hj hb
        omega
    · rw [if_neg hlt]
      constructor
      · rintro (⟨hle, hj⟩ | ⟨hn, hj, hne⟩)
        · rw [← hj]
          congr 1
          omega
        · exact absurd ⟨j - (i + 1), by rw [← hj]; congr 1; omega⟩ hn
      · intro hj
        refine Or.inl ⟨by omega, ?_⟩
        rw [← hj]
        congr 1
        omega
  · intro k a b ha hb
    rw [hkeys] at ha hb
    have := h.distinct k _ _ ha hb
    omega

end ScriptPlayer.PositionIndex
