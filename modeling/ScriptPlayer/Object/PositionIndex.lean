/-! A finite map from keys to list positions, kept beside an entry list to find an entry by key. -/
namespace ScriptPlayer

structure PositionIndex (κ : Type) where
  pairs : List (κ × Nat)

namespace PositionIndex

variable {κ : Type} [DecidableEq κ]

def empty : PositionIndex κ := ⟨[]⟩

def get? (m : PositionIndex κ) (k : κ) : Option Nat := m.pairs.lookup k

def contains (m : PositionIndex κ) (k : κ) : Bool := (m.get? k).isSome

def erase (m : PositionIndex κ) (k : κ) : PositionIndex κ :=
  ⟨m.pairs.filter fun p => p.1 != k⟩

def insert (m : PositionIndex κ) (k : κ) (i : Nat) : PositionIndex κ :=
  ⟨(k, i) :: (m.erase k).pairs⟩

/-- Record consecutive positions, starting at `i`, for the keys that `keyOf` finds in a list. -/
def insertFrom {α : Type} (m : PositionIndex κ) (keyOf : α → Option κ) :
    Nat → List α → PositionIndex κ
  | _, [] => m
  | i, a :: as =>
    match keyOf a with
    | some k => (m.insert k i).insertFrom keyOf (i + 1) as
    | none => m.insertFrom keyOf (i + 1) as

@[simp] theorem get?_empty (k : κ) : (empty : PositionIndex κ).get? k = none := rfl

theorem get?_erase (m : PositionIndex κ) (k k' : κ) :
    (m.erase k).get? k' = if k' = k then none else m.get? k' := by
  obtain ⟨l⟩ := m
  simp only [erase, get?]
  induction l with
  | nil => simp
  | cons p l ih =>
    by_cases hp : p.1 = k
    · have : (p.1 != k) = false := by simp [hp]
      rw [List.filter_cons_of_neg (by simp [hp]), ih, List.lookup_cons]
      by_cases hk : k' = k
      · simp [hk]
      · have : (k' == p.1) = false := by simp [hp, hk]
        simp [hk, this]
    · rw [List.filter_cons_of_pos (by simp [hp]), List.lookup_cons, List.lookup_cons, ih]
      by_cases hk : k' = p.1
      · have : k' ≠ k := fun h => hp (hk ▸ h)
        simp [hk, hp]
      · have : (k' == p.1) = false := by simp [hk]
        simp [this]

theorem get?_insert (m : PositionIndex κ) (k k' : κ) (i : Nat) :
    (m.insert k i).get? k' = if k' = k then some i else m.get? k' := by
  have h := get?_erase m k k'
  simp only [insert, get?, erase] at h ⊢
  rw [List.lookup_cons]
  by_cases hk : k' = k
  · simp [hk]
  · have : (k' == k) = false := by simp [hk]
    simp [this, h, hk]

end PositionIndex

end ScriptPlayer
