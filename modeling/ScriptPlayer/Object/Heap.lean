import ScriptPlayer.Object.Instance

/-! Counted cells for instances and functions. Each cell stores how many handles to it exist; it is
destroyed when a release brings the count to zero, and with it go the handles that it owns. Cell
numbers are never used twice. -/
namespace ScriptPlayer

structure Function where
  name : String
  captured : List Value
  code : CodeRef
deriving DecidableEq

inductive Content
  | instanceOf (i : Instance)
  | functionOf (f : Function)

def Content.handles : Content → List Value
  | instanceOf i => i.handles
  | functionOf f => f.captured

structure Cell where
  count : Nat
  content : Content

structure Heap where
  cells : List (Option Cell)

namespace Heap

def empty : Heap := ⟨[]⟩

def get? (h : Heap) (id : Nat) : Option Cell := (h.cells[id]?).join

def instance? (h : Heap) (id : Nat) : Option Instance :=
  match h.get? id with
  | some ⟨_, .instanceOf i⟩ => some i
  | _ => none

def function? (h : Heap) (id : Nat) : Option Function :=
  match h.get? id with
  | some ⟨_, .functionOf f⟩ => some f
  | _ => none

def count (h : Heap) (id : Nat) : Nat := ((h.get? id).map Cell.count).getD 0

/-- Whether a value is no handle or one to a cell of its kind. -/
def isValid (h : Heap) : Value → Bool
  | .object id => (h.instance? id).isSome
  | .function id => (h.function? id).isSome
  | _ => true

def modify (h : Heap) (id : Nat) (f : Cell → Cell) : Heap :=
  ⟨h.cells.modify id (Option.map f)⟩

def setContent (h : Heap) (id : Nat) (content : Content) : Heap :=
  h.modify id fun c => { c with content := content }

def retain (h : Heap) (v : Value) : Heap :=
  match v.cell? with
  | some id => h.modify id fun c => { c with count := c.count + 1 }
  | none => h

def retainAll (h : Heap) (vs : List Value) : Heap := vs.foldl retain h

def allocate (h : Heap) (content : Content) : Nat × Heap :=
  (h.cells.length, ⟨h.cells ++ [some ⟨1, content⟩]⟩)

def destroy (h : Heap) (id : Nat) : Heap := ⟨h.cells.set id none⟩

def cellWeight : Option Cell → Nat
  | some c => c.content.handles.length
  | none => 0

/-- The number of handles that cells own. -/
def weight (h : Heap) : Nat := (h.cells.map cellWeight).foldr Nat.add 0

private theorem foldr_map_set (f : Option Cell → Nat) (l : List (Option Cell)) (i : Nat)
    (a b : Option Cell) (h : l[i]? = some a) :
    ((l.set i b).map f).foldr Nat.add 0 + f a = (l.map f).foldr Nat.add 0 + f b := by
  induction l generalizing i with
  | nil => simp at h
  | cons x l ih =>
    cases i with
    | zero =>
      simp only [List.getElem?_cons_zero, Option.some.injEq] at h
      subst h
      simp only [List.set_cons_zero, List.map_cons, List.foldr_cons, Nat.add_eq]
      omega
    | succ i =>
      have := ih i (by simpa using h)
      simp only [List.set_cons_succ, List.map_cons, List.foldr_cons, Nat.add_eq] at *
      omega

private theorem get?_eq_some {h : Heap} {id : Nat} {c : Cell} (hc : h.get? id = some c) :
    h.cells[id]? = some (some c) := by
  simpa [get?, Option.join_eq_some_iff] using hc

theorem weight_destroy {h : Heap} {id : Nat} {c : Cell} (hc : h.get? id = some c) :
    (h.destroy id).weight + c.content.handles.length = h.weight := by
  simpa [weight, destroy, cellWeight] using
    foldr_map_set cellWeight h.cells id (some c) none (get?_eq_some hc)

theorem weight_modify_count (h : Heap) (id : Nat) (f : Nat → Nat) :
    (h.modify id fun c => { c with count := f c.count }).weight = h.weight := by
  obtain ⟨cells⟩ := h
  simp only [weight, modify]
  congr 1
  apply List.ext_getElem?
  intro i
  simp only [List.getElem?_map, List.getElem?_modify]
  cases cells[i]? with
  | none => simp
  | some o => split <;> cases o <;> simp [cellWeight]

/-- Give up handles. A cell whose last handle goes is destroyed, and what it owned is given up
in turn, before the rest of the list. -/
def releaseAll (h : Heap) : List Value → Heap
  | [] => h
  | v :: vs =>
    match v.cell? with
    | none => h.releaseAll vs
    | some id =>
      match _hc : h.get? id with
      | none => h.releaseAll vs
      | some c =>
        if c.count ≤ 1 then (h.destroy id).releaseAll (c.content.handles ++ vs)
        else (h.modify id fun c => { c with count := c.count - 1 }).releaseAll vs
termination_by vs => h.weight + vs.length
decreasing_by
  all_goals simp only [List.length_append, List.length_cons]
  · omega
  · omega
  · have := weight_destroy _hc; omega
  · rw [weight_modify_count h id (· - 1)]; omega

@[simp] theorem releaseAll_nil (h : Heap) : h.releaseAll [] = h := by rw [releaseAll]

theorem releaseAll_cons (h : Heap) (v : Value) (vs : List Value) :
    h.releaseAll (v :: vs) =
      match v.cell? with
      | none => h.releaseAll vs
      | some id =>
        match h.get? id with
        | none => h.releaseAll vs
        | some c =>
          if c.count ≤ 1 then (h.destroy id).releaseAll (c.content.handles ++ vs)
          else (h.modify id fun c => { c with count := c.count - 1 }).releaseAll vs := by
  rw [releaseAll]
  cases v.cell? with
  | none => rfl
  | some id => dsimp only; split <;> simp_all

end Heap

end ScriptPlayer
