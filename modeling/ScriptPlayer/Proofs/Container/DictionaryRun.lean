import Mathlib.Data.List.Induction
import ScriptPlayer.Proofs.Container.Dictionary

/-! Any sequence of operations on a dictionary, beside the same sequence on the plain list. -/
namespace ScriptPlayer

def DictKey.isObject (key : DictKey) : Bool := key.object?.isSome

inductive DictOp
  | set (key : DictKey) (v : Value)
  | delete (key : DictKey)
  | get (key : DictKey)
  | contains (key : DictKey)

inductive DictReply
  | replaced (v : Option Value)
  | removed (e : Option (DictKey × Value))
  | found (v : Option Value)
  | present (b : Bool)

namespace DictOp

def key : DictOp → DictKey
  | set key _ | delete key | get key | contains key => key

def writes (key : DictKey) : DictOp → Prop
  | set key' _ | delete key' => key' = key
  | get _ | contains _ => False

def apply (d : Dictionary) : DictOp → DictReply × Dictionary
  | set key v => ((d.set key v).map .replaced id)
  | delete key => ((d.delete key).map .removed id)
  | get key => (.found (d.get? key), d)
  | contains key => (.present (d.contains key), d)

def onList (l : List (DictKey × Value)) : DictOp → DictReply × List (DictKey × Value)
  | set key v => (.replaced (l.lookup key), Assoc.set l key v)
  | delete key => (.removed (l.find? fun e => e.1 == key), Assoc.delete l key)
  | get key => (.found (l.lookup key), l)
  | contains key => (.present (decide (key ∈ Assoc.keys l)), l)

def run {σ : Type} (step : σ → DictOp → DictReply × σ) : σ → List DictOp → List DictReply × σ
  | s, [] => ([], s)
  | s, op :: ops =>
    let (reply, s) := step s op
    let (replies, s) := run step s ops
    (reply :: replies, s)

theorem apply_eq_onList {d : Dictionary} (h : d.WellFormed) (op : DictOp) :
    (op.apply d).2.WellFormed ∧ (op.apply d).1 = (op.onList d.entries).1 ∧
      (op.apply d).2.entries = (op.onList d.entries).2 := by
  cases op with
  | set key v =>
    exact ⟨h.set key v, congrArg DictReply.replaced (h.set_eq key v).1, (h.set_eq key v).2⟩
  | delete key =>
    exact ⟨h.delete key, congrArg DictReply.removed (h.delete_eq_find? key).1,
      (h.delete_eq_find? key).2⟩
  | get key => exact ⟨h, congrArg DictReply.found (h.get?_eq_lookup key), rfl⟩
  | contains key =>
    refine ⟨h, congrArg DictReply.present ?_, rfl⟩
    rw [Bool.eq_iff_iff, h.contains_iff, decide_eq_true_iff]

theorem run_eq_onList {d : Dictionary} (h : d.WellFormed) (ops : List DictOp) :
    (run (fun d op => op.apply d) d ops).2.WellFormed ∧
      (run (fun d op => op.apply d) d ops).1 = (run (fun l op => op.onList l) d.entries ops).1 ∧
      (run (fun d op => op.apply d) d ops).2.entries =
        (run (fun l op => op.onList l) d.entries ops).2 := by
  induction ops generalizing d with
  | nil => exact ⟨h, rfl, rfl⟩
  | cons op ops ih =>
    obtain ⟨hw, hreply, hentries⟩ := apply_eq_onList h op
    obtain ⟨hw', hreplies, hentries'⟩ := ih hw
    rw [hentries] at hreplies hentries'
    exact ⟨hw', congrArg₂ List.cons hreply hreplies, hentries'⟩

theorem run_append {σ : Type} (step : σ → DictOp → DictReply × σ) (s : σ) (ops : List DictOp)
    (op : DictOp) :
    (run step s (ops ++ [op])).2 = (step (run step s ops).2 op).2 := by
  induction ops generalizing s with
  | nil => rfl
  | cons op' ops ih => exact ih (step s op').2

theorem lookup_onList (l : List (DictKey × Value)) (op : DictOp) (key : DictKey) :
    (op.onList l).2.lookup key = match op with
      | set key' v => if key = key' then some v else l.lookup key
      | delete key' => if key = key' then none else l.lookup key
      | get _ | contains _ => l.lookup key := by
  cases op with
  | set key' v => exact Assoc.lookup_set l key' key v
  | delete key' => exact Assoc.lookup_delete l key' key
  | get key' => rfl
  | contains key' => rfl

theorem lookup_onList_of_not_writes {op : DictOp} {key : DictKey} (h : ¬ op.writes key)
    (l : List (DictKey × Value)) : (op.onList l).2.lookup key = l.lookup key := by
  rw [lookup_onList]
  cases op with
  | set key' v => exact if_neg (Ne.symm h)
  | delete key' => exact if_neg (Ne.symm h)
  | get key' => rfl
  | contains key' => rfl

/-- The last operation that decides what a key holds sets it to a value. -/
def LastSet (ops : List DictOp) (key : DictKey) (v : Value) : Prop :=
  ∃ before after, ops = before ++ set key v :: after ∧ ∀ op ∈ after, ¬ op.writes key

theorem not_lastSet_nil (key : DictKey) (v : Value) : ¬ LastSet [] key v := by
  rintro ⟨before, after, h, -⟩
  exact absurd h (by simp)

theorem lastSet_append_singleton (ops : List DictOp) (op : DictOp) (key : DictKey) (v : Value) :
    LastSet (ops ++ [op]) key v ↔ op = set key v ∨ (¬ op.writes key ∧ LastSet ops key v) := by
  constructor
  · rintro ⟨before, after, h, hafter⟩
    rcases List.eq_nil_or_concat after with rfl | ⟨init, last, rfl⟩
    · exact Or.inl (List.singleton_inj.1 (List.append_inj' h rfl).2)
    · rw [List.concat_eq_append, ← List.cons_append, ← List.append_assoc] at h
      obtain ⟨hinit, hlast⟩ := List.append_inj' h rfl
      have hop : op = last := List.singleton_inj.1 hlast
      rw [List.concat_eq_append] at hafter
      exact Or.inr ⟨hop ▸ hafter last (by simp), before, init, hinit,
        fun op' hop' => hafter op' (List.mem_append_left _ hop')⟩
  · rintro (rfl | ⟨hw, before, after, rfl, hafter⟩)
    · exact ⟨ops, [], rfl, by simp⟩
    · refine ⟨before, after ++ [op], by simp, ?_⟩
      intro op' hop'
      rcases List.mem_append.1 hop' with h | h
      · exact hafter op' h
      · exact List.mem_singleton.1 h ▸ hw

theorem lookup_run_iff_lastSet (ops : List DictOp) (key : DictKey) (v : Value) :
    (run (fun l op => op.onList l) [] ops).2.lookup key = some v ↔ LastSet ops key v := by
  induction ops using List.reverseRecOn with
  | nil => simp [run, not_lastSet_nil]
  | append_singleton ops op ih =>
    rw [run_append, lastSet_append_singleton, ← ih, lookup_onList]
    cases op with
    | set key' v' =>
      by_cases hk : key' = key
      · simp [writes, hk]
      · simp [writes, hk, Ne.symm hk]
    | delete key' =>
      by_cases hk : key' = key
      · simp [writes, hk]
      · simp [writes, hk, Ne.symm hk]
    | get key' => simp [writes]
    | contains key' => simp [writes]

theorem filter_onList (l : List (DictKey × Value)) (op : DictOp) :
    (op.onList l).2.filter (fun e => e.1.isObject != op.key.isObject) =
      l.filter fun e => e.1.isObject != op.key.isObject := by
  have hp : (op.key.isObject != op.key.isObject) = false := bne_self_eq_false _
  cases op with
  | set key v => exact Assoc.filter_set (p := fun k => k.isObject != key.isObject) hp l v
  | delete key => exact Assoc.filter_delete (p := fun k => k.isObject != key.isObject) hp l
  | get key => rfl
  | contains key => rfl

theorem not_writes_of_isObject_ne {op : DictOp} {key : DictKey}
    (h : key.isObject ≠ op.key.isObject) : ¬ op.writes key := by
  intro hw
  cases op with
  | set key' v => exact h (congrArg DictKey.isObject (Eq.symm hw))
  | delete key' => exact h (congrArg DictKey.isObject (Eq.symm hw))
  | get key' => exact hw
  | contains key' => exact hw

end DictOp

namespace Dictionary

def replies (ops : List DictOp) : List DictReply :=
  (DictOp.run (fun d op => op.apply d) empty ops).1

def after (ops : List DictOp) : Dictionary :=
  (DictOp.run (fun d op => op.apply d) empty ops).2

theorem wellFormed_after (ops : List DictOp) : (after ops).WellFormed :=
  (DictOp.run_eq_onList wellFormed_empty ops).1

theorem entries_after (ops : List DictOp) :
    (after ops).entries = (DictOp.run (fun l op => op.onList l) [] ops).2 :=
  (DictOp.run_eq_onList wellFormed_empty ops).2.2

theorem get?_after_iff (ops : List DictOp) (key : DictKey) (v : Value) :
    (after ops).get? key = some v ↔ DictOp.LastSet ops key v := by
  rw [(wellFormed_after ops).get?_eq_lookup, entries_after, DictOp.lookup_run_iff_lastSet]

theorem contains_eq_isSome_get? {d : Dictionary} (h : d.WellFormed) (key : DictKey) :
    d.contains key = (d.get? key).isSome := by
  rw [Bool.eq_iff_iff, h.contains_iff, h.get?_eq_lookup, Assoc.isSome_lookup_iff]

theorem get?_apply_of_isObject_ne {d : Dictionary} (h : d.WellFormed) {op : DictOp}
    {key : DictKey} (hk : key.isObject ≠ op.key.isObject) :
    (op.apply d).2.get? key = d.get? key := by
  obtain ⟨hw, -, hentries⟩ := DictOp.apply_eq_onList h op
  rw [hw.get?_eq_lookup, hentries, h.get?_eq_lookup,
    DictOp.lookup_onList_of_not_writes (DictOp.not_writes_of_isObject_ne hk)]

/-- Whatever has been done to a dictionary: it has answered like an association list in insertion
order whose keys are objects or strings. No key stands twice, and the index knows exactly the
objects. A write replaces in place or appends, and a deletion takes out one pair. A key holds what
its last write set, and operations on one kind of key leave the other kind alone. -/
theorem refines_assoc (ops : List DictOp) :
    replies ops = (DictOp.run (fun l op => op.onList l) [] ops).1 ∧
    (after ops).entries = (DictOp.run (fun l op => op.onList l) [] ops).2 ∧
    (Assoc.keys (after ops).entries).Nodup ∧
    (∀ o i, (after ops).index.get? o = some i ↔ (after ops).keyAt? i = some (.identity o)) ∧
    (∀ key v, ((after ops).set key v).1 = (after ops).get? key ∧
      ((after ops).set key v).2.entries =
        if (after ops).contains key then Assoc.overwrite (after ops).entries key v
        else (after ops).entries ++ [(key, v)]) ∧
    (∀ key, ((after ops).delete key).1 = (after ops).entries.find? (fun e => e.1 == key) ∧
      ((after ops).delete key).2.entries = (after ops).entries.filter fun e => e.1 != key) ∧
    (∀ key v, (after ops).get? key = some v ↔ DictOp.LastSet ops key v) ∧
    (∀ key, (after ops).contains key = ((after ops).get? key).isSome) ∧
    (∀ op : DictOp,
      (op.apply (after ops)).2.entries.filter (fun e => e.1.isObject != op.key.isObject) =
        (after ops).entries.filter (fun e => e.1.isObject != op.key.isObject) ∧
      ∀ key : DictKey, key.isObject ≠ op.key.isObject →
        (op.apply (after ops)).2.get? key = (after ops).get? key ∧
        (op.apply (after ops)).2.contains key = (after ops).contains key) := by
  have h := wellFormed_after ops
  refine ⟨(DictOp.run_eq_onList wellFormed_empty ops).2.1, entries_after ops, h.nodup, ?_, ?_,
    h.delete_eq_find?, get?_after_iff ops, contains_eq_isSome_get? h, ?_⟩
  · intro o i
    rw [keyAt?, ← Assoc.getElem?_keys]
    exact h.position?_eq_some_iff (.identity o) i
  · intro key v
    rw [h.get?_eq_lookup, (h.set_eq key v).2, Assoc.set]
    refine ⟨(h.set_eq key v).1, ?_⟩
    congr 1
    exact propext (h.contains_iff key).symm
  · intro op
    obtain ⟨hw, -, hentries⟩ := DictOp.apply_eq_onList h op
    refine ⟨by rw [hentries, DictOp.filter_onList], fun key hk => ?_⟩
    have hget := get?_apply_of_isObject_ne h hk
    exact ⟨hget, by rw [contains_eq_isSome_get? hw, hget, contains_eq_isSome_get? h]⟩

end Dictionary

end ScriptPlayer
