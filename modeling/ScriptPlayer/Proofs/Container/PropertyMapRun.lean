import Mathlib.Data.List.Induction
import ScriptPlayer.Proofs.Container.PropertyMap

/-! Any sequence of insertions and removals on a property map, beside the same sequence on the plain
list. The entries and the index stay two pictures of one ordered map, whichever way it is read. -/
namespace ScriptPlayer

inductive SlotEdit
  | insert (name : QName) (v : Value)
  | remove (name : QName)

namespace SlotEdit

def apply (m : PropertyMap) : SlotEdit → PropertyMap
  | insert name v => (m.insert name v).2
  | remove name => (m.remove name).2

def onList (l : List (QName × Value)) : SlotEdit → List (QName × Value)
  | insert name v => Assoc.set l name v
  | remove name => Assoc.delete l name

theorem wellFormed_apply {m : PropertyMap} (h : m.WellFormed) (e : SlotEdit) :
    (apply m e).WellFormed := by
  cases e with
  | insert name v => exact h.insert name v
  | remove name => exact h.remove name

theorem entries_apply {m : PropertyMap} (h : m.WellFormed) (e : SlotEdit) :
    (apply m e).entries = onList m.entries e := by
  cases e with
  | insert name v => exact (h.insert_eq name v).2
  | remove name => exact (h.remove_eq name).2

def listAfter (edits : List SlotEdit) : List (QName × Value) := edits.foldl onList []

theorem listAfter_snoc (edits : List SlotEdit) (e : SlotEdit) :
    listAfter (edits ++ [e]) = onList (listAfter edits) e := List.foldl_append

end SlotEdit

namespace PropertyMap

def after (edits : List SlotEdit) : PropertyMap := edits.foldl SlotEdit.apply empty

theorem after_snoc (edits : List SlotEdit) (e : SlotEdit) :
    after (edits ++ [e]) = SlotEdit.apply (after edits) e := List.foldl_append

theorem wellFormed_after (edits : List SlotEdit) : (after edits).WellFormed := by
  induction edits using List.reverseRecOn with
  | nil => exact wellFormed_empty
  | append_singleton edits e ih => exact after_snoc edits e ▸ SlotEdit.wellFormed_apply ih e

theorem entries_after (edits : List SlotEdit) :
    (after edits).entries = SlotEdit.listAfter edits := by
  induction edits using List.reverseRecOn with
  | nil => rfl
  | append_singleton edits e ih =>
    rw [after_snoc, SlotEdit.listAfter_snoc, ← ih]
    exact SlotEdit.entries_apply (wellFormed_after edits) e

/-- However the property map is read, it is the ordered map `l`. -/
structure Shows (m : PropertyMap) (l : List (QName × Value)) : Prop where
  distinct : (Assoc.keys l).Nodup
  entries : m.entries = l
  index_iff : ∀ name i, m.index.get? name = some i ↔ ∃ v, l[i]? = some (name, v)
  get_iff : ∀ name v, m.get? name = some v ↔ (name, v) ∈ l
  contains_iff : ∀ name, m.contains name = true ↔ ∃ v, (name, v) ∈ l
  entryAt : ∀ i, m.entryAt? i = l[i]?
  size : m.size = l.length
  isEmpty_iff : m.isEmpty = true ↔ l = []
  hasNext_iff : ∀ cursor, m.hasNext cursor = true ↔ cursor < l.length
  next : ∀ cursor name v, l[cursor]? = some (name, v) →
    m.nextName cursor = .ok (.string name.name) ∧ m.nextValue cursor = .ok v
  next_end : ∀ cursor, l.length ≤ cursor →
    m.nextName cursor = .error (.cursorPastEnd cursor l.length) ∧
      m.nextValue cursor = .error (.cursorPastEnd cursor l.length)

/-- A property map that is `l`, and what a change makes of it. -/
structure OrderedMap (m : PropertyMap) (l : List (QName × Value)) : Prop extends m.Shows l where
  /-- the name keeps its place, and the index is not touched -/
  insert_present : ∀ name, m.contains name = true → ∃ before old later,
    l = before ++ (name, old) :: later ∧
      ∀ v, m.insert name v = (some old, ⟨before ++ (name, v) :: later, m.index⟩)
  insert_absent : ∀ name, m.contains name = false → ∀ v,
    (m.insert name v).1 = none ∧ (m.insert name v).2.Shows (l ++ [(name, v)])
  /-- the entries behind the removed one, and no others, move by one place -/
  remove_present : ∀ name, m.contains name = true → ∃ before old later,
    l = before ++ (name, old) :: later ∧
      (m.remove name).1 = some old ∧ (m.remove name).2.Shows (before ++ later) ∧
      ∀ key, (m.remove name).2.index.get? key =
        if key = name then none
        else (m.index.get? key).map fun i => if before.length < i then i - 1 else i
  remove_absent : ∀ name, m.contains name = false → m.remove name = (none, m)

variable {m : PropertyMap}

theorem WellFormed.shows (h : m.WellFormed) : m.Shows m.entries := by
  have hmem : ∀ name, m.contains name = true ↔ ∃ v, (name, v) ∈ m.entries := by
    intro name
    rw [h.contains_iff, Assoc.keys, List.mem_map]
    exact ⟨fun ⟨e, he, hname⟩ => ⟨e.2, hname ▸ he⟩, fun ⟨v, he⟩ => ⟨_, he, rfl⟩⟩
  constructor
  case distinct => exact h.nodup
  case entries => rfl
  case index_iff =>
    intro name i
    rw [h.get?_index_iff, Assoc.getElem?_keys, Option.map_eq_some_iff]
    exact ⟨fun ⟨e, he, hname⟩ => ⟨e.2, hname ▸ he⟩, fun ⟨v, he⟩ => ⟨_, he, rfl⟩⟩
  case get_iff =>
    intro name v
    rw [h.get?_eq_lookup, Assoc.lookup_eq_some_iff h.nodup]
  case contains_iff => exact hmem
  case entryAt => exact fun _ => rfl
  case size => rfl
  case isEmpty_iff => exact List.isEmpty_iff
  case hasNext_iff => exact fun _ => decide_eq_true_iff
  case next =>
    intro cursor name v he
    simp only [nextName, nextValue, entryAt?, he, and_self]
  case next_end =>
    intro cursor hle
    simp only [nextName, nextValue, entryAt?, List.getElem?_eq_none hle, size, and_self]

theorem WellFormed.orderedMap (h : m.WellFormed) : m.OrderedMap m.entries := by
  have habsent : ∀ name, m.contains name = false → name ∉ Assoc.keys m.entries :=
    fun name hc hk => Bool.false_ne_true (hc.symm.trans (h.contains_iff.2 hk))
  constructor
  case toShows => exact h.shows
  case insert_present =>
    intro name hc
    obtain ⟨before, old, later, hm⟩ := Assoc.exists_middle_of_mem (h.contains_iff.1 hc)
    exact ⟨before, old, later, hm, h.insert_middle hm⟩
  case insert_absent =>
    intro name hc v
    obtain ⟨hreply, hentries⟩ := h.insert_of_not_mem (habsent name hc) v
    exact ⟨hreply, hentries ▸ (h.insert name v).shows⟩
  case remove_present =>
    intro name hc
    obtain ⟨before, old, later, hm⟩ := Assoc.exists_middle_of_mem (h.contains_iff.1 hc)
    obtain ⟨hreply, hentries⟩ := h.remove_middle hm
    exact ⟨before, old, later, hm, hreply, hentries ▸ (h.remove name).shows,
      h.get?_index_remove hm⟩
  case remove_absent => exact fun name hc => h.remove_of_not_mem (habsent name hc)

/-- Whatever is inserted and removed, a property map is the ordered map that these changes make. -/
theorem orderedMap_after (edits : List SlotEdit) :
    (after edits).OrderedMap (SlotEdit.listAfter edits) :=
  entries_after edits ▸ (wellFormed_after edits).orderedMap

example :
    let m := after [.insert (.pub "x") (.int 0), .insert (.pub "y") (.int 1),
      .insert (.pub "z") (.int 2), .remove (.pub "x")]
    m.index.get? (.pub "z") = some 1 ∧ m.entryAt? 1 = some (.pub "z", .int 2) := by decide

end PropertyMap

end ScriptPlayer
