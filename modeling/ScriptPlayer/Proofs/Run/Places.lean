import ScriptPlayer.Proofs.Container.DictionaryRun
import ScriptPlayer.Proofs.Run.Bytes
import ScriptPlayer.Proofs.Run.Guards

/-! Where an instance keeps what a key names: in a slot, in an entry of a dictionary, in a byte.
Reads, writes, deletions and questions for a key all come to one such place, and to the traits that
have the key's name. -/
namespace ScriptPlayer

inductive Place
  | slot (name : QName)
  | entry (key : DictKey)
  | byte (n : Nat)
deriving DecidableEq

/-- The entry that a dictionary takes a key for: an index goes by its text, a namespace is left
out. -/
def Key.entry (key : Key) : DictKey :=
  match key.name with
  | .qualified name => .content name
  | .index n => .content (key.spelling.getD (indexText n))
  | .identity o => .identity o

namespace Instance

variable {i j : Instance} {t t' : ClassTable} {key : Key} {p : Place} {v : Value}

/-- The place that a key names in an instance. -/
def place? (i : Instance) (key : Key) : Option Place :=
  match i.backing.kind, key.name with
  | .dictionary, _ => some (.entry key.entry)
  | .bytes, .index n => some (.byte n.toNat)
  | _, _ => key.text?.map .slot

def traitName? (i : Instance) (key : Key) : Option QName :=
  match i.backing.kind, key.name with
  | .bytes, .index _ => none
  | _, _ => key.text?

def at? (i : Instance) : Place → Option Value
  | .slot name => i.slots.get? name
  | .entry key =>
    match i.backing with
    | .dictionary d => d.get? key
    | _ => none
  | .byte n =>
    match i.backing with
    | .bytes b => b.toList[n]?.map fun byte => .int (Int32.ofNat byte.toNat)
    | _ => none

/-- What is kept under a key. -/
def kept? (i : Instance) (key : Key) : Option Value := (i.place? key).bind i.at?

def takes (i : Instance) (key : Key) : Bool :=
  match i.backing.kind, key.name with
  | .plain, .index _ | .host, .index _ => false
  | _, _ => true

theorem WellFormed.contains_slot (hi : i.WellFormed) (name : QName) :
    i.slots.contains name = (i.slots.get? name).isSome := by
  rw [hi.slots.contains_eq, hi.slots.get?_eq_lookup]

section Reading

attribute [local simp] place? traitName? at? kept? takes Key.entry Key.text? Key.qualified
  Key.indexSpelling? Backing.kind

theorem WellFormed.has_eq (hi : i.WellFormed) (t : ClassTable) (key : Key) :
    i.has t key = ((i.kept? key).isSome || (i.traitName? key).any (i.hasTrait t)) := by
  obtain ⟨ns, name, spelling⟩ := key
  have hslot := hi.contains_slot
  cases hb : i.backing with
  | dictionary d =>
    have hnone : ∀ name, i.slots.get? name = none := fun name => by
      rw [hi.slots.get?_eq_lookup, hi.slotless d hb]
      rfl
    have hcontains := Dictionary.contains_eq_isSome_get? (hi.dictionary d hb)
    cases name with
    | identity o =>
      simpa [has, hb, Dictionary.contains] using hcontains (.identity o)
    | _ => simp [has, hasNamed, content?, hb, hslot, hnone, Dictionary.get?]
  | bytes b =>
    cases name with
    | index n =>
      have hlt : b.toList[n.toNat]?.isSome ↔ n.toNat < b.length := by
        rw [Option.isSome_iff_ne_none, ne_eq, ByteBuffer.getElem?_eq_none_iff, Nat.not_le]
      rw [Bool.eq_iff_iff]
      simp [has, hb, hlt]
    | _ => simp [has, hasNamed, content?, hb, hslot]
  | _ => cases name <;> simp [has, hasNamed, content?, hb, hslot]

/-! Reads -/

theorem read_of_kept (hk : i.takes key) (h : i.kept? key = some v) :
    i.read t key = .ok (.value v) := by
  obtain ⟨ns, name, spelling⟩ := key
  cases hb : i.backing with
  | bytes b =>
    cases name with
    | index n =>
      obtain ⟨byte, hbyte, rfl⟩ := Option.map_eq_some_iff.1
        (by simpa [hb] using h : b.toList[n.toNat]?.map _ = some v)
      exact read_index hb rfl (ByteBuffer.get_of_some hbyte)
    | _ => simp_all [read, resolve_of_bytes hb, content?, lookup]
  | _ =>
    cases name <;> simp_all [read, resolve, readsIndexAsText, content?, Dictionary.get?, lookup]

theorem read_of_trait {name : QName} (hi : i.WellFormed) (hk : i.takes key)
    (h : i.kept? key = none) (hname : i.traitName? key = some name) :
    i.read t key = .ok (i.traitAnswer t name) := by
  obtain ⟨ns, kname, spelling⟩ := key
  cases hb : i.backing with
  | dictionary d =>
    have hslot : i.slots.get? name = none := by
      rw [hi.slots.get?_eq_lookup, hi.slotless d hb]
      rfl
    rw [← lookup_of_no_slot hslot]
    cases kname <;> simp_all [read, resolve, readsIndexAsText, content?, Dictionary.get?]
  | _ =>
    have hslot : i.slots.get? name = none := by
      cases kname <;> simp_all
    rw [← lookup_of_no_slot hslot]
    cases kname <;> simp_all [read, resolve, readsIndexAsText, content?]

theorem read_of_nothing (h : i.kept? key = none) (hname : i.traitName? key = none) :
    ∀ found, i.read t key = .ok found → found = .absent := by
  obtain ⟨ns, kname, spelling⟩ := key
  intro found hfound
  cases hb : i.backing with
  | bytes b =>
    cases kname with
    | index n =>
      have hnone : b.toList[n.toNat]? = none := by simpa [hb] using h
      rw [read_index_error hb rfl
        (ByteBuffer.get_of_length_le (ByteBuffer.getElem?_eq_none_iff.1 hnone))] at hfound
      cases hfound
    | _ => simp_all [read, resolve_of_bytes hb, noObjectKeys]
  | _ =>
    cases kname <;> simp_all [read, resolve, readsIndexAsText, Dictionary.get?, noObjectKeys]

theorem handles_of_not_takes (hk : i.takes key = false) : key.handles = [] := by
  obtain ⟨ns, kname, spelling⟩ := key
  cases hb : i.backing <;> cases kname <;> simp_all [Key.handles]

theorem read_of_not_takes (hk : i.takes key = false) :
    i.read t key = .error (.abort (.notIndexable (i.className t))) := by
  obtain ⟨ns, kname, spelling⟩ := key
  cases hb : i.backing <;> cases kname <;>
    simp_all [read, resolve, readsIndexAsText, notIndexable]

end Reading

/-! Writes and deletions -/

inductive Stores (i : Instance) (key : Key) (v : Value) : Instance → Prop
  | slot {name : QName} (hp : i.place? key = some (.slot name)) :
      Stores i key v { i with slots := (i.slots.insert name v).2 }
  | entry {d : Dictionary} (hb : i.backing = .dictionary d) :
      Stores i key v { i with backing := .dictionary (d.set key.entry v).2 }
  | byte {b b' : ByteBuffer} {n : UInt32} (hb : i.backing = .bytes b) (hn : key.name = .index n)
      (hset : b.set n.toNat (toByte v) = .ok b') : Stores i key v { i with backing := .bytes b' }

inductive Removes (i : Instance) (key : Key) : Instance → Prop
  | slot {name : QName} (hp : i.place? key = some (.slot name)) (hc : i.slots.contains name) :
      Removes i key { i with slots := (i.slots.remove name).2 }
  | entry {d : Dictionary} {v : Value} (hb : i.backing = .dictionary d)
      (hv : d.get? key.entry = some v) :
      Removes i key { i with backing := .dictionary (d.delete key.entry).2 }

/-! What a key comes to when an index may be read as text -/

theorem text?_of_resolve {name : String} (h : (i.resolve key).name = .qualified name) :
    key.text? = some ⟨(i.resolve key).ns, name⟩ := by
  obtain ⟨ns, kname, spelling⟩ := key
  unfold resolve at h ⊢
  cases ht : i.readsIndexAsText <;> cases kname <;>
    simp_all [Key.indexSpelling?, Key.qualified, Key.text?]

theorem index_of_resolve {n : UInt32} (h : (i.resolve key).name = .index n) :
    key.name = .index n ∧ i.readsIndexAsText = false := by
  obtain ⟨ns, kname, spelling⟩ := key
  unfold resolve at h
  cases ht : i.readsIndexAsText <;> cases kname <;>
    simp_all [Key.indexSpelling?, Key.qualified]

theorem identity_of_resolve {o : ObjectId} (h : (i.resolve key).name = .identity o) :
    key.name = .identity o := by
  obtain ⟨ns, kname, spelling⟩ := key
  unfold resolve at h
  cases ht : i.readsIndexAsText <;> cases kname <;>
    simp_all [Key.indexSpelling?, Key.qualified]

theorem entry_of_text? {name : QName} (h : key.text? = some name) :
    key.entry = .content name.name := by
  obtain ⟨ns, kname, spelling⟩ := key
  cases kname <;> simp_all [Key.text?, Key.entry] <;> simp [← h]

theorem place?_of_resolve {name : String} (h : (i.resolve key).name = .qualified name)
    (hd : ∀ d, i.backing ≠ .dictionary d) :
    i.place? key = some (.slot ⟨(i.resolve key).ns, name⟩) ∧
      i.traitName? key = some ⟨(i.resolve key).ns, name⟩ := by
  have htext := text?_of_resolve h
  cases hb : i.backing with
  | dictionary d => exact absurd hb (hd d)
  | bytes b =>
    have hname := h
    rw [resolve_of_bytes hb] at hname
    simp [place?, traitName?, hb, Backing.kind, hname, htext]
  | _ => cases hk : key.name <;> simp [place?, traitName?, hb, Backing.kind, htext]

theorem stores_of_write (h : i.write t key v = .ok (.stored j)) : i.Stores key v j := by
  unfold write at h
  simp only at h
  cases hn : (i.resolve key).name with
  | qualified name =>
    rw [hn] at h
    dsimp only at h
    split at h
    · rename_i d hb
      obtain rfl := Written.stored.inj (Except.ok.inj h)
      have hstores : i.Stores key v { i with backing := .dictionary (d.set key.entry v).2 } :=
        .entry hb
      rwa [entry_of_text? (text?_of_resolve hn)] at hstores
    · rename_i hd
      split at h
      · cases h
      · obtain rfl := Written.stored.inj (Except.ok.inj h)
        exact .slot (place?_of_resolve hn hd).1
  | index n =>
    rw [hn] at h
    dsimp only at h
    split at h
    · rename_i b hb
      split at h
      · rename_i b' hset
        obtain rfl := Written.stored.inj (Except.ok.inj h)
        exact .byte hb (index_of_resolve hn).1 hset
      · cases h
    · cases h
  | identity o =>
    rw [hn] at h
    dsimp only at h
    split at h
    · rename_i d hb
      obtain rfl := Written.stored.inj (Except.ok.inj h)
      have hstores : i.Stores key v { i with backing := .dictionary (d.set key.entry v).2 } :=
        .entry hb
      rwa [Key.entry, identity_of_resolve hn] at hstores
    · cases h

theorem setter?_of_write {f : FunctionId} (h : i.write t key v = .ok (.setter f)) :
    ∃ name, i.traitName? key = some name ∧ i.setter? t name = some f := by
  unfold write at h
  simp only at h
  cases hn : (i.resolve key).name with
  | qualified name =>
    rw [hn] at h
    dsimp only at h
    split at h
    · cases h
    · rename_i hd
      split at h
      · rename_i f' hf
        obtain rfl := Written.setter.inj (Except.ok.inj h)
        exact ⟨_, (place?_of_resolve hn hd).2, hf⟩
      · cases h
  | index n =>
    rw [hn] at h
    dsimp only at h
    split at h
    · split at h <;> cases h
    · cases h
  | identity o =>
    rw [hn] at h
    dsimp only at h
    split at h <;> cases h

theorem removes_of_removeSlot {name : QName} (hp : i.place? key = some (.slot name))
    (h : i.removeSlot t name = .ok (some j)) : i.Removes key j := by
  unfold removeSlot at h
  split at h
  · rename_i hc
    obtain rfl := Option.some.inj (Except.ok.inj h)
    exact .slot hp hc
  · split at h <;> cases h

theorem removes_of_delete {d d' : Dictionary} {e : DictKey × Value} (hi : i.WellFormed)
    (hb : i.backing = .dictionary d) (hdelete : d.delete key.entry = (some e, d')) :
    i.Removes key { i with backing := .dictionary d' } := by
  cases hget : d.get? key.entry with
  | none =>
    rw [(hi.dictionary d hb).delete_of_get?_eq_none hget] at hdelete
    cases hdelete
  | some v =>
    have hremoves := Removes.entry hb hget
    rwa [hdelete] at hremoves

theorem removes_of_remove (hi : i.WellFormed) (h : i.remove t key = .ok (some j)) :
    i.Removes key j := by
  unfold remove at h
  simp only at h
  cases hn : (i.resolve key).name with
  | qualified name =>
    rw [hn] at h
    dsimp only at h
    split at h
    · rename_i d hb
      split at h
      · rename_i e d' hdelete
        obtain rfl := Option.some.inj (Except.ok.inj h)
        have hentry := entry_of_text? (text?_of_resolve hn)
        exact removes_of_delete hi hb (by rw [hentry]; exact hdelete)
      · exact absurd h (hi.removeSlot_ne_some hb _)
    · rename_i hd
      exact removes_of_removeSlot (place?_of_resolve hn hd).1 h
  | index n =>
    rw [hn] at h
    dsimp only at h
    split at h <;> cases h
  | identity o =>
    rw [hn] at h
    dsimp only at h
    split at h
    · rename_i d hb
      split at h
      · rename_i e d' hdelete
        obtain rfl := Option.some.inj (Except.ok.inj h)
        have hentry : key.entry = .identity o := by rw [Key.entry, identity_of_resolve hn]
        exact removes_of_delete hi hb (by rw [hentry]; exact hdelete)
      · cases h
    · cases h

theorem exists_remove_of_slot {name : QName} (hi : i.WellFormed) (hk : i.takes key)
    (hp : i.place? key = some (.slot name)) (hslot : (i.slots.get? name).isSome) :
    ∃ j, i.remove t key = .ok (some j) := by
  have hremove : i.removeSlot t name = .ok (some _) := if_pos (hi.contains_slot name ▸ hslot)
  obtain ⟨ns, kname, spelling⟩ := key
  cases hb : i.backing <;> cases kname <;>
    simp_all [remove, resolve, readsIndexAsText, Key.indexSpelling?, Key.qualified, Key.text?,
      place?, Backing.kind, takes]

theorem exists_remove_of_entry {d : Dictionary} (hi : i.WellFormed) (hb : i.backing = .dictionary d)
    (hv : (d.get? key.entry).isSome) : ∃ j, i.remove t key = .ok (some j) := by
  obtain ⟨v, hv⟩ := Option.isSome_iff_exists.1 hv
  have hdelete : d.delete key.entry = (some (key.entry, v), (d.delete key.entry).2) :=
    Prod.ext ((hi.dictionary d hb).delete_of_get?_eq_some hv) rfl
  obtain ⟨ns, kname, spelling⟩ := key
  cases kname with
  | identity o =>
    have hd : d.deleteIdentity o = _ := hdelete
    simp [remove, resolve, readsIndexAsText, Key.indexSpelling?, hb, hd]
  | qualified name =>
    have hd : d.deleteContent name = _ := hdelete
    simp [remove, resolve, readsIndexAsText, Key.indexSpelling?, hb, hd]
  | index n =>
    have hd : d.deleteContent (spelling.getD (Key.indexText n)) = _ := hdelete
    simp [remove, resolve, readsIndexAsText, Key.indexSpelling?, Key.qualified, hb, hd]

/-- What is kept can be taken out, unless it is a byte. -/
theorem exists_remove_of_kept (hi : i.WellFormed) (hk : i.takes key) (hkept : (i.kept? key).isSome)
    (hbyte : ∀ n, i.place? key ≠ some (.byte n)) : ∃ j, i.remove t key = .ok (some j) := by
  unfold kept? at hkept
  cases hp : i.place? key with
  | none =>
    rw [hp] at hkept
    cases hkept
  | some p =>
    rw [hp, Option.bind_some] at hkept
    cases p with
    | slot name => exact exists_remove_of_slot hi hk hp hkept
    | entry e =>
      cases hb : i.backing with
      | dictionary d =>
        obtain rfl : key.entry = e := by simpa [place?, hb, Backing.kind] using hp
        exact exists_remove_of_entry hi hb (by simpa [at?, hb] using hkept)
      | _ => simp [at?, hb] at hkept
    | byte n => exact absurd hp (hbyte n)

/-! What is kept afterwards -/

theorem place?_congr (hb : j.backing.kind = i.backing.kind) (key : Key) :
    j.place? key = i.place? key := by
  unfold place?
  rw [hb]

theorem traitName?_congr (hb : j.backing.kind = i.backing.kind) (key : Key) :
    j.traitName? key = i.traitName? key := by
  unfold traitName?
  rw [hb]

theorem Stores.kind_eq (h : i.Stores key v j) : j.backing.kind = i.backing.kind := by
  cases h with
  | slot hp => rfl
  | entry hb | byte hb => rw [hb]; rfl

theorem Stores.isSome_kept? (hi : i.WellFormed) (h : i.Stores key v j) : (j.kept? key).isSome := by
  have hplace := place?_congr h.kind_eq key
  unfold kept?
  rw [hplace]
  cases h with
  | slot hp =>
    rw [hp, Option.bind_some, at?, hi.slots.get?_insert, if_pos rfl]
    rfl
  | @entry d hb =>
    have hd := hi.dictionary d hb
    have hp : i.place? key = some (.entry key.entry) := by simp [place?, hb, Backing.kind]
    rw [hp, Option.bind_some]
    change ((d.set key.entry v).2.get? key.entry).isSome
    rw [hd.get?_set, if_pos rfl]
    rfl
  | @byte b b' n hb hn hset =>
    have hp : i.place? key = some (.byte n.toNat) := by simp [place?, hb, Backing.kind, hn]
    rw [hp, Option.bind_some]
    change (b'.toList[n.toNat]?.map _).isSome
    rw [Option.isSome_map, ByteBuffer.getElem?_of_set hset]
    rfl

end Instance

/-- One slot or one entry of a dictionary is gone, and all else of an instance is as it was. -/
inductive Instance.Loses (i : Instance) : Place → Instance → Prop
  | slot {name : QName} {v : Value} {l l' : List (QName × Value)} {m : PropertyMap}
      (before : i.slots.entries = l ++ (name, v) :: l') (after : m.entries = l ++ l') :
      Loses i (.slot name) { i with slots := m }
  | entry {key : DictKey} {v : Value} {l l' : List (DictKey × Value)} {d d' : Dictionary}
      (hb : i.backing = .dictionary d) (before : d.entries = l ++ (key, v) :: l')
      (after : d'.entries = l ++ l') : Loses i (.entry key) { i with backing := .dictionary d' }

namespace Instance

variable {i j : Instance} {key : Key} {p : Place}

theorem Removes.loses (hi : i.WellFormed) (h : i.Removes key j) :
    ∃ p, i.place? key = some p ∧ i.Loses p j := by
  cases h with
  | @slot name hp hc =>
    obtain ⟨l, v, l', hl⟩ := Assoc.exists_middle_of_mem (hi.slots.contains_iff.1 hc)
    exact ⟨_, hp, .slot hl (hi.slots.remove_middle hl).2⟩
  | @entry d v hb hv =>
    have hd := hi.dictionary d hb
    have hp : i.place? key = some (.entry key.entry) := by simp [place?, hb, Backing.kind]
    rw [hd.get?_eq_lookup] at hv
    obtain ⟨l, l', hl, -⟩ := List.lookup_eq_some_iff.1 hv
    have hn := hd.nodup
    refine ⟨_, hp, .entry hb hl ((hd.delete_eq_find? key.entry).2.trans ?_)⟩
    rw [hl] at hn ⊢
    exact Assoc.delete_middle hn

theorem Loses.kind_eq (h : i.Loses p j) : j.backing.kind = i.backing.kind := by
  cases h with
  | slot before after => rfl
  | entry hb before after => rw [hb]; rfl

theorem Loses.isSome_at? (hi : i.WellFormed) (h : i.Loses p j) : (i.at? p).isSome := by
  cases h with
  | slot before after =>
    rw [at?, hi.slots.get?_eq_lookup, Assoc.isSome_lookup_iff, before]
    simp
  | @entry key v l l' d d' hb before after =>
    rw [at?, hb]
    change (d.get? key).isSome
    rw [(hi.dictionary d hb).get?_eq_lookup, Assoc.isSome_lookup_iff, before]
    simp

theorem Loses.at?_eq (hi : i.WellFormed) (hj : j.WellFormed) (h : i.Loses p j) (p' : Place) :
    j.at? p' = if p' = p then none else i.at? p' := by
  cases h with
  | @slot name v l l' m before after =>
    have hn := hi.slots.nodup
    have hget : ∀ name', m.get? name' = if name' = name then none else i.slots.get? name' := by
      intro name'
      rw [hj.slots.get?_eq_lookup, hi.slots.get?_eq_lookup, after, before,
        ← Assoc.delete_middle (before ▸ hn), Assoc.lookup_delete]
    cases p' with
    | slot name' => simpa [at?] using hget name'
    | _ => simp [at?]
  | @entry key v l l' d d' hb before after =>
    have hd := hi.dictionary d hb
    have hd' := hj.dictionary d' rfl
    have hn := hd.nodup
    have hget : ∀ key', d'.get? key' = if key' = key then none else d.get? key' := by
      intro key'
      rw [hd'.get?_eq_lookup, hd.get?_eq_lookup, after, before,
        ← Assoc.delete_middle (before ▸ hn), Assoc.lookup_delete]
    cases p' with
    | entry key' => simpa [at?, hb] using hget key'
    | _ => simp [at?, hb]

theorem Stores.at?_eq {v : Value} (hi : i.WellFormed) (h : i.Stores key v j)
    (hb : ∀ b, i.backing ≠ .bytes b) :
    ∃ p, i.place? key = some p ∧ ∀ p', j.at? p' = if p' = p then some v else i.at? p' := by
  cases h with
  | @slot name hp =>
    refine ⟨_, hp, fun p' => ?_⟩
    cases p' with
    | slot name' =>
      simpa [at?] using hi.slots.get?_insert name name' v
    | _ => simp [at?]
  | @entry d hd =>
    have hp : i.place? key = some (.entry key.entry) := by simp [place?, hd, Backing.kind]
    refine ⟨_, hp, fun p' => ?_⟩
    cases p' with
    | entry key' =>
      simpa [at?, hd] using (hi.dictionary d hd).get?_set key.entry key' v
    | _ => simp [at?, hd]
  | byte hbytes => exact absurd hbytes (hb _)

end Instance

end ScriptPlayer
