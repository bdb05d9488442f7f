import ScriptPlayer.Proofs.Container.TraitTable
import ScriptPlayer.Proofs.Run.Builtins
import ScriptPlayer.Proofs.Run.Perform
import ScriptPlayer.Proofs.World.Chain

/-! Accesses that run no script and store nothing. What they find is kept by an instance, a class
or the globals, so it exists and can be handed over; nothing else becomes of the world. -/
namespace ScriptPlayer

open World

theorem ClassTable.mem_handles_of_findTrait {t : ClassTable} {c : ClassId} {name : QName}
    {accept : Trait → Bool} {trait : Trait} {f : FunctionId}
    (h : t.findTrait c name accept = some trait) (hf : f ∈ trait.functions) :
    Value.function f ∈ t.handles := by
  obtain ⟨k, hk, htrait⟩ := List.exists_of_findSome?_eq_some h
  obtain ⟨a, -, hget⟩ := List.mem_filterMap.1 hk
  refine List.mem_flatMap.2 ⟨k, List.mem_of_getElem? hget, ?_⟩
  have hmem := TraitTable.mem_handles_of_get? (Option.filter_eq_some_iff.1 htrait).1 hf
  simp [Class.handles, hmem]

def Found.handles : Found → List Value
  | value v => [v]
  | getter f => [.function f]
  | absent => []

namespace Instance

variable {i : Instance} {t : ClassTable}

theorem mem_handles_of_readableTrait {name : QName} {trait : Trait} {f : FunctionId}
    (h : i.readableTrait t name = some trait) (hf : f ∈ trait.functions) :
    Value.function f ∈ i.handles ∨ Value.function f ∈ t.handles := by
  unfold readableTrait at h
  split at h
  · rename_i hbound
    obtain rfl := Option.some.inj h
    have hmem := TraitTable.mem_handles_of_get? (Option.filter_eq_some_iff.1 hbound).1 hf
    exact Or.inl (by simp [handles, hmem])
  · exact Or.inr (ClassTable.mem_handles_of_findTrait h hf)

theorem mem_handles_of_slot {name : QName} {v : Value} (h : i.slots.get? name = some v) :
    v ∈ i.handles := by
  simp [handles, PropertyMap.mem_values_of_get? h]

theorem mem_handles_of_lookup {name : QName} {v : Value} (hv : v ∈ (i.lookup t name).handles) :
    v ∈ i.handles ∨ v ∈ t.handles := by
  unfold lookup at hv
  split at hv
  · rename_i u hu
    exact Or.inl (List.mem_singleton.1 hv ▸ mem_handles_of_slot hu)
  · split at hv
    · rename_i getter setter method htrait
      have hf : getter ∈ Trait.functions ⟨some getter, setter, method⟩ := by simp [Trait.functions]
      exact List.mem_singleton.1 hv ▸ mem_handles_of_readableTrait htrait hf
    · rename_i setter method htrait
      have hf : method ∈ Trait.functions ⟨none, setter, some method⟩ := by simp [Trait.functions]
      exact List.mem_singleton.1 hv ▸ mem_handles_of_readableTrait htrait hf
    · exact absurd hv List.not_mem_nil

theorem mem_handles_of_entry {d : Dictionary} (hb : i.backing = .dictionary d) (key : DictKey)
    {v : Value} (h : d.get? key = some v) : v ∈ i.handles := by
  rw [Dictionary.get?_eq] at h
  obtain ⟨n, -, hn⟩ := Option.bind_eq_some_iff.1 h
  obtain ⟨e, he, rfl⟩ := Option.map_eq_some_iff.1 hn
  have hmem := Dictionary.mem_handles_iff.2 ⟨e, List.mem_of_getElem? he, Or.inr rfl⟩
  simp [handles, hb, Backing.handles, hmem]

end Instance

namespace World

variable {w : World} {o : ObjectId} {i : Instance}

theorem Sound.isValid_of_lookup (hs : w.Sound) (hi : w.instance? o = some i) {name : QName}
    {v : Value} (hv : v ∈ (i.lookup w.classes name).handles) : w.isValid v := by
  rcases Instance.mem_handles_of_lookup hv with h | h
  · exact hs.isValid_of_mem_handles hi h
  · exact hs.isValid_of_class h

theorem Sound.isValid_of_read (hs : w.Sound) (hi : w.instance? o = some i) {key : Key}
    {found : Found} (h : i.read w.classes key = .ok found) {v : Value} (hv : v ∈ found.handles) :
    w.isValid v := by
  unfold Instance.read at h
  simp only at h
  split at h
  · rename_i name _
    split at h
    · rename_i u hu
      obtain rfl := Except.ok.inj h
      unfold Instance.content? at hu
      split at hu
      · rename_i d hb
        have hmem := Instance.mem_handles_of_entry hb (.content name) hu
        exact List.mem_singleton.1 hv ▸ hs.isValid_of_mem_handles hi hmem
      · cases hu
    · obtain rfl := Except.ok.inj h
      exact hs.isValid_of_lookup hi hv
  · split at h
    · split at h
      · obtain rfl := Except.ok.inj h
        exact List.mem_singleton.1 hv ▸ rfl
      · cases h
    · cases h
  · rename_i o' _
    split at h
    · rename_i d hb
      split at h
      · rename_i u hu
        obtain rfl := Except.ok.inj h
        have hmem := Instance.mem_handles_of_entry hb (.identity o') hu
        exact List.mem_singleton.1 hv ▸ hs.isValid_of_mem_handles hi hmem
      · obtain rfl := Except.ok.inj h
        exact absurd hv List.not_mem_nil
    · obtain rfl := Except.ok.inj h
      exact absurd hv List.not_mem_nil
    · cases h

theorem Sound.isValid_of_global (hs : w.Sound) {name : QName} {v : Value}
    (h : w.globals.get? name = some v) : w.isValid v := by
  apply hs.isValid_of_mem_roots
  simp [roots, PropertyMap.mem_values_of_get? h]

theorem Sound.isValid_of_nextName (hs : w.Sound) (hi : w.instance? o = some i) {cursor : Nat}
    {v : Value} (h : i.nextName cursor = .ok v) : w.isValid v := by
  unfold Instance.nextName at h
  split at h
  · split at h
    · exact Except.ok.inj h ▸ rfl
    · cases h
  · rename_i d hb
    unfold Dictionary.nextName at h
    split at h
    · rename_i key hkey
      obtain rfl := Except.ok.inj h
      obtain ⟨e, he, rfl⟩ := Option.map_eq_some_iff.1 hkey
      have hmem := Dictionary.mem_handles_iff.2 ⟨e, List.mem_of_getElem? he, Or.inl rfl⟩
      exact hs.isValid_of_mem_handles hi (by simp [Instance.handles, hb, Backing.handles, hmem])
    · cases h
  · unfold PropertyMap.nextName at h
    split at h
    · exact Except.ok.inj h ▸ rfl
    · cases h

theorem Sound.isValid_of_nextValue (hs : w.Sound) (hi : w.instance? o = some i) {cursor : Nat}
    {v : Value} (h : i.nextValue cursor = .ok v) : w.isValid v := by
  unfold Instance.nextValue at h
  split at h
  · split at h
    · exact Except.ok.inj h ▸ rfl
    · cases h
  · rename_i d hb
    unfold Dictionary.nextValue at h
    split at h
    · rename_i u hu
      obtain rfl := Except.ok.inj h
      obtain ⟨e, he, rfl⟩ := Option.map_eq_some_iff.1 hu
      have hmem := Dictionary.mem_handles_iff.2 ⟨e, List.mem_of_getElem? he, Or.inr rfl⟩
      exact hs.isValid_of_mem_handles hi (by simp [Instance.handles, hb, Backing.handles, hmem])
    · cases h
  · unfold PropertyMap.nextValue at h
    split at h
    · rename_i name u hu
      obtain rfl := Except.ok.inj h
      have hmem : u ∈ i.slots.values :=
        List.mem_map_of_mem (f := Prod.snd) (List.mem_of_getElem? hu)
      exact hs.isValid_of_mem_handles hi (by simp [Instance.handles, hmem])
    · cases h

end World

/-- Accesses that run no script and store nothing, with what they answer. -/
inductive Op.Finds (w : World) : (op : Op) → op.Reply → Prop
  | get {o : ObjectId} {i : Instance} {key : Key} {v : Value} (hi : w.instance? o = some i)
      (hint : i.Unintercepted w.classes) (h : i.read w.classes key = .ok (.value v)) :
      Finds w (.get o key) (Except.ok (some v))
  | getNothing {o : ObjectId} {i : Instance} {key : Key} (hi : w.instance? o = some i)
      (hint : i.Unintercepted w.classes) (h : i.read w.classes key = .ok .absent) :
      Finds w (.get o key) (Except.ok none)
  | getFails {o : ObjectId} {i : Instance} {key : Key} {e : ScriptError}
      (hi : w.instance? o = some i) (hint : i.Unintercepted w.classes)
      (h : i.read w.classes key = .error (.error e)) : Finds w (.get o key) (Except.error e)
  | getDefault {o : ObjectId} {i : Instance} {name : QName} {v : Value}
      (hi : w.instance? o = some i) (h : i.lookup w.classes name = .value v) :
      Finds w (.getDefault o name) (Except.ok (some v))
  | getDefaultNothing {o : ObjectId} {i : Instance} {name : QName} (hi : w.instance? o = some i)
      (h : i.lookup w.classes name = .absent) : Finds w (.getDefault o name) (Except.ok none)
  | global (name : QName) : Finds w (.global name) (w.globals.get? name)
  | getEntry {o : ObjectId} {i : Instance} {d : Dictionary} (hi : w.instance? o = some i)
      (hb : i.backing = .dictionary d) (key : DictKey) : Finds w (.getEntry o key) (d.get? key)
  | nextName {o : ObjectId} {i : Instance} {cursor : Nat} {v : Value}
      (hi : w.instance? o = some i) (h : i.nextName cursor = .ok v) :
      Finds w (.nextName o cursor) v
  | nextValue {o : ObjectId} {i : Instance} {cursor : Nat} {v : Value}
      (hi : w.instance? o = some i) (h : i.nextValue cursor = .ok v) :
      Finds w (.nextValue o cursor) v
  | setFails {o : ObjectId} {i : Instance} {key : Key} {v : Value} {e : ScriptError}
      (hi : w.instance? o = some i) (h : i.write w.classes key v = .error (.error e)) :
      Finds w (.set o key v) (Except.error e)
  | deleteNothing {o : ObjectId} {i : Instance} {key : Key} (hi : w.instance? o = some i)
      (h : i.remove w.classes key = .ok none) : Finds w (.delete o key) (Except.ok false)
  | deleteFails {o : ObjectId} {i : Instance} {key : Key} {e : ScriptError}
      (hi : w.instance? o = some i) (h : i.remove w.classes key = .error (.error e)) :
      Finds w (.delete o key) (Except.error e)
  | deleteEntryNothing {o : ObjectId} {i : Instance} {d : Dictionary} {key : DictKey}
      (hi : w.instance? o = some i) (hb : i.backing = .dictionary d) (h : d.get? key = none) :
      Finds w (.deleteEntry o key) none

namespace Op.Finds

variable {w w' : World} {op : Op} {reply : op.Reply}

theorem congr (h : Finds w op reply) (hi : ∀ o, w'.instance? o = w.instance? o)
    (hc : w'.classes = w.classes) (hg : w'.globals = w.globals) : Finds w' op reply := by
  cases h with
  | get hi' hint h => exact .get ((hi _).trans hi') (hc ▸ hint) (hc ▸ h)
  | getNothing hi' hint h => exact .getNothing ((hi _).trans hi') (hc ▸ hint) (hc ▸ h)
  | getFails hi' hint h => exact .getFails ((hi _).trans hi') (hc ▸ hint) (hc ▸ h)
  | getDefault hi' h => exact .getDefault ((hi _).trans hi') (hc ▸ h)
  | getDefaultNothing hi' h => exact .getDefaultNothing ((hi _).trans hi') (hc ▸ h)
  | global name => exact hg ▸ .global name
  | getEntry hi' hb key => exact .getEntry ((hi _).trans hi') hb key
  | nextName hi' h => exact .nextName ((hi _).trans hi') h
  | nextValue hi' h => exact .nextValue ((hi _).trans hi') h
  | setFails hi' h => exact .setFails ((hi _).trans hi') (hc ▸ h)
  | deleteNothing hi' h => exact .deleteNothing ((hi _).trans hi') (hc ▸ h)
  | deleteFails hi' h => exact .deleteFails ((hi _).trans hi') (hc ▸ h)
  | deleteEntryNothing hi' hb h => exact .deleteEntryNothing ((hi _).trans hi') hb h

theorem isValid (h : Finds w op reply) (hs : w.Sound) {v : Value} (hv : v ∈ op.kept reply) :
    w.isValid v := by
  cases h with
  | get hi _ h => exact hs.isValid_of_read hi h hv
  | @getDefault o i name u hi h =>
    have hmem : v ∈ (i.lookup w.classes name).handles := by
      rw [h]
      exact hv
    exact hs.isValid_of_lookup hi hmem
  | global name => exact hs.isValid_of_global (Option.mem_toList.1 hv)
  | getEntry hi hb key =>
    have hmem := Instance.mem_handles_of_entry hb key (Option.mem_toList.1 hv)
    exact hs.isValid_of_mem_handles hi hmem
  | nextName hi h => exact hs.isValid_of_nextName hi (List.mem_singleton.1 hv ▸ h)
  | nextValue hi h => exact hs.isValid_of_nextValue hi (List.mem_singleton.1 hv ▸ h)
  | _ => exact absurd hv List.not_mem_nil

theorem isDrop_eq (h : Finds w op reply) : op.isDrop = false := by cases h <;> rfl

end Op.Finds

namespace Run

variable {call : Caller} {s : State} {α : Type}

theorem attempt_congr {m m' : Run α} (h : m s = m' s) : attempt m s = attempt m' s := by
  unfold attempt
  rw [h]

theorem attempt_of_ok {m : Run α} {a : α} {s' : State} (h : m s = .ok a s') :
    attempt m s = .ok (.ok a) s' := by
  unfold attempt
  rw [h]

theorem attempt_of_error {m : Run α} {e : ScriptError} {s' : State}
    (h : m s = .error (.error e) s') : attempt m s = .ok (.error e) s' := by
  unfold attempt
  rw [h]

theorem dictionaryOf_run {o : ObjectId} {i : Instance} {d : Dictionary}
    (hi : s.world.instance? o = some i) (hb : i.backing = .dictionary d) :
    dictionaryOf o s = .ok d s := by
  refine (bind_of_ok (instanceOf_run hi) _).trans ?_
  unfold Instance.dictionary
  rw [hb]
  rfl

theorem holding_run {v : Option Value} (hv : ∀ u ∈ v.toList, s.world.isValid u) :
    holding v s = .ok v { s with world := s.world.holdAll v.toList } :=
  bind_of_ok (holdAll_run hv) _

theorem takeItem_run {r : Except Fatal Value} {v : Value} (h : r = .ok v)
    (hv : s.world.isValid v) : (do let v ← ofFatal r; hold v; return v : Run Value) s =
      .ok v { s with world := s.world.hold v } := by
  subst h
  exact bind_of_ok (hold_run hv) _

theorem execute_finds {op : Op} {reply : op.Reply} (hs : s.world.Sound)
    (h : op.Finds s.world reply) : execute call op s =
      .ok reply { s with world := s.world.holdAll (op.kept reply) } := by
  have hvalid := fun v => h.isValid (v := v) hs
  cases h with
  | get hi hint h =>
    apply attempt_of_ok
    rw [get_run hi hint, h]
    exact conclude_value (hvalid _ (List.mem_singleton_self _))
  | getNothing hi hint h =>
    apply attempt_of_ok
    rw [get_run hi hint, h]
    rfl
  | getFails hi hint h =>
    apply attempt_of_error
    rw [get_run hi hint, h]
    rfl
  | getDefault hi h =>
    apply attempt_of_ok
    rw [getDefault_run hi, h]
    exact conclude_value (hvalid _ (List.mem_singleton_self _))
  | getDefaultNothing hi h =>
    apply attempt_of_ok
    rw [getDefault_run hi, h]
    rfl
  | global name => exact (bind_of_ok (m := world) rfl _).trans (holding_run hvalid)
  | getEntry hi hb key => exact (bind_of_ok (dictionaryOf_run hi hb) _).trans (holding_run hvalid)
  | nextName hi h =>
    exact (bind_of_ok (instanceOf_run hi) _).trans
      (takeItem_run h (hvalid _ (List.mem_singleton_self _)))
  | nextValue hi h =>
    exact (bind_of_ok (instanceOf_run hi) _).trans
      (takeItem_run h (hvalid _ (List.mem_singleton_self _)))
  | setFails hi h =>
    apply attempt_of_error
    rw [set_concludes hi, h]
    rfl
  | deleteNothing hi h =>
    apply attempt_of_ok
    rw [delete_concludes hi, h]
    rfl
  | deleteFails hi h =>
    apply attempt_of_error
    rw [delete_concludes hi, h]
    rfl
  | @deleteEntryNothing o i d key hi hb h =>
    -- the dictionary is stored back as it was
    have hself : { i with backing := .dictionary d } = i := by rw [← hb]
    have hput : putDictionary o d s = .ok () s := by
      refine (bind_of_ok (instanceOf_run hi) _).trans ?_
      change EStateM.Result.ok () { s with world := s.world.putInstance o _ } = _
      rw [hself, hs.putInstance_self hi]
    refine (bind_of_ok (dictionaryOf_run hi hb) _).trans ?_
    rw [((hs.wellFormed hi).dictionary d hb).delete_of_get?_eq_none h]
    exact bind_of_ok hput _

theorem execute_opened_finds {op : Op} {reply : op.Reply} (hs : s.world.Sound)
    (hops : ∀ v ∈ op.operands, s.world.isValid v) (h : op.Finds s.world reply) :
    execute call op (opened s op.operands) = .ok reply { opened s op.operands with
      world := (opened s op.operands).world.holdAll (op.kept reply) } := by
  refine execute_finds ((steps_opened hops).sound hs) ?_
  apply h.congr (sameContents_opened s op.operands).instance?
    (sameClasses_opened s op.operands).classes
  rw [world_opened, (sameOwners_pulsed s).globals]

/-- The counts grow by what is handed over. -/
theorem perform_finds {op : Op} {reply : op.Reply} (hs : s.world.Sound) (hb : 0 < s.budget)
    (hops : ∀ v ∈ op.operands, s.world.isValid v) (h : op.Finds s.world reply) :
    ∃ s', perform call op s = .ok reply s' ∧ ∀ id, s'.world.heap.get? id =
      (s.world.heap.get? id).map fun c =>
        { c with count := c.count + refs id (op.kept reply) } :=
  perform_quiet hs hb hops h.isDrop_eq (fun _ hv => h.isValid hs hv)
    (execute_opened_finds hs hops h)

theorem getDefault_of_no_slot {name : QName} (hs : s.world.Sound)
    (hi : s.world.instance? o = some i) (h : i.slots.get? name = none) :
    getDefault call o name s = match i.traitAnswer s.world.classes name with
      | .value v => .ok (some v) { s with world := s.world.hold v }
      | .getter g => (do return some (← call g o [])) s
      | .absent => .ok none s := by
  have hlookup := Instance.lookup_of_no_slot (t := s.world.classes) h
  rw [getDefault_run hi, hlookup]
  cases hanswer : i.traitAnswer s.world.classes name with
  | getter g => rfl
  | absent => rfl
  | value v =>
    have hmem : v ∈ (i.lookup s.world.classes name).handles := by
      rw [hlookup, hanswer]
      exact List.mem_singleton_self v
    exact conclude_value (hs.isValid_of_lookup hi hmem)

end Run

end ScriptPlayer
