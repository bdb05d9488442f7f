import ScriptPlayer.Proofs.Container.ByteBuffer
import ScriptPlayer.Proofs.Run.Slots

/-! Accesses to an instance that has byte storage. An index goes to the bytes and to nothing else,
a qualified name to the slots and traits, whatever the name looks like. -/
namespace ScriptPlayer

open World

namespace Instance

variable {i : Instance} {b : ByteBuffer} {t : ClassTable} {key : Key} {n : UInt32} {name : QName}

theorem resolve_of_bytes (hb : i.backing = .bytes b) (key : Key) : i.resolve key = key := by
  unfold resolve readsIndexAsText
  rw [hb]
  rfl

theorem unintercepted_of_bytes (hb : i.backing = .bytes b) : i.Unintercepted t :=
  unintercepted_of_kind (by simp [hb, Backing.kind])

theorem read_index {byte : UInt8} (hb : i.backing = .bytes b) (hk : key.name = .index n)
    (h : b.get n.toNat = .ok byte) :
    i.read t key = .ok (.value (.int (Int32.ofNat byte.toNat))) := by
  unfold read
  simp only [resolve_of_bytes hb, hk, hb, h]

theorem read_index_error {f : Fatal} (hb : i.backing = .bytes b) (hk : key.name = .index n)
    (h : b.get n.toNat = .error f) : i.read t key = .error (.abort f) := by
  unfold read
  simp only [resolve_of_bytes hb, hk, hb, h]

theorem write_index {v : Value} {b' : ByteBuffer} (hb : i.backing = .bytes b)
    (hk : key.name = .index n) (h : b.set n.toNat (toByte v) = .ok b') :
    i.write t key v = .ok (.stored { i with backing := .bytes b' }) := by
  unfold write
  simp only [resolve_of_bytes hb, hk, hb, h]

theorem write_index_error {v : Value} {f : Fatal} (hb : i.backing = .bytes b)
    (hk : key.name = .index n) (h : b.set n.toNat (toByte v) = .error f) :
    i.write t key v = .error (.abort f) := by
  unfold write
  simp only [resolve_of_bytes hb, hk, hb, h]

theorem remove_index (hb : i.backing = .bytes b) (hk : key.name = .index n) :
    i.remove t key = .ok none := by
  unfold remove
  simp only [resolve_of_bytes hb, hk, hb]

theorem qname?_eq_some (hk : key.qname? = some name) :
    key.name = .qualified name.name ∧ key.ns = name.ns := by
  unfold Key.qname? at hk
  split at hk
  · obtain rfl := Option.some.inj hk
    exact ⟨‹_›, rfl⟩
  · cases hk

theorem read_named (hb : i.backing = .bytes b) (hk : key.qname? = some name) :
    i.read t key = .ok (i.lookup t name) := by
  obtain ⟨hname, hns⟩ := qname?_eq_some hk
  unfold read
  simp only [resolve_of_bytes hb, hname, hns, content?, hb]

theorem write_named (hb : i.backing = .bytes b) (hk : key.qname? = some name)
    (hset : i.setter? t name = none) (v : Value) :
    i.write t key v = .ok (.stored { i with slots := (i.slots.insert name v).2 }) := by
  obtain ⟨hname, hns⟩ := qname?_eq_some hk
  unfold write
  simp only [resolve_of_bytes hb, hname, hns, hb]
  rw [show i.setter? t ⟨name.ns, name.name⟩ = none from hset]

theorem remove_named (hb : i.backing = .bytes b) (hk : key.qname? = some name) :
    i.remove t key = i.removeSlot t name := by
  obtain ⟨hname, hns⟩ := qname?_eq_some hk
  unfold remove
  simp only [resolve_of_bytes hb, hname, hns, hb]

theorem handles_bytes (hb : i.backing = .bytes b) (b' : ByteBuffer) :
    { i with backing := .bytes b' }.handles = i.handles := by
  simp [handles, hb, Backing.handles]

end Instance

/-- One instance is replaced and all other cells of the heap are as they were. -/
def World.Replaces (w w' : World) (o : ObjectId) (j : Instance) : Prop :=
  ∀ id, w'.heap.content? id = if id = o then some (.instanceOf j) else w.heap.content? id

namespace Run

variable {call : Caller} {s : State} {o : ObjectId} {i j : Instance} {b : ByteBuffer} {key : Key}
  {n : UInt32} {name : QName}

theorem replaces_exchange {vs : List Value} (hs : s.world.Sound)
    (hvs : ∀ v ∈ vs, s.world.isValid v) (hi : s.world.instance? o = some i)
    (hcover : ∀ id, refs id i.handles ≤ refs id j.handles) :
    s.world.Replaces (((opened s vs).world.putInstance o j).popFrame []) o j := by
  intro id
  have hfades := fades_exchange hi j vs []
  rw [← Heap.content?_setContent (Heap.instance?_eq_some_iff.1 hi)]
  cases hx : (s.world.heap.setContent o (.instanceOf j)).content? id with
  | none =>
    refine Option.eq_none_iff_forall_ne_some.2 fun x hx' => ?_
    rw [hfades.content id x hx'] at hx
    cases hx
  | some x =>
    have hlive : (s.world.heap.get? id).isSome := by
      have hget : ((s.world.heap.setContent o (.instanceOf j)).get? id).isSome := by
        rw [← Option.isSome_map]
        exact Option.isSome_of_eq_some hx
      rwa [Heap.get?_setContent, Option.isSome_map] at hget
    have hvs' : ∀ v ∈ vs ++ [], s.world.isValid v := by rwa [List.append_nil]
    have hkept := survives_exchange hs hvs' hi
      (fun k => Nat.le_trans (hcover k) (Nat.le_add_right _ _)) hlive
    rw [List.append_nil] at hkept
    obtain ⟨c, hc⟩ := Option.isSome_iff_exists.1 hkept
    have hcontent : (((opened s vs).world.putInstance o j).popFrame []).heap.content? id =
        some c.content := congrArg (Option.map Cell.content) hc
    rw [hcontent, ← hx, hfades.content id c.content hcontent]

theorem perform_aborts {op : Op} {f : Fatal} (hb : 0 < s.budget)
    (hops : ∀ v ∈ op.operands, s.world.isValid v) (hdrop : op.isDrop = false)
    (hx : execute call op (opened s op.operands) =
      .error (.abort f) (opened s op.operands)) :
    ∃ s', perform call op s = .error (.abort f) s' ∧ SameContents s.world s'.world := by
  refine ⟨opened s op.operands, ?_, sameContents_opened s op.operands⟩
  rw [perform_eq hb hops hdrop, hx]
  rfl

theorem attempt_of_abort {α : Type} {m : Run α} {f : Fatal} {s' : State}
    (h : m s = .error (.abort f) s') : attempt m s = .error (.abort f) s' := by
  unfold attempt
  rw [h]

theorem isValid_written {v : Value} (hi : s.world.instance? o = some i) (hkey : key.handles = [])
    (hv : s.world.isValid v) : ∀ u ∈ (Op.set o key v).operands, s.world.isValid u := by
  intro u hu
  simp only [Op.operands, hkey, List.mem_cons, List.not_mem_nil, or_false] at hu
  obtain rfl | rfl := hu
  · exact isValid_receiver hi _ (List.mem_singleton_self _)
  · exact hv

theorem isValid_read (hi : s.world.instance? o = some i) (hkey : key.handles = []) :
    ∀ u ∈ Value.object o :: key.handles, s.world.isValid u := by
  rw [hkey]
  exact isValid_receiver hi

theorem handles_index (hk : key.name = .index n) : key.handles = [] := by
  unfold Key.handles
  rw [hk]

theorem handles_qname (hk : key.qname? = some name) : key.handles = [] := by
  unfold Key.handles
  rw [(Instance.qname?_eq_some hk).1]

section Index

variable (hs : s.world.Sound) (hbudget : 0 < s.budget) (hi : s.world.instance? o = some i)
  (hb : i.backing = .bytes b) (hk : key.name = .index n)

include hs hbudget hi hb hk

theorem perform_set_index {v : Value} (hv : s.world.isValid v)
    (h : n.toNat < b.length ∨ b.fixed = false) :
    ∃ new s', perform call (.set o key v) s = .ok (Except.ok ()) s' ∧
      ByteBuffer.Written b.toList new.toList n.toNat (Instance.toByte v) ∧
      s.world.Replaces s'.world o { i with backing := .bytes { b with bytes := some new } } := by
  obtain ⟨new, hset, hwritten⟩ := ByteBuffer.exists_set h (Instance.toByte v)
  have hops := isValid_written hi (handles_index hk) hv
  have hstores : Op.Stores s.world (.set o key v) (Except.ok ()) o
      { i with backing := .bytes { b with bytes := some new } } _ _ :=
    .set hi (Instance.write_index hb hk hset)
  have hrun : perform call (.set o key v) s = _ := perform_stores_run hs hbudget hops hstores
  exact ⟨new, _, hrun, hwritten, replaces_exchange hs hops hi fun id =>
    Nat.le_of_eq (congrArg (refs id) (Instance.handles_bytes hb _).symm)⟩

omit hs in
theorem perform_set_index_aborts {v : Value} (hv : s.world.isValid v) (hle : b.length ≤ n.toNat)
    (hfixed : b.fixed = true) :
    ∃ s', perform call (.set o key v) s =
        .error (.abort (.fixedByteIndex n.toNat b.length)) s' ∧
      SameContents s.world s'.world := by
  refine perform_aborts hbudget (isValid_written hi (handles_index hk) hv) rfl ?_
  refine attempt_of_abort ((set_concludes (instance?_opened hi)).trans ?_)
  rw [Instance.write_index_error hb hk (ByteBuffer.set_of_fixed hle hfixed _)]
  rfl

theorem perform_get_index {byte : UInt8} (h : b.toList[n.toNat]? = some byte) :
    ∃ s', perform call (.get o key) s =
        .ok (Except.ok (some (.int (Int32.ofNat byte.toNat)))) s' ∧
      SameContents s.world s'.world :=
  perform_finds_contents call hs hbudget (isValid_read hi (handles_index hk))
    (.get hi (Instance.unintercepted_of_bytes hb)
      (Instance.read_index hb hk (ByteBuffer.get_of_some h)))

omit hs in
theorem perform_get_index_aborts (hle : b.length ≤ n.toNat) :
    ∃ s', perform call (.get o key) s = .error (.abort (.byteIndex n.toNat b.length)) s' ∧
      SameContents s.world s'.world := by
  refine perform_aborts hbudget (isValid_read hi (handles_index hk)) rfl ?_
  refine attempt_of_abort ((get_run (instance?_opened hi)
    (Instance.unintercepted_of_bytes hb) key).trans ?_)
  rw [Instance.read_index_error hb hk (ByteBuffer.get_of_length_le hle)]

theorem perform_delete_index :
    ∃ s', perform call (.delete o key) s = .ok (Except.ok false) s' ∧
      SameContents s.world s'.world :=
  perform_finds_contents call hs hbudget (isValid_read hi (handles_index hk))
    (.deleteNothing hi (Instance.remove_index hb hk))

end Index

section Named

variable (hs : s.world.Sound) (hbudget : 0 < s.budget)
  (hi : s.world.instance? o = some i) (hb : i.backing = .bytes b) (hk : key.qname? = some name)

include hs hbudget hi hb hk

theorem perform_set_named (hcall : Calls call) (hst : s.world.Staffed) {v : Value}
    (hv : s.world.isValid v) (hset : i.setter? s.world.classes name = none) :
    ∃ s', perform call (.set o key v) s = .ok (Except.ok ()) s' ∧
      ∀ j, s'.world.instance? o = some j → j.backing = .bytes b := by
  have hops := isValid_written hi (handles_qname hk) hv
  obtain ⟨s', hrun, haccounts, -⟩ := perform_stores hcall hs hst hbudget hops
    (.set hi (Instance.write_named hb hk hset v))
  refine ⟨s', hrun, fun j hj => ?_⟩
  rw [instance?_of_fades hi haccounts.fades hj, hb]

theorem perform_get_named (htrait : i.readableTrait s.world.classes name = none) :
    ∃ found s', perform call (.get o key) s = .ok (Except.ok found) s' ∧
      SameContents s.world s'.world := by
  have hops := isValid_read hi (handles_qname hk)
  have hread := Instance.read_named (t := s.world.classes) hb hk
  have hint := Instance.unintercepted_of_bytes (t := s.world.classes) hb
  cases hslot : i.slots.get? name with
  | some v =>
    rw [Instance.lookup_of_slot hslot] at hread
    exact ⟨some v, perform_finds_contents call hs hbudget hops (.get hi hint hread)⟩
  | none =>
    rw [Instance.lookup_of_no_slot hslot, Instance.traitAnswer_eq_absent_iff.2 htrait] at hread
    exact ⟨none, perform_finds_contents call hs hbudget hops (.getNothing hi hint hread)⟩

theorem perform_delete_named (hcall : Calls call) (hst : s.world.Staffed)
    (htrait : i.hasTrait s.world.classes name = false) :
    ∃ s', perform call (.delete o key) s = .ok (Except.ok (i.slots.contains name)) s' ∧
      ∀ j, s'.world.instance? o = some j → j.backing = .bytes b := by
  have hops : ∀ u ∈ (Op.delete o key).operands, s.world.isValid u :=
    isValid_read hi (handles_qname hk)
  have hremove := Instance.remove_named (t := s.world.classes) hb hk
  unfold Instance.removeSlot at hremove
  cases hslot : i.slots.contains name with
  | true =>
    rw [hslot, if_pos rfl] at hremove
    obtain ⟨s', hrun, haccounts, -⟩ := perform_stores hcall hs hst hbudget hops (.delete hi hremove)
    refine ⟨s', hrun, fun j hj => ?_⟩
    rw [instance?_of_fades hi haccounts.fades hj, hb]
  | false =>
    rw [hslot, htrait] at hremove
    obtain ⟨s', hrun, hsame⟩ :=
      perform_finds_contents call hs hbudget hops (.deleteNothing hi hremove)
    refine ⟨s', hrun, fun j hj => ?_⟩
    rw [hsame.instance? o, hi] at hj
    rw [← Option.some.inj hj, hb]

end Named

end Run

end ScriptPlayer
