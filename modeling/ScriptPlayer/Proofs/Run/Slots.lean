import Mathlib.Data.List.Induction
import ScriptPlayer.Proofs.Run.Exchanges
import ScriptPlayer.Proofs.World.Chain

/-! Accesses by qualified names to an instance that is no dictionary. Each goes to the slots and
the traits of the instance, and its slots change as a plain list does. -/
namespace ScriptPlayer

open World

namespace Instance

variable {i j : Instance} {t : ClassTable} {name : QName}

theorem resolve_ofQName (i : Instance) (name : QName) :
    i.resolve (Key.ofQName name) = Key.ofQName name := by
  unfold resolve
  split <;> rfl

theorem content?_of_ne (hd : ∀ d, i.backing ≠ .dictionary d) (s : String) :
    i.content? s = none := by
  unfold content?
  split
  · rename_i d hb
    exact absurd hb (hd d)
  · rfl

theorem read_ofQName (hd : ∀ d, i.backing ≠ .dictionary d) :
    i.read t (Key.ofQName name) = .ok (i.lookup t name) := by
  unfold read
  rw [resolve_ofQName]
  simp only [Key.ofQName, content?_of_ne hd]

theorem write_ofQName (hd : ∀ d, i.backing ≠ .dictionary d) (hset : i.setter? t name = none)
    (v : Value) : i.write t (Key.ofQName name) v =
      .ok (.stored { i with slots := (i.slots.insert name v).2 }) := by
  have hset : i.setter? t ⟨name.ns, name.name⟩ = none := hset
  unfold write
  rw [resolve_ofQName]
  simp only [Key.ofQName, hset]

theorem remove_ofQName (hd : ∀ d, i.backing ≠ .dictionary d) :
    i.remove t (Key.ofQName name) = i.removeSlot t name := by
  unfold remove
  rw [resolve_ofQName]
  simp only [Key.ofQName]

end Instance

def Instance.deleteAnswer (t : ClassTable) (i : Instance) (name : QName) :
    Except ScriptError Bool :=
  if (i.slots.get? name).isSome then .ok true
  else if i.hasTrait t name then .error (.cannotDelete name.toText)
  else .ok false

namespace Instance

variable {i : Instance} {t : ClassTable} {name : QName}

theorem deleteAnswer_iff :
    (i.deleteAnswer t name = .ok true ↔ (i.slots.get? name).isSome) ∧
    (i.deleteAnswer t name = .error (.cannotDelete name.toText) ↔
      i.slots.get? name = none ∧ i.hasTrait t name) ∧
    (i.deleteAnswer t name = .ok false ↔ i.slots.get? name = none ∧ i.hasTrait t name = false) := by
  unfold deleteAnswer
  cases i.slots.get? name with
  | some v => simp
  | none => cases i.hasTrait t name <;> simp

theorem enumerates_slots (hb : ∀ b, i.backing ≠ .bytes b) (hd : ∀ d, i.backing ≠ .dictionary d)
    (cursor : Nat) : i.hasNext cursor = decide (cursor < i.slots.entries.length) ∧
      ∀ e, i.slots.entries[cursor]? = some e →
        i.nextName cursor = .ok (.string e.1.name) ∧ i.nextValue cursor = .ok e.2 := by
  unfold hasNext enumSize nextName nextValue PropertyMap.nextName PropertyMap.nextValue
    PropertyMap.entryAt?
  cases hback : i.backing with
  | bytes b => exact absurd hback (hb b)
  | dictionary d => exact absurd hback (hd d)
  | _ =>
    refine ⟨rfl, fun e he => ?_⟩
    rw [he]
    exact ⟨rfl, rfl⟩

end Instance

inductive SlotOp
  | get (name : QName)
  | set (name : QName) (v : Value)
  | delete (name : QName)

namespace SlotOp

def op (o : ObjectId) : SlotOp → Op
  | get name => .get o (Key.ofQName name)
  | set name v => .set o (Key.ofQName name) v
  | delete name => .delete o (Key.ofQName name)

def write? : SlotOp → Option (QName × Option Value)
  | get _ => none
  | set name v => some (name, some v)
  | delete name => some (name, none)

def onList (l : List (QName × Value)) : SlotOp → List (QName × Value)
  | get _ => l
  | set name v => Assoc.set l name v
  | delete name => Assoc.delete l name

/-- What the last of some accesses that wrote to a name has left there. -/
def lastWrite? (name : QName) (ops : List SlotOp) : Option (Option Value) :=
  (ops.filterMap write?).reverse.lookup name

private theorem lookup_cons_eq_ite (name name' : QName) (w : Option Value)
    (l : List (QName × Option Value)) :
    ((name', w) :: l).lookup name = if name = name' then some w else l.lookup name := by
  rw [List.lookup_cons]
  by_cases h : name = name'
  · simp [h]
  · have hb : (name == name') = false := by simp [h]
    rw [hb, if_neg h]

theorem lastWrite?_append_singleton (name : QName) (ops : List SlotOp) (a : SlotOp) :
    lastWrite? name (ops ++ [a]) = match a with
      | get _ => lastWrite? name ops
      | set name' v => if name = name' then some (some v) else lastWrite? name ops
      | delete name' => if name = name' then some none else lastWrite? name ops := by
  unfold lastWrite?
  rw [List.filterMap_append, List.reverse_append]
  cases a with
  | get name' => rfl
  | set name' v =>
    exact lookup_cons_eq_ite name name' (some v) _
  | delete name' =>
    exact lookup_cons_eq_ite name name' none _

theorem lookup_foldl_onList (l : List (QName × Value)) (ops : List SlotOp) (name : QName) :
    (ops.foldl onList l).lookup name = (lastWrite? name ops).getD (l.lookup name) := by
  induction ops using List.reverseRecOn with
  | nil => rfl
  | append_singleton ops a ih =>
    rw [List.foldl_append, lastWrite?_append_singleton]
    cases a with
    | get name' => exact ih
    | set name' v =>
      refine (Assoc.lookup_set _ name' name v).trans ?_
      rw [ih]
      by_cases h : name = name' <;> simp [h]
    | delete name' =>
      refine (Assoc.lookup_delete _ name' name).trans ?_
      rw [ih]
      by_cases h : name = name' <;> simp [h]

theorem lookup_onList_of_ne {a : SlotOp} {name : QName} (h : ∀ w, a.write? ≠ some (name, w))
    (l : List (QName × Value)) : (a.onList l).lookup name = l.lookup name := by
  cases a with
  | get name' => rfl
  | set name' v =>
    have hne : name ≠ name' := fun he => h (some v) (congrArg some (Prod.ext he.symm rfl))
    exact (Assoc.lookup_set l name' name v).trans (if_neg hne)
  | delete name' =>
    have hne : name ≠ name' := fun he => h none (congrArg some (Prod.ext he.symm rfl))
    exact (Assoc.lookup_delete l name' name).trans (if_neg hne)

/-- The access is in order for an instance: a read is not intercepted and its getter, if it calls
one, leaves the slots and the bound members alone; a write passes a value that exists and meets no
setter. -/
def Regular (o : ObjectId) (s s' : State) : SlotOp → Prop
  | get name => ∀ i, s.world.instance? o = some i → i.Unintercepted s.world.classes ∧
      ∀ f, i.lookup s.world.classes name = .getter f →
        ∃ j, s'.world.instance? o = some j ∧ j.slots = i.slots ∧ j.bound = i.bound
  | set name v => s.world.isValid v ∧
      ∀ i, s.world.instance? o = some i → i.setter? s.world.classes name = none
  | delete _ => True

end SlotOp

theorem World.Holds.kept {w w' : World} {v : Value} {keep : List Value} (h : w.Holds v)
    (hk : Kept w.frames keep w'.frames) : w'.Holds v := by
  obtain ⟨f, hf, hv⟩ := h
  obtain ⟨below, rest, hb, hb'⟩ := hk
  rw [hb] at hf
  rcases List.mem_cons.1 hf with rfl | hf
  · exact ⟨_, hb' ▸ List.mem_cons_self .., List.mem_append_right keep hv⟩
  · exact ⟨f, hb' ▸ List.mem_cons_of_mem _ hf, hv⟩

namespace Run

variable {call : Caller} {s s' : State} {o : ObjectId} {i : Instance} {name : QName}

theorem budget_pos_of_perform {op : Op} {reply : op.Reply} (h : perform call op s = .ok reply s') :
    0 < s.budget := by
  rcases Nat.eq_zero_or_pos s.budget with hzero | hpos
  · have hpulse : pulse s = .error .exhausted s := by
      unfold pulse
      rw [hzero]
    rw [show perform call op s = .error .exhausted s from bind_of_error hpulse _] at h
    cases h
  · exact hpos

theorem perform_finds_contents (call : Caller) {op : Op} {reply : op.Reply} (hs : s.world.Sound)
    (hb : 0 < s.budget) (hops : ∀ v ∈ op.operands, s.world.isValid v)
    (h : op.Finds s.world reply) :
    ∃ s', perform call op s = .ok reply s' ∧ SameContents s.world s'.world := by
  obtain ⟨s', hrun, hget⟩ := perform_finds hs hb hops h
  refine ⟨s', hrun, fun id => ?_⟩
  unfold Heap.content?
  rw [hget, Option.map_map]
  rfl

theorem perform_finds_same (call : Caller) {op : Op} {reply : op.Reply} (hs : s.world.Sound)
    (hb : 0 < s.budget) (hops : ∀ v ∈ op.operands, s.world.isValid v)
    (h : op.Finds s.world reply) (o : ObjectId) :
    ∃ s', perform call op s = .ok reply s' ∧ s'.world.instance? o = s.world.instance? o := by
  obtain ⟨s', hrun, hsame⟩ := perform_finds_contents call hs hb hops h
  exact ⟨s', hrun, hsame.instance? o⟩

theorem exists_instance_of_perform (hcall : Calls call) (hs : s.world.Sound) (hst : s.world.Staffed)
    (ho : s.world.Holds (.object o)) {op : Op} {reply : op.Reply} (hdrop : op.isDrop = false)
    (h : perform call op s = .ok reply s') :
    s'.world.Sound ∧ s'.world.Staffed ∧ s.world.Later s'.world ∧ s'.world.Holds (.object o) ∧
      ∃ j, s'.world.instance? o = some j := by
  obtain ⟨hsteps, -, hkept⟩ := (ends_perform hcall hs hst op).of_ok h
  have hs' := hsteps.sound hs
  have ho' := ho.kept (hkept hdrop)
  exact ⟨hs', hsteps.staffed hst, hsteps.later, ho', hs'.exists_instance ho'⟩

theorem instance?_of_fades {j k : Instance} (hi : s.world.instance? o = some i)
    (hf : (s.world.heap.setContent o (.instanceOf j)).Fades s'.world.heap)
    (hk : s'.world.instance? o = some k) : k = j := by
  have hk := hf.content o _ (Heap.instance?_eq_some_iff.1 hk)
  rw [Heap.content?_setContent (Heap.instance?_eq_some_iff.1 hi), if_pos rfl] at hk
  exact (Content.instanceOf.inj (Option.some.inj hk)).symm

/-! Each access, in a state in which the instance exists and may be asked. -/

theorem perform_get_value (call : Caller) (hs : s.world.Sound) (hb : 0 < s.budget)
    (hi : s.world.instance? o = some i) (hd : ∀ d, i.backing ≠ .dictionary d)
    (hint : i.Unintercepted s.world.classes) {v : Value}
    (h : i.lookup s.world.classes name = .value v) :
    ∃ s', perform call (.get o (Key.ofQName name)) s = .ok (Except.ok (some v)) s' ∧
      s'.world.instance? o = s.world.instance? o := by
  have hfound : Op.Finds s.world (.get o (Key.ofQName name)) _ :=
    .get hi hint ((Instance.read_ofQName hd).trans (congrArg Except.ok h))
  refine perform_finds_same call hs hb ?_ hfound o
  exact isValid_receiver hi

theorem perform_get_absent (call : Caller) (hs : s.world.Sound) (hb : 0 < s.budget)
    (hi : s.world.instance? o = some i) (hd : ∀ d, i.backing ≠ .dictionary d)
    (hint : i.Unintercepted s.world.classes) (h : i.lookup s.world.classes name = .absent) :
    ∃ s', perform call (.get o (Key.ofQName name)) s = .ok (Except.ok none) s' ∧
      s'.world.instance? o = s.world.instance? o := by
  have hfound : Op.Finds s.world (.get o (Key.ofQName name)) _ :=
    .getNothing hi hint ((Instance.read_ofQName hd).trans (congrArg Except.ok h))
  refine perform_finds_same call hs hb ?_ hfound o
  exact isValid_receiver hi

theorem perform_get_getter (hb : 0 < s.budget) (hi : s.world.instance? o = some i)
    (hd : ∀ d, i.backing ≠ .dictionary d) (hint : i.Unintercepted s.world.classes)
    {f : FunctionId} (h : i.lookup s.world.classes name = .getter f) :
    perform call (.get o (Key.ofQName name)) s = closing (.get o (Key.ofQName name))
      (attempt (call f o [] >>= fun v => pure (some v)) (opened s [.object o])) := by
  have hops : ∀ u ∈ (Op.get o (Key.ofQName name)).operands, s.world.isValid u :=
    isValid_receiver hi
  have hclasses := (sameClasses_opened s [.object o]).classes
  have hget : get call o (Key.ofQName name) (opened s [.object o]) =
      (call f o [] >>= fun v => pure (some v)) (opened s [.object o]) := by
    rw [get_run (instance?_opened hi) (hclasses ▸ hint), hclasses, Instance.read_ofQName hd, h]
    rfl
  rw [perform_eq hb hops rfl]
  exact congrArg (closing _) (attempt_congr hget)

theorem perform_get_nothing_iff (hs : s.world.Sound) (hb : 0 < s.budget)
    (hi : s.world.instance? o = some i) (hd : ∀ d, i.backing ≠ .dictionary d)
    (hint : i.Unintercepted s.world.classes) :
    (∃ s', perform call (.get o (Key.ofQName name)) s = .ok (Except.ok none) s') ↔
      i.lookup s.world.classes name = .absent := by
  constructor
  · rintro ⟨s', hrun⟩
    cases hl : i.lookup s.world.classes name with
    | value v =>
      obtain ⟨s'', hrun', -⟩ := perform_get_value call hs hb hi hd hint hl
      cases (EStateM.Result.ok.inj (hrun.symm.trans hrun')).1
    | absent => rfl
    | getter f =>
      rw [perform_get_getter hb hi hd hint hl] at hrun
      unfold attempt at hrun
      rw [bind_run] at hrun
      cases hm : call f o [] (opened s [.object o]) with
      | ok v s'' =>
        rw [hm] at hrun
        cases (EStateM.Result.ok.inj hrun).1
      | error e s'' =>
        rw [hm] at hrun
        cases e with
        | error e => cases (EStateM.Result.ok.inj hrun).1
        | abort f => cases hrun
        | exhausted => cases hrun
  · intro hl
    obtain ⟨s', hrun, -⟩ := perform_get_absent call hs hb hi hd hint hl
    exact ⟨s', hrun⟩

theorem perform_set_slot (hcall : Calls call) (hs : s.world.Sound) (hst : s.world.Staffed)
    (hb : 0 < s.budget) (hi : s.world.instance? o = some i)
    (hd : ∀ d, i.backing ≠ .dictionary d) {v : Value} (hv : s.world.isValid v)
    (hset : i.setter? s.world.classes name = none) :
    ∃ s', perform call (.set o (Key.ofQName name) v) s = .ok (Except.ok ()) s' ∧
      ∀ k, s'.world.instance? o = some k →
        k.slots.entries = Assoc.set i.slots.entries name v ∧ k.bound = i.bound := by
  have hops : ∀ u ∈ (Op.set o (Key.ofQName name) v).operands, s.world.isValid u := by
    intro u hu
    rcases List.mem_cons.1 hu with rfl | hu
    · exact isValid_receiver hi _ (List.mem_singleton_self _)
    · exact List.mem_singleton.1 hu ▸ hv
  obtain ⟨s', hrun, haccounts, -⟩ := perform_stores hcall hs hst hb hops
    (.set hi (Instance.write_ofQName hd hset v))
  refine ⟨s', hrun, fun k hk => ?_⟩
  rw [instance?_of_fades hi haccounts.fades hk]
  exact ⟨((hs.wellFormed hi).slots.insert_eq name v).2, rfl⟩

theorem perform_delete_slot (hcall : Calls call) (hs : s.world.Sound) (hst : s.world.Staffed)
    (hb : 0 < s.budget) (hi : s.world.instance? o = some i)
    (hd : ∀ d, i.backing ≠ .dictionary d) :
    ∃ s', perform call (.delete o (Key.ofQName name)) s =
        .ok (i.deleteAnswer s.world.classes name) s' ∧
      ∀ k, s'.world.instance? o = some k →
        k.slots.entries = Assoc.delete i.slots.entries name ∧ k.bound = i.bound := by
  have hops : ∀ u ∈ (Op.delete o (Key.ofQName name)).operands, s.world.isValid u :=
    isValid_receiver hi
  have hwf := (hs.wellFormed hi).slots
  have hcontains : i.slots.contains name = (i.slots.get? name).isSome := by
    rw [hwf.contains_eq, hwf.get?_eq_lookup]
  have hremove : i.remove s.world.classes (Key.ofQName name) = i.removeSlot s.world.classes name :=
    Instance.remove_ofQName hd
  unfold Instance.removeSlot at hremove
  unfold Instance.deleteAnswer
  rw [hcontains] at hremove
  by_cases hslot : (i.slots.get? name).isSome
  · rw [if_pos hslot] at hremove
    rw [if_pos hslot]
    obtain ⟨s', hrun, haccounts, -⟩ := perform_stores hcall hs hst hb hops (.delete hi hremove)
    refine ⟨s', hrun, fun k hk => ?_⟩
    rw [instance?_of_fades hi haccounts.fades hk]
    exact ⟨(hwf.remove_eq name).2, rfl⟩
  · rw [if_neg hslot] at hremove
    rw [if_neg hslot]
    have hsame : ∀ {s' : State}, s'.world.instance? o = s.world.instance? o →
        ∀ k, s'.world.instance? o = some k →
          k.slots.entries = Assoc.delete i.slots.entries name ∧ k.bound = i.bound := by
      intro s' hsame k hk
      obtain rfl := Option.some.inj (hi.symm.trans (hsame.symm.trans hk))
      rw [hwf.get?_eq_lookup, Assoc.isSome_lookup_iff] at hslot
      exact ⟨(Assoc.delete_of_not_mem hslot).symm, rfl⟩
    by_cases htrait : i.hasTrait s.world.classes name
    · rw [if_pos htrait] at hremove
      rw [if_pos htrait]
      obtain ⟨s', hrun, he⟩ := perform_finds_same call hs hb hops (.deleteFails hi hremove) o
      exact ⟨s', hrun, hsame he⟩
    · rw [if_neg htrait] at hremove
      rw [if_neg htrait]
      obtain ⟨s', hrun, he⟩ := perform_finds_same call hs hb hops (.deleteNothing hi hremove) o
      exact ⟨s', hrun, hsame he⟩

/-- An access changes the slots as it changes a list, and no bound member. -/
theorem entries_of_perform {a : SlotOp} {reply : (a.op o).Reply} (hcall : Calls call)
    (hs : s.world.Sound) (hst : s.world.Staffed) (ho : s.world.Holds (.object o))
    (hi : s.world.instance? o = some i) (hd : ∀ d, i.backing ≠ .dictionary d)
    (hr : a.Regular o s s') (h : perform call (a.op o) s = .ok reply s') :
    ∃ j, s'.world.instance? o = some j ∧ j.slots.entries = a.onList i.slots.entries ∧
      j.bound = i.bound := by
  have hb := budget_pos_of_perform h
  have hdrop : (a.op o).isDrop = false := by cases a <;> rfl
  obtain ⟨-, -, -, -, j, hj⟩ := exists_instance_of_perform hcall hs hst ho hdrop h
  have hend : ∀ {reply' s''}, perform call (a.op o) s = .ok reply' s'' → s' = s'' :=
    fun h' => (EStateM.Result.ok.inj (h.symm.trans h')).2
  cases a with
  | get name =>
    obtain ⟨hint, hgetter⟩ := hr i hi
    have hsame : s'.world.instance? o = s.world.instance? o →
        ∃ j, s'.world.instance? o = some j ∧ j.slots.entries = i.slots.entries ∧
          j.bound = i.bound :=
      fun he => ⟨i, he.trans hi, rfl, rfl⟩
    cases hl : i.lookup s.world.classes name with
    | value v =>
      obtain ⟨s'', hrun, he⟩ := perform_get_value call hs hb hi hd hint hl
      exact hsame (hend hrun ▸ he)
    | absent =>
      obtain ⟨s'', hrun, he⟩ := perform_get_absent call hs hb hi hd hint hl
      exact hsame (hend hrun ▸ he)
    | getter f =>
      obtain ⟨k, hk, hslots, hbound⟩ := hgetter f hl
      exact ⟨k, hk, congrArg PropertyMap.entries hslots, hbound⟩
  | set name v =>
    obtain ⟨s'', hrun, he⟩ := perform_set_slot hcall hs hst hb hi hd hr.1 (hr.2 i hi)
    exact ⟨j, hj, he j (hend hrun ▸ hj)⟩
  | delete name =>
    obtain ⟨s'', hrun, he⟩ := perform_delete_slot hcall hs hst hb hi hd
    exact ⟨j, hj, he j (hend hrun ▸ hj)⟩

end Run

end ScriptPlayer
