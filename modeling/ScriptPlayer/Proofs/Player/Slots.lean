import ScriptPlayer.Proofs.Player.Accounts
import ScriptPlayer.Proofs.Run.Slots

/-! Whatever sequence of reads, writes and deletions by qualified names an instance has gone
through, its slots are an ordered map, laid over the traits that it had all along. -/
namespace ScriptPlayer

open Run

/-- Accesses to the slots of an instance, one after the other, each of which comes to an end. -/
inductive Accessed (call : Caller) (o : ObjectId) : State → List SlotOp → State → Prop
  | nil (s : State) : Accessed call o s [] s
  | snoc {s s' s'' : State} {ops : List SlotOp} {a : SlotOp} {reply : (a.op o).Reply}
      (h : Accessed call o s ops s') (hrun : perform call (a.op o) s' = .ok reply s'')
      (hr : a.Regular o s' s'') : Accessed call o s (ops ++ [a]) s''

/-- The slots of an instance after some accesses to it, and what it answers from then on. The
instance is `j`; before the accesses it was `i`, and `t` were the classes. -/
structure SlotMap (call : Caller) (o : ObjectId) (t : ClassTable) (i : Instance)
    (ops : List SlotOp) (s : State) (j : Instance) : Prop where
  found : s.world.instance? o = some j
  traits : Instance.SameTraits t s.world.classes i j
  entries : j.slots.entries = ops.foldl SlotOp.onList i.slots.entries
  distinct : (Assoc.keys j.slots.entries).Nodup
  slot : ∀ name, j.slots.get? name = (SlotOp.lastWrite? name ops).getD (i.slots.get? name)
  get_slot : ∀ name v, 0 < s.budget → j.Unintercepted s.world.classes →
    j.slots.get? name = some v →
    ∃ s', perform call (.get o (Key.ofQName name)) s = .ok (Except.ok (some v)) s'
  get_trait : ∀ name, 0 < s.budget → j.Unintercepted s.world.classes →
    j.slots.get? name = none → match i.traitAnswer t name with
      | .value v => ∃ s', perform call (.get o (Key.ofQName name)) s = .ok (Except.ok (some v)) s'
      | .getter f => perform call (.get o (Key.ofQName name)) s =
          closing (.get o (Key.ofQName name))
            (attempt (call f o [] >>= fun v => pure (some v)) (opened s [.object o]))
      | .absent => ∃ s', perform call (.get o (Key.ofQName name)) s = .ok (Except.ok none) s'
  get_nothing : ∀ name, 0 < s.budget → j.Unintercepted s.world.classes →
    ((∃ s', perform call (.get o (Key.ofQName name)) s = .ok (Except.ok none) s') ↔
      j.slots.get? name = none ∧ i.readableTrait t name = none)
  set : ∀ name v, 0 < s.budget → s.world.isValid v → i.setter? t name = none →
    ∃ s', perform call (.set o (Key.ofQName name) v) s = .ok (Except.ok ()) s'
  delete : ∀ name, 0 < s.budget →
    ∃ reply s', perform call (.delete o (Key.ofQName name)) s = .ok reply s' ∧
      (reply = Except.ok true ↔ (j.slots.get? name).isSome) ∧
      (reply = Except.error (.cannotDelete name.toText) ↔
        j.slots.get? name = none ∧ i.hasTrait t name) ∧
      (reply = Except.ok false ↔ j.slots.get? name = none ∧ i.hasTrait t name = false)
  /-- an access leaves the slots of all names alone to which it does not write, and all traits -/
  others : ∀ (a : SlotOp) (reply : (a.op o).Reply) s', a.Regular o s s' →
    perform call (a.op o) s = .ok reply s' → ∃ k, s'.world.instance? o = some k ∧
      Instance.SameTraits s.world.classes s'.world.classes j k ∧
      ∀ name, (∀ w, a.write? ≠ some (name, w)) → k.slots.get? name = j.slots.get? name
  enumeration : (∀ b, j.backing ≠ .bytes b) → ∀ cursor,
    j.hasNext cursor = decide (cursor < j.slots.entries.length) ∧
    ∀ e, j.slots.entries[cursor]? = some e →
      j.nextName cursor = .ok (.string e.1.name) ∧ j.nextValue cursor = .ok e.2

variable {call : Caller} {o : ObjectId} {i j : Instance} {s s' : State}

structure Tracks (s : State) (o : ObjectId) (i : Instance) (ops : List SlotOp) (s' : State)
    (j : Instance) : Prop where
  sound : s'.world.Sound
  staffed : s'.world.Staffed
  held : s'.world.Holds (.object o)
  found : s'.world.instance? o = some j
  traits : Instance.SameTraits s.world.classes s'.world.classes i j
  entries : j.slots.entries = ops.foldl SlotOp.onList i.slots.entries
  notDictionary : ∀ d, j.backing ≠ .dictionary d

theorem Tracks.step {ops : List SlotOp} {s'' : State} {a : SlotOp} {reply : (a.op o).Reply}
    (hcall : Calls call) (h : Tracks s o i ops s' j) (hr : a.Regular o s' s'')
    (hrun : perform call (a.op o) s' = .ok reply s'') :
    ∃ k, Tracks s o i (ops ++ [a]) s'' k ∧
      Instance.SameTraits s'.world.classes s''.world.classes j k := by
  have hdrop : (a.op o).isDrop = false := by cases a <;> rfl
  obtain ⟨hs, hst, hlater, hheld, -⟩ :=
    exists_instance_of_perform hcall h.sound h.staffed h.held hdrop hrun
  obtain ⟨k, hk, hentries, hbound⟩ :=
    entries_of_perform hcall h.sound h.staffed h.held h.found h.notDictionary hr hrun
  obtain ⟨hchain, hkind⟩ := hlater.instance_eq h.staffed.toRegistered h.found hk
  refine ⟨k, ⟨hs, hst, hheld, hk, h.traits.trans ⟨hbound, hchain⟩, ?_, ?_⟩, ⟨hbound, hchain⟩⟩
  · rw [List.foldl_append, ← h.entries]
    exact hentries
  · intro d hd
    rw [hd] at hkind
    cases hb : j.backing with
    | dictionary d' => exact h.notDictionary d' hb
    | _ => rw [hb] at hkind; cases hkind

theorem Accessed.tracks {ops : List SlotOp} (hcall : Calls call) (h : Accessed call o s ops s')
    (hs : s.world.Sound) (hst : s.world.Staffed) (ho : s.world.Holds (.object o))
    (hi : s.world.instance? o = some i) (hd : ∀ d, i.backing ≠ .dictionary d) :
    ∃ j, Tracks s o i ops s' j := by
  induction h with
  | nil => exact ⟨i, hs, hst, ho, hi, ⟨rfl, rfl⟩, rfl, hd⟩
  | snoc _ hrun hr ih =>
    obtain ⟨j, hj⟩ := ih
    obtain ⟨k, hk, -⟩ := hj.step hcall hr hrun
    exact ⟨k, hk⟩

theorem Tracks.slotMap {ops : List SlotOp} (hcall : Calls call) (hs : s.world.Sound)
    (hi : s.world.instance? o = some i) (h : Tracks s o i ops s' j) :
    SlotMap call o s.world.classes i ops s' j := by
  have hwf := (h.sound.wellFormed h.found).slots
  have hnothing : ∀ name, j.slots.get? name = none →
      j.lookup s'.world.classes name = i.traitAnswer s.world.classes name := by
    intro name hslot
    rw [Instance.lookup_of_no_slot hslot, h.traits.traitAnswer]
  constructor
  case found => exact h.found
  case traits => exact h.traits
  case entries => exact h.entries
  case distinct => exact hwf.nodup
  case slot =>
    intro name
    rw [hwf.get?_eq_lookup, h.entries, SlotOp.lookup_foldl_onList,
      (hs.wellFormed hi).slots.get?_eq_lookup]
  case get_slot =>
    intro name v hb hint hslot
    obtain ⟨s'', hrun, -⟩ := perform_get_value call h.sound hb h.found h.notDictionary hint
      (Instance.lookup_of_slot hslot)
    exact ⟨s'', hrun⟩
  case get_trait =>
    intro name hb hint hslot
    have hl := hnothing name hslot
    cases hanswer : i.traitAnswer s.world.classes name with
    | value v =>
      obtain ⟨s'', hrun, -⟩ :=
        perform_get_value call h.sound hb h.found h.notDictionary hint (hl.trans hanswer)
      exact ⟨s'', hrun⟩
    | getter f => exact perform_get_getter hb h.found h.notDictionary hint (hl.trans hanswer)
    | absent =>
      obtain ⟨s'', hrun, -⟩ :=
        perform_get_absent call h.sound hb h.found h.notDictionary hint (hl.trans hanswer)
      exact ⟨s'', hrun⟩
  case get_nothing =>
    intro name hb hint
    rw [perform_get_nothing_iff h.sound hb h.found h.notDictionary hint,
      ← Instance.traitAnswer_eq_absent_iff]
    cases hslot : j.slots.get? name with
    | some v => simp [Instance.lookup_of_slot hslot]
    | none => simp [hnothing name hslot]
  case set =>
    intro name v hb hv hset
    obtain ⟨s'', hrun, -⟩ := perform_set_slot hcall h.sound h.staffed hb h.found h.notDictionary hv
      ((h.traits.setter? name).trans hset)
    exact ⟨s'', hrun⟩
  case delete =>
    intro name hb
    obtain ⟨s'', hrun, -⟩ := perform_delete_slot hcall h.sound h.staffed hb h.found h.notDictionary
    rw [← h.traits.hasTrait]
    exact ⟨_, s'', hrun, Instance.deleteAnswer_iff⟩
  case others =>
    intro a reply s'' hr hrun
    obtain ⟨k, hk, htraits⟩ := h.step hcall hr hrun
    refine ⟨k, hk.found, htraits, fun name hname => ?_⟩
    have hentries : k.slots.entries = a.onList j.slots.entries := by
      rw [hk.entries, h.entries, List.foldl_append]
      rfl
    rw [(hk.sound.wellFormed hk.found).slots.get?_eq_lookup, hentries,
      SlotOp.lookup_onList_of_ne hname, hwf.get?_eq_lookup]
  case enumeration =>
    intro hbytes cursor
    exact Instance.enumerates_slots hbytes h.notDictionary cursor

/-- Reads, writes and deletions by qualified names treat an instance that is no dictionary, and
whose reads nothing intercepts, as an ordered map over its traits. -/
theorem State.Reachable.slots_refine (h : s.Reachable) (depth : Nat)
    (ho : s.world.Holds (.object o)) (hi : s.world.instance? o = some i)
    (hd : ∀ d, i.backing ≠ .dictionary d) {ops : List SlotOp}
    (hacc : Accessed (callFunction depth) o s ops s') :
    ∃ j, SlotMap (callFunction depth) o s.world.classes i ops s' j := by
  obtain ⟨hs, hst⟩ := h.sound
  obtain ⟨j, hj⟩ := hacc.tracks (calls_callFunction depth) hs hst ho hi hd
  exact ⟨j, hj.slotMap (calls_callFunction depth) hs hi⟩

theorem slots_refine_keepObject :
    let start : State := ⟨World.initial.withPlaces 1, [], 1, []⟩
    let s : State := { start.afterRun (embed 1 keepObject) with budget := 9, interference := [] }
    ∃ i s' j, s.Reachable ∧ s.world.Holds (.object 4) ∧ s.world.instance? 4 = some i ∧
      Accessed (callFunction 1) 4 s [.set ⟨"", "a"⟩ .undefined] s' ∧
      SlotMap (callFunction 1) 4 s.world.classes i [.set ⟨"", "a"⟩ .undefined] s' j := by
  intro start s
  have h : s.Reachable := .embed (.core 1 1 []) 1 keepObject 9 []
  have ho : s.world.Holds (.object 4) := by
    have : s.world.frames.any fun f => f.held.contains (.object 4) := by decide +kernel
    obtain ⟨f, hf, hheld⟩ := List.any_eq_true.1 this
    exact ⟨f, hf, List.contains_iff_mem.1 hheld⟩
  obtain ⟨i, hi⟩ := Option.isSome_iff_exists.1 (by decide +kernel : (s.world.instance? 4).isSome)
  have hplain : (s.world.instance? 4).all fun i => i.backing.kind == .plain &&
      (i.setter? s.world.classes ⟨"", "a"⟩).isNone := by decide +kernel
  rw [hi, Option.all_some, Bool.and_eq_true, beq_iff_eq, Option.isNone_iff_eq_none] at hplain
  have hd : ∀ d, i.backing ≠ .dictionary d := fun d hb => by
    rw [hb] at hplain
    cases hplain.1
  obtain ⟨hs, hst⟩ := h.sound
  obtain ⟨s', hrun, -⟩ := perform_set_slot (calls_callFunction 1) hs hst (by decide) hi hd
    (v := .undefined) rfl hplain.2
  have hacc : Accessed (callFunction 1) 4 s [.set ⟨"", "a"⟩ .undefined] s' :=
    .snoc (.nil s) hrun ⟨rfl, fun k hk => Option.some.inj (hi.symm.trans hk) ▸ hplain.2⟩
  obtain ⟨j, hj⟩ := State.Reachable.slots_refine h 1 ho hi hd hacc
  exact ⟨i, s', j, h, ho, hi, hacc, hj⟩

end ScriptPlayer
