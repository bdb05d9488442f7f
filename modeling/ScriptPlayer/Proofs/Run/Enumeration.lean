import ScriptPlayer.Proofs.Run.Interpreter
import ScriptPlayer.Proofs.Run.Replies

/-! The loop that visits the entries of a dictionary, and what it gets back for the names that it is
given. A name that is used as a key comes to the entry that it is the name of, whatever it looks
like. -/
namespace ScriptPlayer

open World

theorem DictKey.entry_classifyValue (key : DictKey) (names : Naming) (ns : String) :
    (Key.classifyValue names key.toValue ns).entry = key := by
  cases key with
  | identity o => rfl
  | content text =>
    change (Key.classify text ns).entry = _
    unfold Key.classify
    cases Key.parseIndex? text <;> rfl

theorem DictKey.handles_classifyValue (key : DictKey) (names : Naming) (ns : String) :
    ∀ v ∈ (Key.classifyValue names key.toValue ns).handles, v = key.toValue := by
  cases key with
  | identity o => exact fun v hv => List.mem_singleton.1 hv
  | content text =>
    change ∀ v ∈ (Key.classify text ns).handles, _
    unfold Key.classify
    cases Key.parseIndex? text <;> exact fun v hv => absurd hv List.not_mem_nil

theorem DictKey.toValue_injective : Function.Injective DictKey.toValue := by
  intro key key' h
  cases key <;> cases key' <;> cases h <;> rfl

/-- What enumeration shows, in order. -/
def Dictionary.visits (d : Dictionary) : List (Value × Value) :=
  d.entries.map fun e => (e.1.toValue, e.2)

namespace Dictionary

variable {d : Dictionary} {c : Nat} {key : DictKey} {v : Value}

theorem WellFormed.nodup_names (h : d.WellFormed) : (d.visits.map Prod.fst).Nodup := by
  have hnames : d.visits.map Prod.fst = (Assoc.keys d.entries).map DictKey.toValue := by
    unfold visits Assoc.keys
    rw [List.map_map, List.map_map]
    rfl
  rw [hnames]
  exact h.nodup.map DictKey.toValue_injective

theorem exists_entry {name : Value} (h : d.visits[c]? = some (name, v)) :
    ∃ key, d.entries[c]? = some (key, v) ∧ name = key.toValue := by
  rw [visits, List.getElem?_map, Option.map_eq_some_iff] at h
  obtain ⟨⟨key, u⟩, he, hvisit⟩ := h
  obtain ⟨rfl, rfl⟩ := Prod.mk.inj hvisit
  exact ⟨key, he, rfl⟩

theorem nextName_of_entry (h : d.entries[c]? = some (key, v)) :
    d.nextName c = .ok key.toValue := by
  rw [nextName, keyAt?, h]
  rfl

theorem nextValue_of_entry (h : d.entries[c]? = some (key, v)) : d.nextValue c = .ok v := by
  rw [nextValue, valueAt?, h]
  rfl

theorem WellFormed.get?_of_entry (h : d.WellFormed) (he : d.entries[c]? = some (key, v)) :
    d.get? key = some v := by
  have hkey : (Assoc.keys d.entries)[c]? = some key := by
    rw [Assoc.getElem?_keys, he]
    rfl
  rw [h.get?_eq_lookup, Assoc.lookup_eq_getElem? h.nodup hkey, he]
  rfl

end Dictionary

namespace Instance

variable {i j : Instance} {t : ClassTable} {d : Dictionary} {c : Nat} {key : Key} {v : Value}

theorem takes_of_dictionary (hb : i.backing = .dictionary d) (key : Key) : i.takes key := by
  unfold takes
  rw [hb]
  rfl

theorem place?_of_dictionary (hb : i.backing = .dictionary d) (key : Key) :
    i.place? key = some (.entry key.entry) := by
  unfold place?
  rw [hb]
  rfl

theorem kept?_of_dictionary (hb : i.backing = .dictionary d) (key : Key) :
    i.kept? key = d.get? key.entry := by
  rw [kept?, place?_of_dictionary hb, Option.bind_some, at?, hb]

theorem Loses.eraseIdx {p : Place} (hi : i.WellFormed) (hb : i.backing = .dictionary d)
    {key : DictKey} (he : d.entries[c]? = some (key, v)) (hp : p = .entry key)
    (h : i.Loses p j) :
    ∃ d', j = { i with backing := .dictionary d' } ∧ d'.entries = d.entries.eraseIdx c := by
  cases h with
  | slot => cases hp
  | @entry key' u l l' d₀ d' hb₀ before after =>
    obtain rfl := Backing.dictionary.inj (hb.symm.trans hb₀)
    obtain rfl := Place.entry.inj hp
    have hn := (hi.dictionary d hb).nodup
    have hkey : (Assoc.keys d.entries)[c]? = some key' := by
      rw [Assoc.getElem?_keys, he]
      rfl
    refine ⟨d', rfl, ?_⟩
    rw [after, ← Assoc.delete_eq_eraseIdx hn hkey, before]
    exact (Assoc.delete_middle (before ▸ hn)).symm

end Instance

namespace Run

/-- Visit what follows a cursor, with so many looks at whether there is more; nothing comes back if
they do not suffice. -/
def drain (call : Caller) (o : ObjectId) : Nat → Nat → Run (Option (List (Value × Value)))
  | 0, _ => return none
  | looks + 1, cursor => do
    if (← instanceOf o).hasNext cursor then
      let name ← perform call (.nextName o cursor)
      let value ← perform call (.nextValue o cursor)
      let rest ← drain call o looks (cursor + 1)
      return rest.map ((name, value) :: ·)
    else return some []

variable {call : Caller} {s : State} {o : ObjectId} {i : Instance} {d : Dictionary} {c : Nat}
  {key : DictKey} {v : Value}

theorem perform_finds_on {op : Op} {reply : op.Reply} (hcall : Calls call) (hs : s.world.Sound)
    (hst : s.world.Staffed) (hb : 0 < s.budget) (h : op.Finds s.world reply)
    (hops : ∀ v ∈ op.operands, s.world.isValid v) :
    ∃ s', perform call op s = .ok reply s' ∧ s'.budget = s.budget - 1 ∧ s'.world.Sound ∧
      s'.world.Staffed ∧ SameContents s.world s'.world := by
  have hrun : perform call op s = _ :=
    perform_run hb hops h.isDrop_eq (execute_opened_finds hs hops h)
  obtain ⟨s', hrun', hsame⟩ := perform_finds_contents call hs hb hops h
  have hsteps := ((ends_perform hcall hs hst op).of_ok hrun').1
  obtain rfl := (EStateM.Result.ok.inj (hrun'.symm.trans hrun)).2
  exact ⟨_, hrun, rfl, hsteps.sound hs, hsteps.staffed hst, hsame⟩

theorem perform_visit (hcall : Calls call) (hs : s.world.Sound) (hst : s.world.Staffed)
    (hb : 1 < s.budget) (hi : s.world.instance? o = some i) {name : Value}
    (hname : i.nextName c = .ok name) (hvalue : i.nextValue c = .ok v) :
    ∃ s₁ s₂, perform call (.nextName o c) s = .ok name s₁ ∧
      perform call (.nextValue o c) s₁ = .ok v s₂ ∧ s₂.budget = s.budget - 2 ∧
      s₂.world.Sound ∧ s₂.world.Staffed ∧ SameContents s.world s₂.world := by
  have hfinds : Op.Finds s.world (.nextName o c) name := .nextName hi hname
  obtain ⟨s₁, hrun₁, hbudget₁, hs₁, hst₁, hsame₁⟩ :=
    perform_finds_on hcall hs hst (by omega) hfinds (isValid_receiver hi)
  have hi₁ := (hsame₁.instance? o).trans hi
  have hfinds₁ : Op.Finds s₁.world (.nextValue o c) v := .nextValue hi₁ hvalue
  obtain ⟨s₂, hrun₂, hbudget₂, hs₂, hst₂, hsame₂⟩ :=
    perform_finds_on hcall hs₁ hst₁ (by omega) hfinds₁ (isValid_receiver hi₁)
  exact ⟨s₁, s₂, hrun₁, hrun₂, by omega, hs₂, hst₂, fun id => (hsame₂ id).trans (hsame₁ id)⟩

theorem visit_run (hcall : Calls call) (hs : s.world.Sound) (hst : s.world.Staffed)
    (hb : 1 < s.budget) (hi : s.world.instance? o = some i) (hd : i.backing = .dictionary d)
    (he : d.entries[c]? = some (key, v)) :
    ∃ s₁ s₂, perform call (.nextName o c) s = .ok key.toValue s₁ ∧
      perform call (.nextValue o c) s₁ = .ok v s₂ ∧ s₂.budget = s.budget - 2 ∧
      s₂.world.Sound ∧ s₂.world.Staffed ∧ SameContents s.world s₂.world := by
  have hname : i.nextName c = .ok key.toValue := by
    unfold Instance.nextName
    rw [hd]
    exact Dictionary.nextName_of_entry he
  have hvalue : i.nextValue c = .ok v := by
    unfold Instance.nextValue
    rw [hd]
    exact Dictionary.nextValue_of_entry he
  exact perform_visit hcall hs hst hb hi hname hvalue

theorem hasNext_of_dictionary (hd : i.backing = .dictionary d) (c : Nat) :
    i.hasNext c = decide (c < d.entries.length) := by
  unfold Instance.hasNext Instance.enumSize
  rw [hd]
  rfl

/-- The loop shows what follows the cursor, if it may look once more than there are entries to
show. -/
theorem drain_run (hcall : Calls call) (hd : i.backing = .dictionary d) (looks : Nat) :
    ∀ (c : Nat) (s : State), s.world.Sound → s.world.Staffed → s.world.instance? o = some i →
      2 * (d.entries.length - c) ≤ s.budget →
      ∃ s', drain call o looks c s = .ok
          (if d.entries.length - c < looks then some (d.visits.drop c) else none) s' ∧
        SameContents s.world s'.world := by
  induction looks with
  | zero => exact fun c s _ _ _ _ => ⟨s, rfl, fun _ => rfl⟩
  | succ looks ih =>
    intro c s hs hst hi hbudget
    have hstart : drain call o (looks + 1) c s = _ := bind_of_ok (instanceOf_run hi) _
    rw [hstart, hasNext_of_dictionary hd]
    by_cases hc : c < d.entries.length
    · obtain ⟨e, he⟩ : ∃ e, d.entries[c]? = some e := ⟨_, List.getElem?_eq_getElem hc⟩
      obtain ⟨s₁, s₂, hrun₁, hrun₂, hbudget₂, hs₂, hst₂, hsame₂⟩ :=
        visit_run hcall hs hst (by omega) hi hd he
      obtain ⟨s₃, hrun₃, hsame₃⟩ :=
        ih (c + 1) s₂ hs₂ hst₂ ((hsame₂.instance? o).trans hi) (by omega)
      refine ⟨s₃, ?_, fun id => (hsame₃ id).trans (hsame₂ id)⟩
      rw [if_pos (decide_eq_true hc), bind_of_ok hrun₁, bind_of_ok hrun₂, bind_of_ok hrun₃]
      have hvisit : d.visits.drop c = (e.1.toValue, e.2) :: d.visits.drop (c + 1) := by
        have hget : d.visits[c]? = some (e.1.toValue, e.2) := by
          rw [Dictionary.visits, List.getElem?_map, he]
          rfl
        obtain ⟨hlt, hget⟩ := List.getElem?_eq_some_iff.1 hget
        rw [List.drop_eq_getElem_cons hlt, hget]
      have hlooks : d.entries.length - (c + 1) < looks ↔ d.entries.length - c < looks + 1 := by
        omega
      rw [hvisit, if_congr hlooks rfl rfl]
      split <;> rfl
    · refine ⟨s, ?_, fun _ => rfl⟩
      have hrest : d.visits.drop c = [] := List.drop_eq_nil_of_le (by
        rw [Dictionary.visits, List.length_map]
        omega)
      rw [if_neg (by simpa using hc), hrest, if_pos (by omega)]
      rfl

/-! The names that are shown, as keys -/

section Keys

variable (names : Naming) (ns : String)

theorem isValid_entry (hs : s.world.Sound) (hi : s.world.instance? o = some i)
    (hd : i.backing = .dictionary d) (he : d.entries[c]? = some (key, v)) :
    ∀ u ∈ (Key.classifyValue names key.toValue ns).handles, s.world.isValid u := by
  intro u hu
  obtain rfl := key.handles_classifyValue names ns u hu
  have hmem := Dictionary.mem_handles_iff.2 ⟨(key, v), List.mem_of_getElem? he, Or.inl rfl⟩
  exact hs.isValid_of_mem_handles hi (by simp [Instance.handles, hd, Backing.handles, hmem])

theorem kept?_entry (hs : s.world.Sound) (hi : s.world.instance? o = some i)
    (hd : i.backing = .dictionary d) (he : d.entries[c]? = some (key, v)) :
    i.kept? (Key.classifyValue names key.toValue ns) = some v := by
  rw [Instance.kept?_of_dictionary hd, DictKey.entry_classifyValue]
  exact ((hs.wellFormed hi).dictionary d hd).get?_of_entry he

/-- Whatever traits there are, what is stored under a name is what a read of the name finds. -/
theorem perform_get_entry (call : Caller) (hs : s.world.Sound) (hb : 0 < s.budget)
    (hi : s.world.instance? o = some i) (hd : i.backing = .dictionary d)
    (he : d.entries[c]? = some (key, v)) :
    ∃ s', perform call (.get o (Key.classifyValue names key.toValue ns)) s =
      .ok (Except.ok (some v)) s' ∧ SameContents s.world s'.world := by
  have hint : i.Unintercepted s.world.classes :=
    Instance.unintercepted_of_kind (by simp [hd, Backing.kind])
  have hread := Instance.read_of_kept (t := s.world.classes)
    (Instance.takes_of_dictionary hd _) (kept?_entry names ns hs hi hd he)
  exact perform_finds_contents call hs hb
    (isValid_operands hi (isValid_entry names ns hs hi hd he)) (.get hi hint hread)

end Keys

end Run

end ScriptPlayer
