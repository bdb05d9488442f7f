import ScriptPlayer.Proofs.Player.Coherence
import ScriptPlayer.Proofs.Run.Enumeration

/-! The enumeration of dictionaries. In every reachable state it shows each entry once, in the order
in which the entries were made, under a name that reads and deletes this entry and no other. -/
namespace ScriptPlayer

open World Run

/-- What a key does that is made of the name of an entry. -/
structure NamesEntry (call : Caller) (s : State) (o : ObjectId) (i : Instance) (d : Dictionary)
    (c : Nat) (v : Value) (key : Key) : Prop where
  get : ∃ s', perform call (.get o key) s = .ok (Except.ok (some v)) s' ∧
    SameContents s.world s'.world
  /-- the entry is taken out, and no other instance has changed -/
  delete : ∃ s', perform call (.delete o key) s = .ok (Except.ok true) s' ∧
    (∀ j, s'.world.instance? o = some j → ∃ d', j = { i with backing := .dictionary d' } ∧
      d'.entries = d.entries.eraseIdx c) ∧
    (∀ o' k, o' ≠ o → s'.world.instance? o' = some k → s.world.instance? o' = some k) ∧
    (s.world.Holds (.object o) → ∃ j, s'.world.instance? o = some j)

/-- What the enumeration of a dictionary shows. -/
structure EnumeratesEntries (call : Caller) (s : State) (o : ObjectId) (i : Instance)
    (d : Dictionary) : Prop where
  size : i.enumSize = d.visits.length
  /-- no entry is shown twice -/
  distinct : (d.visits.map Prod.fst).Nodup
  /-- the loop from the first cursor shows all entries and ends when it has looked at each -/
  loop : 2 * i.enumSize ≤ s.budget → ∀ looks, ∃ s', drain call o looks 0 s =
      .ok (if i.enumSize < looks then some d.visits else none) s' ∧ SameContents s.world s'.world
  /-- each name denotes its entry, in any namespace -/
  names : ∀ (c : Nat) (name v : Value), d.visits[c]? = some (name, v) → 2 < s.budget →
    ∃ s₁ s₂, perform call (.nextName o c) s = .ok name s₁ ∧
      perform call (.nextValue o c) s₁ = .ok v s₂ ∧ SameContents s.world s₂.world ∧
      ∀ ns, NamesEntry call s₂ o i d c v (Key.classifyValue s₂.world.naming name ns)

namespace Run

variable {call : Caller} {s : State} {o : ObjectId} {i : Instance} {d : Dictionary} {c : Nat}
  {key : DictKey} {v : Value}

theorem namesEntry (hcall : Calls call) (hs : s.world.Sound) (hst : s.world.Staffed)
    (hb : 0 < s.budget) (hi : s.world.instance? o = some i) (hd : i.backing = .dictionary d)
    (he : d.entries[c]? = some (key, v)) (names : Naming) (ns : String) :
    NamesEntry call s o i d c v (Key.classifyValue names key.toValue ns) := by
  have hwf := hs.wellFormed hi
  constructor
  case get => exact perform_get_entry names ns call hs hb hi hd he
  case delete =>
    have hplace := Instance.place?_of_dictionary hd (Key.classifyValue names key.toValue ns)
    obtain ⟨s', hrun⟩ := delete_of_kept call hs hb hi (isValid_entry names ns hs hi hd he)
      (Instance.takes_of_dictionary hd _)
      (Option.isSome_of_eq_some (kept?_entry names ns hs hi hd he))
      (fun n => by rw [hplace]; exact nofun)
    obtain ⟨p, hdeleted⟩ := deleted_of_delete hs hst hi hrun
    have hp : p = .entry key := by
      rw [DictKey.entry_classifyValue] at hplace
      exact Option.some.inj (hdeleted.place.symm.trans hplace)
    refine ⟨s', hrun, fun j hj => (hdeleted.loses j hj).eraseIdx hwf hd he hp,
      hdeleted.others, fun ho => ?_⟩
    exact (exists_instance_of_perform hcall hs hst ho rfl hrun).2.2.2.2

end Run

theorem State.Reachable.enumeratesEntries {s : State} (h : s.Reachable) (depth : Nat)
    {o : ObjectId} {i : Instance} {d : Dictionary} (hi : s.world.instance? o = some i)
    (hd : i.backing = .dictionary d) : EnumeratesEntries (callFunction depth) s o i d := by
  obtain ⟨hs, hst⟩ := h.sound
  have hcall := calls_callFunction depth
  have hsize : i.enumSize = d.entries.length := by
    unfold Instance.enumSize
    rw [hd]
    rfl
  constructor
  case size =>
    rw [hsize, Dictionary.visits, List.length_map]
  case distinct => exact ((hs.wellFormed hi).dictionary d hd).nodup_names
  case loop =>
    intro hbudget looks
    rw [hsize] at hbudget ⊢
    exact drain_run hcall hd looks 0 s hs hst hi hbudget
  case names =>
    intro c name v hvisit hbudget
    obtain ⟨key, he, rfl⟩ := Dictionary.exists_entry hvisit
    obtain ⟨s₁, s₂, hrun₁, hrun₂, hbudget₂, hs₂, hst₂, hsame⟩ :=
      visit_run hcall hs hst (Nat.lt_of_succ_lt hbudget) hi hd he
    refine ⟨s₁, s₂, hrun₁, hrun₂, hsame, fun ns => ?_⟩
    have hi₂ := (hsame.instance? o).trans hi
    exact namesEntry hcall hs₂ hst₂ (by omega) hi₂ hd he s₂.world.naming ns

def namedEntries : Session :=
  .ask (.enter fun _ _ _ => .done .undefined) fun code =>
  .ask (.perform .look) fun w =>
  .ask (.perform (.newFunction "g" [] (.script code))) fun f =>
  .ask (.perform (.registerClass ⟨QName.pub "D", some w.core.dictionary,
    [(.getter, QName.pub "007", f)], none, none, none⟩)) fun c =>
  .ask (.perform (.instantiate c none)) fun o =>
  .ask (.assign 0 (.object o)) fun _ =>
  .ask (.perform .newObject) fun p =>
  .ask (.perform (.set o (Key.classify "007" "") (.int 1))) fun _ =>
  .ask (.perform (.set o (Key.identity p) (.int 2))) fun _ =>
  .ask (.perform (.set o (Key.pub "") (.int 3))) fun _ => .done

theorem enumeratesEntries_namedEntries :
    let start : State := ⟨World.initial.withPlaces 1, [], 20, []⟩
    let s : State := { start.afterRun (embed 1 namedEntries) with
      budget := 20, interference := [] }
    ∃ i d, s.Reachable ∧ s.world.instance? 5 = some i ∧ i.backing = .dictionary d ∧
      i.hasTrait s.world.classes (QName.pub "007") ∧
      d.visits = [(.string "007", .int 1), (.object 6, .int 2), (.string "", .int 3)] ∧
      EnumeratesEntries (callFunction 1) s 5 i d := by
  intro start s
  have h : s.Reachable := .embed (.core 1 20 []) 1 namedEntries 20 []
  obtain ⟨i, hi⟩ := Option.isSome_iff_exists.1 (by decide +kernel : (s.world.instance? 5).isSome)
  have hfacts : (s.world.instance? 5).all fun i => i.hasTrait s.world.classes (QName.pub "007") &&
      i.dictionary.toOption.any fun d => d.visits ==
        [(.string "007", .int 1), (.object 6, .int 2), (.string "", .int 3)] := by decide +kernel
  rw [hi, Option.all_some, Bool.and_eq_true, Option.any_eq_true] at hfacts
  obtain ⟨htrait, d, hfound, hvisits⟩ := hfacts
  have hd : i.backing = .dictionary d := by
    unfold Instance.dictionary at hfound
    split at hfound
    · rename_i hb
      rw [hb, Option.some.inj hfound]
    · cases hfound
  exact ⟨i, d, h, hi, hd, htrait, eq_of_beq hvisits, State.Reachable.enumeratesEntries h 1 hi hd⟩

end ScriptPlayer
