import ScriptPlayer.Proofs.Player.Session
import ScriptPlayer.Proofs.Run.TextKeys

/-! On dictionaries and proxies an index is its text: as it was spelled, or else in decimal. -/
namespace ScriptPlayer

open World Run

/-- What an index is on an instance that reads it as text: the qualified name with that text. Texts
name places of their own, and accesses by a key go to the place that it names. -/
structure IndexText (call : Caller) (s : State) (o : ObjectId) (i : Instance) : Prop where
  get : ∀ key, perform call (.get o key) s = perform call (.get o key.asText) s
  set : ∀ key v, perform call (.set o key v) s = perform call (.set o key.asText v) s
  delete : ∀ key, perform call (.delete o key) s = perform call (.delete o key.asText) s
  intercept : ∀ key, perform call (.intercept o key) s = perform call (.intercept o key.asText) s
  has : ∀ key, i.has s.world.classes key = i.has s.world.classes key.asText
  /-- what an override is told of a key -/
  argument : ∀ key : Key, key.localName s.world.naming = key.asText.localName s.world.naming
  place : ∀ a b ns, i.place? (Key.classify a ns) = i.place? (Key.classify b ns) ↔ a = b
  decimal : ∀ n, i.place? (Key.index n) = i.place? (Key.classify (Key.indexText n) "")
  found : ∀ key v, 0 < s.budget → (∀ u ∈ key.handles, s.world.isValid u) →
    i.Unintercepted s.world.classes → i.kept? key = some v →
    ∃ s', perform call (.get o key) s = .ok (Except.ok (some v)) s'
  /-- unless a setter takes the value -/
  written : ∀ key v s' j, (∀ f, i.write s.world.classes key v ≠ .ok (.setter f)) →
    perform call (.set o key v) s = .ok (Except.ok ()) s' → s'.world.instance? o = some j →
    ∀ key', j.kept? key' = if i.place? key' = i.place? key then some v else i.kept? key'
  deleted : ∀ key s' j, perform call (.delete o key) s = .ok (Except.ok true) s' →
    s'.world.instance? o = some j →
    ∀ key', j.kept? key' = if i.place? key' = i.place? key then none else i.kept? key'
  getSpares : ∀ key, Spares call (perform call (.get o key)) s
  setSpares : ∀ key v, Spares call (perform call (.set o key v)) s
  deleteSpares : ∀ key, Spares call (perform call (.delete o key)) s

namespace Instance

variable {i j : Instance} {p : Place}

theorem kept?_of_at? {found : Option Value} (hkind : j.backing.kind = i.backing.kind)
    (hat : ∀ p', j.at? p' = if p' = p then found else i.at? p') (key : Key) :
    j.kept? key = if i.place? key = some p then found else i.kept? key := by
  unfold kept?
  rw [place?_congr hkind]
  cases i.place? key with
  | none => simp
  | some p' => simp [hat]

end Instance

variable {call : Caller} {s s' : State} {o : ObjectId} {i j : Instance} {key : Key} {v : Value}

namespace Run

theorem kept?_of_set (hs : s.world.Sound) (hi : s.world.instance? o = some i)
    (ht : i.readsIndexAsText) (hset : ∀ f, i.write s.world.classes key v ≠ .ok (.setter f))
    (h : perform call (.set o key v) s = .ok (Except.ok ()) s')
    (hj : s'.world.instance? o = some j) (key' : Key) :
    j.kept? key' = if i.place? key' = i.place? key then some v else i.kept? key' := by
  rcases write_of_perform hi h with ⟨k, hk⟩ | ⟨f, hf⟩
  · have hstores : Op.Stores s.world (.set o key v) (Except.ok ()) o k (i.stored key)
        (i.taken key v) := .set hi hk
    have hrun : perform call (.set o key v) s = _ :=
      perform_stores_run hs (budget_pos_of_perform h) (isValid_of_perform h) hstores
    obtain rfl := (EStateM.Result.ok.inj (h.symm.trans hrun)).2
    obtain rfl := instance?_of_fades hi (fades_exchange hi k _ _) hj
    have hwritten := Instance.stores_of_write hk
    obtain ⟨p, hp, hat⟩ := hwritten.at?_eq (hs.wellFormed hi) (Instance.not_bytes_of_text ht)
    rw [hp]
    exact Instance.kept?_of_at? hwritten.kind_eq hat key'
  · exact absurd hf (hset f)

theorem kept?_of_delete (hs : s.world.Sound) (hst : s.world.Staffed)
    (hi : s.world.instance? o = some i)
    (h : perform call (.delete o key) s = .ok (Except.ok true) s')
    (hj : s'.world.instance? o = some j) (key' : Key) :
    j.kept? key' = if i.place? key' = i.place? key then none else i.kept? key' := by
  obtain ⟨p, k, hp, hloses, -, hfades⟩ := loses_of_delete hs hi h
  obtain rfl := instance?_of_fades hi hfades hj
  have hwf' := (sound_of_delete hs hst h).wellFormed hj
  rw [hp]
  exact Instance.kept?_of_at? hloses.kind_eq (hloses.at?_eq (hs.wellFormed hi) hwf') key'

theorem get_of_kept (call : Caller) (hs : s.world.Sound) (hb : 0 < s.budget)
    (hi : s.world.instance? o = some i) (ht : i.readsIndexAsText)
    (hkey : ∀ u ∈ key.handles, s.world.isValid u) (hint : i.Unintercepted s.world.classes)
    (hkept : i.kept? key = some v) :
    ∃ s', perform call (.get o key) s = .ok (Except.ok (some v)) s' := by
  have hread : i.read s.world.classes key = .ok (.value v) :=
    Instance.read_of_kept (Instance.takes_of_text ht key) hkept
  have hfinds : Op.Finds s.world (.get o key) (Except.ok (some v)) := .get hi hint hread
  obtain ⟨s', hrun, -⟩ := perform_finds_contents call hs hb (isValid_operands hi hkey) hfinds
  exact ⟨s', hrun⟩

end Run

theorem State.Reachable.indexText (h : s.Reachable) (call : Caller)
    (hi : s.world.instance? o = some i) (ht : i.readsIndexAsText) : IndexText call s o i := by
  obtain ⟨hs, hst⟩ := h.sound
  exact {
    get := fun key => (perform_get_asText call hi ht key).symm
    set := fun key v => (perform_set_asText call hi ht key v).symm
    delete := fun key => (perform_delete_asText call hi ht key).symm
    intercept := fun key => (perform_intercept_asText call o key s).symm
    has := fun key => (Instance.has_asText ht key).symm
    argument := fun key => (key.localName_asText _).symm
    place := fun a b ns => Instance.place?_classify_inj ht a b ns
    decimal := fun n => by
      rw [← Instance.place?_asText ht (Key.classify _ _), Key.asText_classify,
        ← Instance.place?_asText ht (Key.index n)]
      rfl
    found := fun key v hb hkey hint hkept => get_of_kept call hs hb hi ht hkey hint hkept
    written := fun key v s' j hset hrun hj => kept?_of_set hs hi ht hset hrun hj
    deleted := fun key s' j hrun hj => kept?_of_delete hs hst hi hrun hj
    getSpares := Spares.perform_get call hi ht
    setSpares := Spares.perform_set call hi ht
    deleteSpares := Spares.perform_delete call hi ht }

def spelledIndices : Session :=
  .ask (.perform .look) fun w =>
  .ask (.perform (.instantiate w.core.dictionary none)) fun o =>
  .ask (.assign 0 (.object o)) fun _ =>
  .ask (.perform (.set o (Key.classify "007" "") (.int 1))) fun _ =>
  .ask (.perform (.set o (Key.index 7) (.int 2))) fun _ => .done

theorem indexText_spelledIndices :
    let start : State := ⟨World.initial.withPlaces 1, [], 9, []⟩
    let s : State := { start.afterRun (embed 1 spelledIndices) with
      budget := 9, interference := [] }
    ∃ i, s.Reachable ∧ s.world.instance? 4 = some i ∧ i.readsIndexAsText ∧
      i.kept? (Key.classify "007" "") = some (.int 1) ∧
      i.kept? (Key.classify "7" "") = some (.int 2) ∧ IndexText (callFunction 1) s 4 i := by
  intro start s
  have h : s.Reachable := .embed (.core 1 9 []) 1 spelledIndices 9 []
  obtain ⟨i, hi⟩ := Option.isSome_iff_exists.1 (by decide +kernel : (s.world.instance? 4).isSome)
  have hfacts : (s.world.instance? 4).all fun i => i.readsIndexAsText &&
      i.kept? (Key.classify "007" "") == some (.int 1) &&
      i.kept? (Key.classify "7" "") == some (.int 2) := by decide +kernel
  rw [hi, Option.all_some] at hfacts
  simp only [Bool.and_eq_true, beq_iff_eq] at hfacts
  obtain ⟨⟨ht, hspelled⟩, hdecimal⟩ := hfacts
  exact ⟨i, h, hi, ht, hspelled, hdecimal, State.Reachable.indexText h (callFunction 1) hi ht⟩

end ScriptPlayer
