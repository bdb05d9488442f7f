import ScriptPlayer.Proofs.Run.Places
import ScriptPlayer.Proofs.Run.Refusals

/-! Dictionaries and proxies take an index for its text: whatever is done with an index there comes
to the same with the qualified name that is its text, and is never refused for want of an index. -/
namespace ScriptPlayer

open World

namespace Key

/-- An index becomes the qualified name that is its text; other keys stay as they are. -/
def asText (key : Key) : Key :=
  match key.indexSpelling? with
  | some text => qualified text key.ns
  | none => key

@[simp] theorem handles_asText (key : Key) : key.asText.handles = key.handles := by
  obtain ⟨ns, name, spelling⟩ := key
  cases name <;> rfl

@[simp] theorem text?_asText (key : Key) : key.asText.text? = key.text? := by
  obtain ⟨ns, name, spelling⟩ := key
  cases name <;> rfl

@[simp] theorem entry_asText (key : Key) : key.asText.entry = key.entry := by
  obtain ⟨ns, name, spelling⟩ := key
  cases name <;> rfl

@[simp] theorem localName_asText (key : Key) (names : Naming) :
    key.asText.localName names = key.localName names := by
  obtain ⟨ns, name, spelling⟩ := key
  cases name <;> rfl

@[simp] theorem asText_asText (key : Key) : key.asText.asText = key.asText := by
  obtain ⟨ns, name, spelling⟩ := key
  cases name <;> rfl

theorem asText_classify (raw ns : String) : (classify raw ns).asText = qualified raw ns := by
  unfold classify
  cases parseIndex? raw <;> rfl

end Key

namespace Instance

variable {i : Instance} {t : ClassTable} {key : Key}

theorem resolve_eq_asText (h : i.readsIndexAsText) (key : Key) : i.resolve key = key.asText :=
  if_pos h

theorem resolve_asText (h : i.readsIndexAsText) (key : Key) :
    i.resolve key.asText = i.resolve key := by
  rw [resolve_eq_asText h, resolve_eq_asText h, Key.asText_asText]

theorem read_asText (h : i.readsIndexAsText) (key : Key) :
    i.read t key.asText = i.read t key := by
  unfold read
  rw [resolve_asText h]

theorem write_asText (h : i.readsIndexAsText) (key : Key) (v : Value) :
    i.write t key.asText v = i.write t key v := by
  unfold write
  rw [resolve_asText h]

theorem remove_asText (h : i.readsIndexAsText) (key : Key) :
    i.remove t key.asText = i.remove t key := by
  unfold remove
  rw [resolve_asText h]

theorem not_bytes_of_text (h : i.readsIndexAsText) (b : ByteBuffer) : i.backing ≠ .bytes b := by
  intro hb
  unfold readsIndexAsText at h
  rw [hb] at h
  cases h

theorem takes_of_text (h : i.readsIndexAsText) (key : Key) : i.takes key := by
  obtain ⟨ns, name, spelling⟩ := key
  cases hb : i.backing <;> cases name <;> simp_all [takes, readsIndexAsText, Backing.kind]

theorem has_asText (h : i.readsIndexAsText) (key : Key) : i.has t key.asText = i.has t key := by
  obtain ⟨ns, name, spelling⟩ := key
  cases name with
  | index n =>
    cases hb : i.backing with
    | bytes b => exact absurd hb (not_bytes_of_text h b)
    | _ => simp [has, hb, Key.asText, Key.indexSpelling?, Key.qualified]
  | _ => rfl

theorem place?_of_text (h : i.readsIndexAsText) (key : Key) : i.place? key =
    if i.backing.kind = .dictionary then some (.entry key.entry) else key.text?.map .slot := by
  cases hb : i.backing <;> cases hn : key.name <;>
    simp_all [place?, readsIndexAsText, Backing.kind]

theorem place?_asText (h : i.readsIndexAsText) (key : Key) :
    i.place? key.asText = i.place? key := by
  rw [place?_of_text h, place?_of_text h, Key.entry_asText, Key.text?_asText]

/-- Texts that were classified in one namespace name one place if and only if they are the same. -/
theorem place?_classify_inj (h : i.readsIndexAsText) (a b ns : String) :
    i.place? (Key.classify a ns) = i.place? (Key.classify b ns) ↔ a = b := by
  rw [← place?_asText h, ← place?_asText h (Key.classify b ns), Key.asText_classify,
    Key.asText_classify, place?_of_text h, place?_of_text h]
  split <;> simp [Key.entry, Key.text?, Key.qualified]

/-! No access is refused for want of an index. -/

theorem exists_read_of_text (h : i.readsIndexAsText) (t : ClassTable) (key : Key) :
    ∃ found, i.read t key = .ok found := by
  obtain ⟨ns, name, spelling⟩ := key
  cases hb : i.backing <;> cases name <;>
    simp_all [read, resolve, readsIndexAsText, Key.indexSpelling?, Key.qualified] <;>
    split <;> simp

theorem write_ne_abort (h : i.readsIndexAsText) (t : ClassTable) (key : Key) (v : Value)
    (f : Fatal) : i.write t key v ≠ .error (.abort f) := by
  obtain ⟨ns, name, spelling⟩ := key
  cases hb : i.backing <;> cases name <;>
    simp_all [write, resolve, readsIndexAsText, Key.indexSpelling?, Key.qualified,
      noObjectKeys] <;> split <;> simp

theorem removeSlot_ne_abort (t : ClassTable) (i : Instance) (name : QName) (f : Fatal) :
    i.removeSlot t name ≠ .error (.abort f) := by
  unfold removeSlot
  split
  · simp
  · split <;> simp

theorem remove_ne_abort (h : i.readsIndexAsText) (t : ClassTable) (key : Key) (f : Fatal) :
    i.remove t key ≠ .error (.abort f) := by
  have hslot := i.removeSlot_ne_abort t
  obtain ⟨ns, name, spelling⟩ := key
  cases hb : i.backing <;> cases name <;>
    simp_all [remove, resolve, readsIndexAsText, Key.indexSpelling?, Key.qualified,
      noObjectKeys] <;> split <;> simp_all

end Instance

namespace Run

variable {α β : Type} {call : Caller} {s s' : State} {o : ObjectId} {i : Instance} {key : Key}

/-! Runs with the index and runs with its text -/

theorem interceptGet_asText (call : Caller) (o : ObjectId) (key : Key) :
    interceptGet call o key.asText = interceptGet call o key := by
  unfold interceptGet
  simp only [Key.localName_asText]

theorem getDefault_none {name : QName} (hi : s.world.instance? o = some i)
    (h : getDefault call o name s = .ok none s') : s' = s := by
  rw [getDefault_run hi] at h
  cases hl : i.lookup s.world.classes name with
  | absent =>
    rw [hl] at h
    exact (EStateM.Result.ok.inj h).2.symm
  | value v | getter f =>
    rw [hl] at h
    obtain ⟨_, _, -, hsome⟩ := exists_of_bind_ok h
    cases (EStateM.Result.ok.inj hsome).1

theorem interceptGet_none (hi : s.world.instance? o = some i)
    (h : interceptGet call o key s = .ok none s') : s' = s := by
  unfold interceptGet at h
  rw [bind_of_ok (instanceOf_run hi)] at h
  rcases hb : i.backing with _ | _ | _ | active | _ <;> rw [hb] at h
  case proxy =>
    cases active with
    | true => exact (EStateM.Result.ok.inj h).2.symm
    | false =>
      obtain ⟨found, s₁, hfound, hrest⟩ := exists_of_bind_ok h
      rcases found with _ | v
      · obtain rfl := getDefault_none hi hfound
        exact (EStateM.Result.ok.inj hrest).2.symm
      · cases v with
        | function f =>
          obtain ⟨_, _, -, hcalled⟩ := exists_of_bind_ok (m := world) hrest
          obtain ⟨_, _, -, hsome⟩ := exists_of_bind_ok hcalled
          cases (EStateM.Result.ok.inj hsome).1
        | _ => cases hrest
  all_goals exact (EStateM.Result.ok.inj h).2.symm

theorem get_asText (hi : s.world.instance? o = some i) (ht : i.readsIndexAsText) :
    get call o key.asText s = get call o key s := by
  unfold get
  rw [interceptGet_asText, bind_run, bind_run]
  cases hrun : interceptGet call o key s with
  | error e s₁ => rfl
  | ok found s₁ =>
    cases found with
    | some v => rfl
    | none =>
      obtain rfl := interceptGet_none hi hrun
      dsimp only
      rw [bind_of_ok (instanceOf_run hi), bind_of_ok (instanceOf_run hi)]
      simp only [Instance.read_asText ht]

theorem set_asText {v : Value} (hi : s.world.instance? o = some i) (ht : i.readsIndexAsText) :
    set call o key.asText v s = set call o key v s := by
  rw [set_concludes hi, set_concludes hi, Instance.write_asText ht]

theorem delete_asText (hi : s.world.instance? o = some i) (ht : i.readsIndexAsText) :
    delete o key.asText s = delete o key s := by
  rw [delete_concludes hi, delete_concludes hi, Instance.remove_asText ht]

theorem operation_congr {ops : List Value} {keep : α → List Value} {m m' : Run α}
    {k : α → Run β} (h : ∀ s₁, SameContents s.world s₁.world → m s₁ = m' s₁) :
    (do pulse; k (← framed .operation keep (do ops.forM hold; m)) : Run β) s =
      (do pulse; k (← framed .operation keep (do ops.forM hold; m')) : Run β) s := by
  rw [bind_run, bind_run]
  cases hpulse : pulse s with
  | error e s₁ => rfl
  | ok u s₁ =>
    have hbody : (do ops.forM hold; m : Run α)
        { s₁ with world := s₁.world.pushFrame .operation } =
          (do ops.forM hold; m' : Run α) { s₁ with world := s₁.world.pushFrame .operation } := by
      rw [bind_run, bind_run]
      cases hheld : (ops.forM hold : Run Unit)
          { s₁ with world := s₁.world.pushFrame .operation } with
      | error e s₂ => rfl
      | ok u s₂ =>
        rw [holdAll_run (isValid_of_holds hheld)] at hheld
        obtain rfl := (EStateM.Result.ok.inj hheld).2
        obtain rfl := eq_pulsed hpulse
        exact h _ (sameContents_opened s ops)
    dsimp only
    rw [bind_run, bind_run]
    unfold framed
    rw [hbody]

theorem perform_get_asText (call : Caller) (hi : s.world.instance? o = some i)
    (ht : i.readsIndexAsText) (key : Key) :
    perform call (.get o key.asText) s = perform call (.get o key) s := by
  have hops : (Op.get o key.asText).operands = (Op.get o key).operands := by simp [Op.operands]
  unfold perform
  rw [hops]
  exact operation_congr fun s₁ hsame =>
    attempt_congr (get_asText ((hsame.instance? o).trans hi) ht)

theorem perform_intercept_asText (call : Caller) (o : ObjectId) (key : Key) (s : State) :
    perform call (.intercept o key.asText) s = perform call (.intercept o key) s := by
  have hops : (Op.intercept o key.asText).operands = (Op.intercept o key).operands := by
    simp [Op.operands]
  unfold perform
  rw [hops]
  exact operation_congr fun s₁ _ =>
    attempt_congr (congrFun (interceptGet_asText call o key) s₁)

theorem perform_set_asText (call : Caller) (hi : s.world.instance? o = some i)
    (ht : i.readsIndexAsText) (key : Key) (v : Value) :
    perform call (.set o key.asText v) s = perform call (.set o key v) s := by
  have hops : (Op.set o key.asText v).operands = (Op.set o key v).operands := by
    simp [Op.operands]
  unfold perform
  rw [hops]
  exact operation_congr fun s₁ hsame =>
    attempt_congr (set_asText ((hsame.instance? o).trans hi) ht)

theorem perform_delete_asText (call : Caller) (hi : s.world.instance? o = some i)
    (ht : i.readsIndexAsText) (key : Key) :
    perform call (.delete o key.asText) s = perform call (.delete o key) s := by
  have hops : (Op.delete o key.asText).operands = (Op.delete o key).operands := by
    simp [Op.operands]
  unfold perform
  rw [hops]
  exact operation_congr fun s₁ hsame =>
    attempt_congr (delete_asText ((hsame.instance? o).trans hi) ht)

/-! No access is refused for want of an index. -/

namespace Spares

variable (call : Caller) (hi : s.world.instance? o = some i) (ht : i.readsIndexAsText)
include hi ht

theorem get (key : Key) : Spares call (get call o key) s := by
  refine (interceptGet o key s).bind fun found s₁ hfound => ?_
  cases found with
  | some v => exact of_ok rfl
  | none =>
    obtain rfl := interceptGet_none hi hfound
    obtain ⟨found, hread⟩ := Instance.exists_read_of_text ht s₁.world.classes key
    refine (conclude o found s₁).congr ?_
    refine (bind_of_ok (instanceOf_run hi) _).trans ((bind_of_ok (m := world) rfl _).trans ?_)
    rw [hread]
    cases found <;> rfl

theorem set (key : Key) (v : Value) : Spares call (set call o key v) s := by
  refine Spares.congr (set_concludes hi) ?_
  cases hw : i.write s.world.classes key v with
  | error e =>
    refine of_error rfl fun c he => ?_
    exact Instance.write_ne_abort ht _ key v _ (hw.trans (congrArg Except.error he))
  | ok written =>
    cases written with
    | stored j => exact of_ok rfl
    | setter f => exact (forEffect (called f o [v]) s)

theorem delete (key : Key) : Spares call (delete o key) s := by
  refine Spares.congr (delete_concludes hi) ?_
  cases hr : i.remove s.world.classes key with
  | error e =>
    refine of_error rfl fun c he => ?_
    exact Instance.remove_ne_abort ht _ key _ (hr.trans (congrArg Except.error he))
  | ok removal => cases removal <;> exact of_ok rfl

theorem perform_get (key : Key) : Spares call (perform call (.get o key)) s := by
  unfold perform
  exact operation (fun s₁ hsame => (get call ((hsame.instance? o).trans hi) ht key).attempt)
    fun _ _ => of_ok rfl

theorem perform_set (key : Key) (v : Value) : Spares call (perform call (.set o key v)) s := by
  unfold perform
  exact operation (fun s₁ hsame => (set call ((hsame.instance? o).trans hi) ht key v).attempt)
    fun _ _ => of_ok rfl

theorem perform_delete (key : Key) : Spares call (perform call (.delete o key)) s := by
  unfold perform
  exact operation (fun s₁ hsame => (delete call ((hsame.instance? o).trans hi) ht key).attempt)
    fun _ _ => of_ok rfl

end Spares

end Run

end ScriptPlayer
