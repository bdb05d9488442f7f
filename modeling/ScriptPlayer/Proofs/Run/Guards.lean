import ScriptPlayer.Proofs.Run.Findings

/-! Reads on proxies. While the guard is clear a read is one call of the override, between the
setting and the clearing of the guard; while it is set a read is the ordinary lookup. No other
access asks for the guard. -/
namespace ScriptPlayer

open World

def Key.text? (key : Key) : Option QName :=
  match key.name with
  | .qualified name => some ⟨key.ns, name⟩
  | .index n => some ⟨key.ns, key.spelling.getD (indexText n)⟩
  | .identity _ => none

namespace Instance

variable {i : Instance} {t : ClassTable} {key : Key} {active : Bool}

/-- What the ordinary lookup of a proxy finds: slots, then traits. -/
def ordinary (t : ClassTable) (i : Instance) (key : Key) : Found :=
  match key.text? with
  | some name => i.lookup t name
  | none => .absent

theorem read_of_proxy (hb : i.backing = .proxy active) : i.read t key = .ok (i.ordinary t key) := by
  obtain ⟨ns, name, spelling⟩ := key
  have htext : i.readsIndexAsText = true := by rw [readsIndexAsText, hb]
  cases name with
  | qualified name =>
    simp [read, resolve, htext, Key.indexSpelling?, content?, hb, ordinary, Key.text?]
  | index n =>
    simp [read, resolve, htext, Key.indexSpelling?, Key.qualified, content?, hb, ordinary,
      Key.text?]
  | identity o => simp [read, resolve, htext, Key.indexSpelling?, hb, ordinary, Key.text?]

theorem has_of_proxy (hb : i.backing = .proxy active) : i.has t key = match key.text? with
    | some name => i.slots.contains name || i.hasTrait t name
    | none => false := by
  obtain ⟨ns, name, spelling⟩ := key
  cases name with
  | qualified name => simp [has, hasNamed, content?, hb, Key.text?]
  | index n => simp [has, hasNamed, content?, hb, Key.text?]
  | identity o => simp [has, hb, Key.text?]

end Instance

theorem World.naming_congr {w w' : World} (hc : Run.SameContents w w')
    (hclasses : w'.classes = w.classes) : w'.naming = w.naming := by
  have hi : ∀ o, w'.instance? o = w.instance? o := hc.instance?
  have hf : ∀ f, w'.heap.function? f = w.heap.function? f := fun f => Heap.function?_congr (hc f)
  unfold naming
  simp only [hi, hf, hclasses]

theorem World.Sound.isValid_of_override {w : World} (hs : w.Sound) {o : ObjectId} {i : Instance}
    (hi : w.instance? o = some i) {f : FunctionId}
    (hf : i.lookup w.classes Run.overrideName = .value (.function f)) :
    w.isValid (.function f) := by
  have hmem : Value.function f ∈ (i.lookup w.classes Run.overrideName).handles := by
    rw [hf]
    exact List.mem_singleton_self _
  exact hs.isValid_of_lookup hi hmem

namespace Run

variable {call : Caller} {s : State} {o : ObjectId} {i : Instance} {key : Key}

def unguarded (o : ObjectId) (keep : List Value) (s : State) : State :=
  let w := s.world.popFrame keep
  { s with world := ((w.instance? o).map fun i => w.putInstance o (i.withGuard false)).getD w }

def leaving (o : ObjectId) :
    EStateM.Result Halt State Value → EStateM.Result Halt State (Except ScriptError (Option Value))
  | .ok v s => .ok (.ok (some v)) (unguarded o [v] s)
  | .error (.error e) s => .ok (.error e) (unguarded o [] s)
  | .error h s => .error h s

def entered (s : State) (o : ObjectId) (i : Instance) (f : FunctionId) : State :=
  guardedState { s with world := s.world.hold (.function f) } o i

theorem setGuard_unguarded {s' : State} {held : List Value} {fs : List Frame}
    (hs : s'.world.Sound) (hf : s'.world.frames = ⟨.override o, held⟩ :: fs) (hfs : fs ≠ [])
    (keep : List Value) (hkeep : ∀ v ∈ keep, s'.world.isValid v) :
    setGuard o false { s' with world := s'.world.popFrame keep } =
      .ok () (unguarded o keep s') := by
  obtain ⟨w, hrun, -, -, j, hj, rfl⟩ := setGuard_popFrame hs hf hfs keep hkeep
  rw [hrun]
  unfold unguarded
  simp only [hj, Option.map_some, Option.getD_some]

theorem guarded_call {f : FunctionId} {args : List Value} (hcall : Calls call) (hs : s.world.Sound)
    (hst : s.world.Staffed) (ho : HeldBy s.world.frames (.object o))
    (hi : s.world.instance? o = some i) (hb : i.backing = .proxy false) :
    attempt (guarded o (call f o args) >>= fun v => pure (some v)) s =
      leaving o (call f o args (guardedState s o i)) := by
  have henter : Step s.world (guardedState s o i).world := .enter hi hb ho
  have hends := hcall f o args _ (henter.sound hs) (henter.staffed hst)
  unfold attempt
  rw [bind_run, guarded_run hi hb]
  cases hm : call f o args (guardedState s o i) with
  | ok v s' =>
    obtain ⟨hsteps, hg, hv⟩ := hends.of_ok hm
    have hs' := hsteps.sound (henter.sound hs)
    rw [frames_guardedState] at hg
    obtain ⟨held, hf⟩ := hg.reheld.of_cons
    have hset := setGuard_unguarded hs' hf hs.frames_ne_nil [v] fun u hu =>
      List.mem_singleton.1 hu ▸ hs'.isValid_of_inHand hv
    dsimp only
    rw [bind_of_ok hset]
    rfl
  | error e s' =>
    cases e with
    | error e =>
      obtain ⟨hsteps, hg⟩ := hends.of_error hm
      have hs' := hsteps.sound (henter.sound hs)
      have hg := hg e rfl
      rw [frames_guardedState] at hg
      obtain ⟨held, hf⟩ := hg.reheld.of_cons
      have hset := setGuard_unguarded hs' hf hs.frames_ne_nil [] fun u hu =>
        absurd hu List.not_mem_nil
      dsimp only
      rw [bind_of_ok hset]
      rfl
    | abort f => rfl
    | exhausted => rfl

/-- A read calls the override once, with the local name as its only argument. -/
theorem get_override (key : Key) {f : FunctionId} (hcall : Calls call) (hs : s.world.Sound)
    (hst : s.world.Staffed) (ho : HeldBy s.world.frames (.object o))
    (hi : s.world.instance? o = some i) (hb : i.backing = .proxy false)
    (hf : i.lookup s.world.classes overrideName = .value (.function f)) :
    attempt (get call o key) s =
      leaving o (call f o [.string (key.localName s.world.naming)] (entered s o i f)) := by
  have hvalid := hs.isValid_of_override hi hf
  have hstep : Step s.world (s.world.hold (.function f)) := .hold hvalid
  have hsame : SameContents s.world (s.world.hold (.function f)) := content?_hold s.world _
  have hname : (s.world.hold (.function f)).naming = s.world.naming :=
    naming_congr hsame (reframes_hold s.world _).classes
  have hfound : getDefault call o overrideName s =
      .ok (some (.function f)) { s with world := s.world.hold (.function f) } := by
    rw [getDefault_run hi, hf]
    exact conclude_value hvalid
  have hintercept : interceptGet call o key s = (guarded o (call f o
      [.string (key.localName s.world.naming)]) >>= fun v => pure (some v))
        { s with world := s.world.hold (.function f) } := by
    refine (bind_of_ok (instanceOf_run hi) _).trans ?_
    rw [hb]
    refine (bind_of_ok hfound _).trans ((bind_of_ok (m := world) rfl _).trans ?_)
    rw [hname]
  have hget : attempt (get call o key) s = attempt (guarded o (call f o
      [.string (key.localName s.world.naming)]) >>= fun v => pure (some v))
        { s with world := s.world.hold (.function f) } := by
    unfold attempt get
    rw [bind_run, hintercept, bind_run]
    cases guarded o (call f o [.string (key.localName s.world.naming)])
      { s with world := s.world.hold (.function f) } <;> rfl
  rw [hget]
  exact guarded_call hcall (hstep.sound hs) (hstep.staffed hst) ((gains_hold s.world _).heldBy ho)
    ((hsame.instance? o).trans hi) hb

/-- While its override is called the guard of a proxy is set. -/
theorem isGuarded_entered {f : FunctionId} (hs : s.world.Sound)
    (ho : HeldBy s.world.frames (.object o)) (hi : s.world.instance? o = some i)
    (hb : i.backing = .proxy false) (hf : s.world.isValid (.function f)) :
    (entered s o i f).world.isGuarded o ∧ (entered s o i f).world.overrideCalls o = 1 := by
  have hstep : Step s.world (s.world.hold (.function f)) := .hold hf
  have hi' : (s.world.hold (.function f)).instance? o = some i :=
    (SameContents.instance? (content?_hold s.world _) o).trans hi
  have henter : Step (s.world.hold (.function f)) (entered s o i f).world :=
    .enter hi' hb ((gains_hold s.world _).heldBy ho)
  have hguards := (henter.sound (hstep.sound hs)).guards o
  have hpos : 0 < (entered s o i f).world.overrideCalls o :=
    overrideCalls_pos_iff.2 ⟨_, List.mem_cons_self .., rfl⟩
  cases hg : (entered s o i f).world.isGuarded o with
  | true => exact ⟨rfl, by rw [hguards, hg]; rfl⟩
  | false =>
    rw [hguards, hg] at hpos
    exact absurd hpos (Nat.lt_irrefl 0)

/-- A guarded proxy is read by the ordinary lookup. -/
theorem get_guarded (hi : s.world.instance? o = some i) (hb : i.backing = .proxy true) :
    get call o key s = conclude call o (i.ordinary s.world.classes key) s := by
  have hint : i.Unintercepted s.world.classes := by
    intro h
    cases hb.symm.trans h
  rw [get_run hi hint, Instance.read_of_proxy hb]

end Run

end ScriptPlayer
