import ScriptPlayer.Proofs.Run.Ends
import ScriptPlayer.Script.Property

/-! Runs in frames of their own, and the call of a proxy's override between the setting and the
clearing of its guard. -/
namespace ScriptPlayer

open World

def Kept (fs : List Frame) (keep : List Value) (fs' : List Frame) : Prop :=
  ∃ below rest, fs = below :: rest ∧ fs' = { below with held := keep ++ below.held } :: rest

theorem Kept.gains {fs fs' : List Frame} {keep : List Value} (h : Kept fs keep fs') :
    Gains fs fs' := by
  obtain ⟨below, rest, rfl, rfl⟩ := h
  exact .more below.purpose below.held keep rest

theorem Kept.eq_of_nil {fs fs' : List Frame} (h : Kept fs [] fs') : fs' = fs := by
  obtain ⟨below, rest, rfl, rfl⟩ := h
  rfl

theorem Kept.inHand {w : World} {fs : List Frame} {keep : List Value} (h : Kept fs keep w.frames)
    {v : Value} (hv : v ∈ keep) : w.InHand v := by
  obtain ⟨below, rest, -, hf⟩ := h
  exact ⟨_, rest, hf, List.mem_append_left _ hv⟩

namespace World

variable {w : World}

theorem kept_popFrame {f : Frame} {fs : List Frame} (hf : w.frames = f :: fs) (hfs : fs ≠ [])
    (keep : List Value) : Kept fs keep (w.popFrame keep).frames := by
  cases fs with
  | nil => exact absurd rfl hfs
  | cons below rest => exact ⟨below, rest, rfl, frames_popFrame hf keep⟩

/-- When the call of an override ends, its proxy is still there with its guard set. -/
theorem Sound.exists_guarded (hs : w.Sound) {o : ObjectId} {held : List Value} {fs : List Frame}
    (hf : w.frames = ⟨.override o, held⟩ :: fs) {keep : List Value}
    (hkeep : ∀ v ∈ keep, w.isValid v) :
    ∃ i, (w.popFrame keep).instance? o = some i ∧ i.backing = .proxy true := by
  have hanch := hs.anchored
  rw [hf] at hanch
  have ho : HeldBy fs (.object o) := hanch.1 o rfl
  cases fs with
  | nil =>
    obtain ⟨g, hg, -⟩ := ho
    exact absurd hg List.not_mem_nil
  | cons below rest =>
    obtain ⟨hheap, -, -⟩ := hs.popFrame hf hkeep
    have ho' : HeldBy (w.popFrame keep).frames (.object o) := by
      rw [frames_popFrame hf]
      exact (Gains.more below.purpose below.held keep rest).heldBy ho
    have halive : ((w.popFrame keep).instance? o).isSome :=
      hheap.refers_outside (mem_roots_of_heldBy ho')
    obtain ⟨i, hi⟩ := Option.isSome_iff_exists.1 halive
    refine ⟨i, hi, ?_⟩
    have hguard : w.isGuarded o = true := by
      have hcalls := hs.guards o
      rw [overrideCalls_eq, hf, List.map_cons, List.count_cons_self] at hcalls
      split at hcalls
      · assumption
      · exact absurd hcalls (by simp)
    rw [isGuarded_of_instance ((fades_popFrame w keep).instance? hi)] at hguard
    unfold Instance.isActive at hguard
    split at hguard
    · rename_i active hb
      rw [hb, hguard]
    · exact absurd hguard (by simp)

end World

namespace Run

variable {α : Type} {s : State}

theorem ends_framed {p : Purpose} (hp : p.isPlain) {keep : α → List Value} {m : Run α}
    {Q : α → World → Prop} (hs : s.world.Sound)
    (h : Ends Reheld m { s with world := s.world.pushFrame p } fun a w =>
      (∀ v ∈ keep a, w.isValid v) ∧ Q a w) :
    Ends Gains (framed p keep m) s fun a w =>
      Kept s.world.frames (keep a) w.frames ∧ ∃ w', Q a w' ∧ Steps w' w := by
  have hpush : Steps s.world (s.world.pushFrame p) := (Step.push hp).steps
  -- closing the frame is a step, whatever is kept
  have hpop : ∀ (s' : State) (vs : List Value),
      Reheld (s.world.pushFrame p).frames s'.world.frames → (∀ v ∈ vs, s'.world.isValid v) →
      Step s'.world (s'.world.popFrame vs) ∧
        Kept s.world.frames vs (s'.world.popFrame vs).frames := by
    intro s' vs hr hvs
    obtain ⟨held, hf⟩ := hr.of_cons
    have hkept := kept_popFrame hf hs.frames_ne_nil vs
    obtain ⟨below, rest, hfs, -⟩ := id hkept
    rw [hfs] at hf
    exact ⟨.pop hf hp hvs, hkept⟩
  unfold Ends framed
  cases hm : m { s with world := s.world.pushFrame p } with
  | ok a s' =>
    obtain ⟨hsteps, hr, hkeep, hpost⟩ := h.of_ok hm
    obtain ⟨hstep, hkept⟩ := hpop s' (keep a) hr hkeep
    exact ⟨(hpush.trans hsteps).tail hstep, hkept.gains, hkept, s'.world, hpost, hstep.steps⟩
  | error e s' =>
    obtain ⟨hsteps, hr⟩ := h.of_error hm
    cases e with
    | error e =>
      obtain ⟨hstep, hkept⟩ := hpop s' [] (hr e rfl) fun v hv => absurd hv List.not_mem_nil
      exact ⟨(hpush.trans hsteps).tail hstep, fun _ _ => hkept.gains⟩
    | abort f => exact ⟨hpush.trans hsteps, by rintro x ⟨⟩⟩
    | exhausted => exact ⟨hpush.trans hsteps, by rintro x ⟨⟩⟩

theorem ends_forEffect {m : Run α} {Q : α → World → Prop} (hs : s.world.Sound)
    (h : Ends Reheld m { s with world := s.world.pushFrame .operation } Q) :
    Ends Gains (forEffect m) s fun _ w => w.frames = s.world.frames := by
  have hs' : (s.world.pushFrame .operation).Sound := (Step.push rfl).sound hs
  have hdiscard : Ends Reheld (discard m) { s with world := s.world.pushFrame .operation }
      fun _ w => (∀ v ∈ ([] : List Value), w.isValid v) ∧ True :=
    h.bind hs' fun a s' _ _ _ _ => ends_pure ⟨fun v hv => absurd hv List.not_mem_nil, trivial⟩
  exact (ends_framed rfl hs hdiscard).imp fun _ _ _ _ h => h.1.eq_of_nil

/-! Single steps -/

def SameContents (w w' : World) : Prop := ∀ id, w'.heap.content? id = w.heap.content? id

theorem SameContents.instance? {w w' : World} (h : SameContents w w') (o : ObjectId) :
    w'.instance? o = w.instance? o :=
  Heap.instance?_congr (h o)

theorem ends_hold {v : Value} (hs : s.world.Sound) :
    Ends Gains (hold v) s fun _ w => w.InHand v ∧ SameContents s.world w := by
  apply ends_requireValid_bind
  intro hv
  obtain ⟨f, rest, hf⟩ := hs.exists_frame
  have hframes : (s.world.hold v).frames = { f with held := v :: f.held } :: rest := by
    unfold World.hold
    rw [hf]
  apply ends_modifyWorld (.hold hv)
  · exact gains_hold s.world v
  · exact ⟨⟨_, rest, hframes, List.mem_cons_self ..⟩, content?_hold s.world v⟩

theorem ends_holdAll (vs : List Value) (hs : s.world.Sound) :
    Ends Gains (vs.forM hold) s fun _ w =>
      (∀ v ∈ vs, w.InHand v) ∧ SameContents s.world w := by
  induction vs generalizing s with
  | nil => exact ends_pure ⟨fun v hv => absurd hv List.not_mem_nil, fun _ => rfl⟩
  | cons v vs ih =>
    apply (ends_hold hs).bind hs
    intro _ s' _ hs' _ hv
    refine (ih hs').imp fun _ w _ hg hvs => ⟨fun u hu => ?_, fun id => ?_⟩
    · rcases List.mem_cons.1 hu with rfl | hu
      · exact hv.1.gains hg
      · exact hvs.1 u hu
    · exact (hvs.2 id).trans (hv.2 id)

theorem ends_update {o : ObjectId} {i j : Instance} {new : List Value}
    (hi : s.world.instance? o = some i) (hj : i.Update s.world.classes j new)
    (hnew : ∀ v ∈ new, s.world.isValid v) :
    Ends Gains (putInstance o j) s fun _ w => w.frames = s.world.frames := by
  have hf := frames_putInstance s.world o j
  exact ends_modifyWorld (.update hi hj hnew) (hf ▸ .same _) hf

/-! Guards -/

theorem setGuard_run {o : ObjectId} {i : Instance} {b : Bool} (hi : s.world.instance? o = some i)
    (hb : i.backing = .proxy b) (active : Bool) :
    setGuard o active s =
      .ok () { s with world := s.world.putInstance o (i.withGuard active) } := by
  simp [setGuard, instanceOf, bind, EStateM.bind, world, hi, pure, EStateM.pure, hb, putInstance,
    modifyWorld, Instance.withGuard]

/-- The state in which the override of a proxy is called: guard set, frame open. -/
def guardedState (s : State) (o : ObjectId) (i : Instance) : State :=
  { s with world := (s.world.putInstance o (i.withGuard true)).pushFrame (.override o) }

theorem frames_guardedState (s : State) (o : ObjectId) (i : Instance) :
    (guardedState s o i).world.frames = ⟨.override o, []⟩ :: s.world.frames := by
  simp only [guardedState, pushFrame, frames_putInstance]

theorem guarded_run {o : ObjectId} {i : Instance} (hi : s.world.instance? o = some i)
    (hb : i.backing = .proxy false) (m : Run Value) :
    guarded o m s = match m (guardedState s o i) with
      | .ok v s' => (do setGuard o false; return v : Run Value)
          { s' with world := s'.world.popFrame [v] }
      | .error (.error e) s' => (do setGuard o false; fail e : Run Value)
          { s' with world := s'.world.popFrame [] }
      | .error h s' => .error h s' := by
  have hset := setGuard_run hi hb true
  unfold guarded
  simp only [bind, EStateM.bind, hset, attempt, framed, guardedState]
  cases m { s with
      world := (s.world.putInstance o (i.withGuard true)).pushFrame (.override o) } with
  | ok v s' => rfl
  | error e s' => cases e <;> rfl

theorem setGuard_popFrame {s' : State} {o : ObjectId} {held : List Value} {fs : List Frame}
    (hs : s'.world.Sound) (hf : s'.world.frames = ⟨.override o, held⟩ :: fs) (hfs : fs ≠ [])
    (keep : List Value) (hkeep : ∀ v ∈ keep, s'.world.isValid v) :
    ∃ w, setGuard o false { s' with world := s'.world.popFrame keep } =
        .ok () { s' with world := w } ∧
      Step s'.world w ∧ Kept fs keep w.frames ∧
      ∃ i, (s'.world.popFrame keep).instance? o = some i ∧
        w = (s'.world.popFrame keep).putInstance o (i.withGuard false) := by
  obtain ⟨i, hi, hb⟩ := hs.exists_guarded hf hkeep
  refine ⟨_, setGuard_run hi hb false, .leave hf hkeep hi hb, ?_, i, hi, rfl⟩
  rw [frames_putInstance]
  exact kept_popFrame hf hfs keep

/-- A guarded run sets the guard, runs in a frame of its own, and clears the guard again. -/
theorem ends_guarded {o : ObjectId} {i : Instance} {m : Run Value} (hs : s.world.Sound)
    (hi : s.world.instance? o = some i) (hb : i.backing = .proxy false)
    (ho : HeldBy s.world.frames (.object o))
    (h : Steps s.world (guardedState s o i).world → (guardedState s o i).world.Sound →
      Ends Reheld m (guardedState s o i) fun v w => w.isValid v) :
    Ends Gains (guarded o m) s fun v w => w.InHand v := by
  have henter : Step s.world (guardedState s o i).world := .enter hi hb ho
  have hs₁ := henter.sound hs
  have h := h henter.steps hs₁
  unfold Ends
  rw [guarded_run hi hb m]
  cases hm : m (guardedState s o i) with
  | ok v s' =>
    obtain ⟨hsteps, hr, hv⟩ := h.of_ok hm
    rw [frames_guardedState] at hr
    obtain ⟨held, hf⟩ := hr.of_cons
    obtain ⟨w, hrun, hstep, hkept, -⟩ := setGuard_popFrame (hsteps.sound hs₁) hf
      hs.frames_ne_nil [v] fun u hu => List.mem_singleton.1 hu ▸ hv
    simp only [bind, EStateM.bind, hrun]
    exact ⟨(henter.steps.trans hsteps).tail hstep, hkept.gains,
      hkept.inHand (List.mem_singleton_self v)⟩
  | error e s' =>
    obtain ⟨hsteps, hr⟩ := h.of_error hm
    cases e with
    | error e =>
      have hr := hr e rfl
      rw [frames_guardedState] at hr
      obtain ⟨held, hf⟩ := hr.of_cons
      obtain ⟨w, hrun, hstep, hkept, -⟩ := setGuard_popFrame (hsteps.sound hs₁) hf
        hs.frames_ne_nil [] fun u hu => absurd hu List.not_mem_nil
      simp only [bind, EStateM.bind, hrun]
      exact ⟨(henter.steps.trans hsteps).tail hstep, fun _ _ => hkept.gains⟩
    | abort f => exact ⟨henter.steps.trans hsteps, by rintro x ⟨⟩⟩
    | exhausted => exact ⟨henter.steps.trans hsteps, by rintro x ⟨⟩⟩

end Run

end ScriptPlayer
