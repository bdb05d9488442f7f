import Mathlib.Order.Defs.Unbundled
import ScriptPlayer.Proofs.World.Staffed
import ScriptPlayer.Script.Run

/-! What can be said of every run: the world goes through steps, and the frames that a run finds are
there again when it returns or fails. A fault or an exhausted allowance may leave frames open. -/
namespace ScriptPlayer

/-- The innermost frame may hold more than before; all else is the same. -/
inductive Gains : List Frame → List Frame → Prop
  | same (fs : List Frame) : Gains fs fs
  | more (p : Purpose) (held new : List Value) (rest : List Frame) :
      Gains (⟨p, held⟩ :: rest) (⟨p, new ++ held⟩ :: rest)

theorem Gains.reheld {fs fs' : List Frame} (h : Gains fs fs') : Reheld fs fs' := by
  cases h with
  | same => exact .same fs
  | more p held new rest => exact .head p held _ rest

theorem Gains.trans {fs₁ fs₂ fs₃ : List Frame} (h : Gains fs₁ fs₂) (h' : Gains fs₂ fs₃) :
    Gains fs₁ fs₃ := by
  cases h with
  | same => exact h'
  | more p held new rest =>
    cases h' with
    | same => exact .more p held new rest
    | more _ _ new' _ =>
      rw [← List.append_assoc]
      exact .more p held _ rest

theorem Reheld.trans {fs₁ fs₂ fs₃ : List Frame} (h : Reheld fs₁ fs₂) (h' : Reheld fs₂ fs₃) :
    Reheld fs₁ fs₃ := by
  cases h with
  | same => exact h'
  | head p held held' rest =>
    cases h' with
    | same => exact .head p held held' rest
    | head _ _ held'' _ => exact .head p held held'' rest

instance : IsPreorder (List Frame) Gains where
  refl := .same
  trans _ _ _ := .trans

instance : IsPreorder (List Frame) Reheld where
  refl := .same
  trans _ _ _ := .trans

theorem Gains.heldBy {fs fs' : List Frame} (h : Gains fs fs') {v : Value} (hv : HeldBy fs v) :
    HeldBy fs' v := by
  cases h with
  | same => exact hv
  | more p held new rest =>
    apply hv.mono
    intro f hf hp
    rcases List.mem_cons.1 hf with rfl | hf
    · exact ⟨_, List.mem_cons_self .., hp, fun v hv => List.mem_append_right new hv⟩
    · exact ⟨f, List.mem_cons_of_mem _ hf, hp, fun _ hv => hv⟩

theorem World.gains_hold (w : World) (v : Value) : Gains w.frames (w.hold v).frames := by
  unfold World.hold
  cases hf : w.frames with
  | nil =>
    change Gains [] w.frames
    rw [hf]
    exact .same []
  | cons f rest => exact .more f.purpose f.held [v] rest

theorem Reheld.of_cons {p : Purpose} {held : List Value} {rest fs' : List Frame}
    (h : Reheld (⟨p, held⟩ :: rest) fs') : ∃ held', fs' = ⟨p, held'⟩ :: rest := by
  cases h with
  | same => exact ⟨held, rfl⟩
  | head _ _ held' _ => exact ⟨held', rfl⟩

namespace World

def InHand (w : World) (v : Value) : Prop := ∃ f rest, w.frames = f :: rest ∧ v ∈ f.held

theorem Sound.isValid_of_inHand {w : World} (hs : w.Sound) {v : Value} (hv : w.InHand v) :
    w.isValid v := by
  obtain ⟨f, rest, hf, hm⟩ := hv
  apply hs.isValid_of_mem_roots
  have : v ∈ w.frames.flatMap Frame.held :=
    List.mem_flatMap.2 ⟨f, hf ▸ List.mem_cons_self .., hm⟩
  simp [roots, this]

theorem InHand.gains {w w' : World} {v : Value} (hv : w.InHand v)
    (h : Gains w.frames w'.frames) : w'.InHand v := by
  obtain ⟨f, rest, hf, hm⟩ := hv
  rw [hf] at h
  unfold InHand
  cases hw : w'.frames with
  | nil =>
    rw [hw] at h
    cases h
  | cons g rest' =>
    rw [hw] at h
    refine ⟨g, rest', rfl, ?_⟩
    cases h with
    | same => exact hm
    | more p held new rest => exact List.mem_append_right new hm

/-- Some frame, be it the embedder's, has a handle. -/
def Holds (w : World) (v : Value) : Prop := ∃ f ∈ w.frames, v ∈ f.held

instance (w : World) (v : Value) : Decidable (w.Holds v) :=
  inferInstanceAs (Decidable (∃ f ∈ w.frames, v ∈ f.held))

theorem Holds.mem_roots {w : World} {v : Value} (h : w.Holds v) : v ∈ w.roots := by
  obtain ⟨f, hf, hv⟩ := h
  have hmem : v ∈ w.frames.flatMap Frame.held := List.mem_flatMap.2 ⟨f, hf, hv⟩
  simp [roots, hmem]

theorem Holds.gains {w w' : World} {v : Value} (hv : w.Holds v)
    (h : Gains w.frames w'.frames) : w'.Holds v := by
  obtain ⟨f, hf, hm⟩ := hv
  unfold Holds
  generalize hw : w.frames = fs, hw' : w'.frames = fs' at h hf
  cases h with
  | same => exact ⟨f, hf, hm⟩
  | more p held new rest =>
    rcases List.mem_cons.1 hf with rfl | hf
    · exact ⟨_, List.mem_cons_self .., List.mem_append_right new hm⟩
    · exact ⟨f, List.mem_cons_of_mem _ hf, hm⟩

theorem InHand.holds {w : World} {v : Value} (hv : w.InHand v) : w.Holds v := by
  obtain ⟨f, rest, hf, hm⟩ := hv
  exact ⟨f, hf ▸ List.mem_cons_self .., hm⟩

theorem Sound.exists_instance {w : World} (hs : w.Sound) {o : ObjectId}
    (ho : w.Holds (.object o)) : ∃ i, w.instance? o = some i :=
  Option.isSome_iff_exists.1 (hs.isValid_of_mem_roots ho.mem_roots)

theorem Sound.frames_ne_nil {w : World} (hs : w.Sound) : w.frames ≠ [] := by
  obtain ⟨f, rest, hf⟩ := hs.exists_frame
  simp [hf]

end World

open World

namespace Run

variable {ε σ α β : Type} {Φ : List Frame → List Frame → Prop}

theorem bind_run (m : EStateM ε σ α) (k : α → EStateM ε σ β) (s : σ) :
    (m >>= k) s = match m s with
      | .ok a s' => k a s'
      | .error e s' => .error e s' := by
  change EStateM.bind m k s = _
  unfold EStateM.bind
  cases m s with
  | ok a s' => rfl
  | error e s' => rfl

theorem bind_of_ok {m : EStateM ε σ α} {s s' : σ} {a : α} (h : m s = .ok a s')
    (k : α → EStateM ε σ β) : (m >>= k) s = k a s' := by
  rw [bind_run, h]

theorem bind_of_error {m : EStateM ε σ α} {s s' : σ} {e : ε} (h : m s = .error e s')
    (k : α → EStateM ε σ β) : (m >>= k) s = .error e s' := by
  rw [bind_run, h]

theorem exists_of_bind_ok {m : Run α} {k : α → Run β} {s s' : State} {b : β}
    (h : (m >>= k) s = .ok b s') : ∃ a s₁, m s = .ok a s₁ ∧ k a s₁ = .ok b s' := by
  rw [bind_run] at h
  cases hm : m s with
  | ok a s₁ => rw [hm] at h; exact ⟨a, s₁, rfl, h⟩
  | error e s₁ => rw [hm] at h; cases h

theorem cases_of_bind_error {m : Run α} {k : α → Run β} {s s' : State} {e : Halt}
    (h : (m >>= k) s = .error e s') :
    m s = .error e s' ∨ ∃ a s₁, m s = .ok a s₁ ∧ k a s₁ = .error e s' := by
  cases hm : m s with
  | ok a s₁ =>
    rw [bind_of_ok hm] at h
    exact Or.inr ⟨a, s₁, rfl, h⟩
  | error e' s₁ =>
    rw [bind_of_error hm] at h
    obtain ⟨rfl, rfl⟩ := EStateM.Result.error.inj h
    exact Or.inl rfl

/-- From this state the run goes through steps. When it returns, the result is as described; when it
returns or fails with an error, the frames are related. -/
def Ends (Φ : List Frame → List Frame → Prop) (m : Run α) (s : State)
    (Q : α → World → Prop) : Prop :=
  match m s with
  | .ok a s' => Steps s.world s'.world ∧ Φ s.world.frames s'.world.frames ∧ Q a s'.world
  | .error e s' =>
    Steps s.world s'.world ∧ ∀ x, e = .error x → Φ s.world.frames s'.world.frames

variable {m : Run α} {s : State} {Q Q' : α → World → Prop}

theorem Ends.of_ok (h : Ends Φ m s Q) {a : α} {s' : State} (hm : m s = .ok a s') :
    Steps s.world s'.world ∧ Φ s.world.frames s'.world.frames ∧ Q a s'.world := by
  unfold Ends at h
  rw [hm] at h
  exact h

theorem Ends.of_error (h : Ends Φ m s Q) {e : Halt} {s' : State} (hm : m s = .error e s') :
    Steps s.world s'.world ∧ ∀ x, e = .error x → Φ s.world.frames s'.world.frames := by
  unfold Ends at h
  rw [hm] at h
  exact h

theorem Ends.imp (h : Ends Φ m s Q)
    (hp : ∀ a w, Steps s.world w → Φ s.world.frames w.frames → Q a w → Q' a w) :
    Ends Φ m s Q' := by
  unfold Ends
  cases hm : m s with
  | ok a s' =>
    obtain ⟨hsteps, hΦ, hq⟩ := h.of_ok hm
    exact ⟨hsteps, hΦ, hp a s'.world hsteps hΦ hq⟩
  | error e s' => exact h.of_error hm

theorem Ends.weaken {Ψ : List Frame → List Frame → Prop} (h : Ends Φ m s Q)
    (hΦ : ∀ fs fs', Φ fs fs' → Ψ fs fs') : Ends Ψ m s Q := by
  unfold Ends
  cases hm : m s with
  | ok a s' =>
    obtain ⟨hsteps, hr, hq⟩ := h.of_ok hm
    exact ⟨hsteps, hΦ _ _ hr, hq⟩
  | error e s' =>
    obtain ⟨hsteps, hr⟩ := h.of_error hm
    exact ⟨hsteps, fun x hx => hΦ _ _ (hr x hx)⟩

/-- Making an error the result does not change where the run ends. -/
theorem Ends.attempt (h : Ends Φ m s Q) :
    Ends Φ (attempt m) s fun r w => ∀ a, r = .ok a → Q a w := by
  unfold Ends Run.attempt
  cases hm : m s with
  | ok a s' =>
    obtain ⟨hsteps, hr, hq⟩ := h.of_ok hm
    exact ⟨hsteps, hr, fun b hb => Except.ok.inj hb ▸ hq⟩
  | error e s' =>
    have h := h.of_error hm
    cases e with
    | error e =>
      refine ⟨h.1, h.2 e rfl, ?_⟩
      rintro b ⟨⟩
    | abort f => exact h
    | exhausted => exact h

theorem ends_modifyWorld {f : World → World} {Q : Unit → World → Prop}
    (hstep : Step s.world (f s.world)) (hΦ : Φ s.world.frames (f s.world).frames)
    (hp : Q () (f s.world)) : Ends Φ (modifyWorld f) s Q :=
  ⟨hstep.steps, hΦ, hp⟩

theorem ends_updateWorld {f : World → α × World} (hstep : Step s.world (f s.world).2)
    (hΦ : Φ s.world.frames (f s.world).2.frames) (hp : Q (f s.world).1 (f s.world).2) :
    Ends Φ (updateWorld f) s Q :=
  ⟨hstep.steps, hΦ, hp⟩

/-! Reading leaves the state alone. -/

/-- A run that changes nothing, however it ends. -/
def Reads (m : Run α) : Prop :=
  ∀ s, match m s with
    | .ok _ s' => s' = s
    | .error _ s' => s' = s

theorem Reads.eq_of_ok {m : Run α} {s s' : State} (hm : Reads m) {a : α} (h : m s = .ok a s') :
    s' = s := by
  have hr := hm s
  rw [h] at hr
  exact hr

theorem reads_pure (a : α) : Reads (pure a) := fun _ => rfl

theorem reads_throw (e : Halt) : Reads (throw e : Run α) := fun _ => rfl

theorem reads_world : Reads world := fun _ => rfl

theorem Reads.bind {m : Run α} {k : α → Run β} (hm : Reads m) (hk : ∀ a, Reads (k a)) :
    Reads (m >>= k) := by
  intro s
  have h := hm s
  rw [bind_run]
  cases hs : m s with
  | ok a s' =>
    rw [hs] at h
    have h' := hk a s'
    obtain rfl : s' = s := h
    exact h'
  | error e s' =>
    rw [hs] at h
    exact h

theorem reads_ofFatal (r : Except Fatal α) : Reads (ofFatal r) := by
  cases r with
  | ok a => exact reads_pure a
  | error f => exact reads_throw _

theorem reads_ofError (r : Except ScriptError α) : Reads (ofError r) := by
  cases r with
  | ok a => exact reads_pure a
  | error e => exact reads_throw _

theorem reads_ofHalt (r : Except Halt α) : Reads (ofHalt r) := by
  cases r with
  | ok a => exact reads_pure a
  | error e => exact reads_throw _

theorem reads_instanceOf (o : ObjectId) : Reads (instanceOf o) := by
  apply reads_world.bind
  intro w
  split
  · exact reads_pure _
  · exact reads_throw _

theorem reads_requireArgs (name : String) (args : List Value) (least : Nat) :
    Reads (requireArgs name args least) := by
  unfold requireArgs
  split
  · exact reads_pure _
  · exact reads_throw _

theorem instanceOf_run {o : ObjectId} {i : Instance} (hi : s.world.instance? o = some i) :
    instanceOf o s = .ok i s := by
  unfold instanceOf
  refine (bind_of_ok (m := world) rfl _).trans ?_
  rw [hi]
  rfl

theorem instanceOf_dangling {o : ObjectId} (hi : s.world.instance? o = none) :
    instanceOf o s = .error (.abort (.dangling o)) s := by
  unfold instanceOf
  refine (bind_of_ok (m := world) rfl _).trans ?_
  rw [hi]
  rfl

theorem requireValid_run {v : Value} (hv : s.world.isValid v) : requireValid v s = .ok () s := by
  unfold requireValid
  refine (bind_of_ok (m := world) rfl _).trans ?_
  rw [if_pos hv]
  rfl

theorem requireValid_dangling {v : Value} (hv : ¬s.world.isValid v) :
    requireValid v s = .error (.abort (.dangling (v.cell?.getD 0))) s := by
  unfold requireValid
  refine (bind_of_ok (m := world) rfl _).trans ?_
  rw [if_neg hv]
  rfl

/-- Nothing is promised of the frames that an aborted run leaves. -/
theorem ends_of_abort {f : Fatal} (hm : m s = .error (.abort f) s) : Ends Φ m s Q := by
  unfold Ends
  rw [hm]
  refine ⟨.refl _, ?_⟩
  rintro x ⟨⟩

theorem ends_world_bind {k : World → Run β} {Q : β → World → Prop}
    (h : Ends Φ (k s.world) s Q) : Ends Φ (world >>= k) s Q := h

theorem ends_instanceOf_bind {o : ObjectId} {k : Instance → Run β} {Q : β → World → Prop}
    (h : ∀ i, s.world.instance? o = some i → Ends Φ (k i) s Q) :
    Ends Φ (instanceOf o >>= k) s Q := by
  cases hi : s.world.instance? o with
  | some i =>
    unfold Ends
    rw [bind_of_ok (instanceOf_run hi)]
    exact h i hi
  | none =>
    apply ends_of_abort
    exact bind_of_error (instanceOf_dangling hi) k

theorem ends_requireValid_bind {v : Value} {k : Unit → Run β} {Q : β → World → Prop}
    (h : s.world.isValid v → Ends Φ (k ()) s Q) : Ends Φ (requireValid v >>= k) s Q := by
  by_cases hv : s.world.isValid v = true
  · unfold Ends
    rw [bind_of_ok (requireValid_run hv)]
    exact h hv
  · apply ends_of_abort
    exact bind_of_error (requireValid_dangling hv) k

section Rules

variable [IsPreorder (List Frame) Φ]

theorem ends_pure {a : α} (h : Q a s.world) : Ends Φ (pure a) s Q :=
  ⟨.refl _, refl_of Φ _, h⟩

theorem ends_throw (e : Halt) : Ends Φ (throw e : Run α) s Q :=
  ⟨.refl _, fun _ _ => refl_of Φ _⟩

theorem Ends.bind {k : α → Run β} {Q' : β → World → Prop} (h : Ends Φ m s Q)
    (hs : s.world.Sound)
    (hk : ∀ a s', Steps s.world s'.world → s'.world.Sound → Φ s.world.frames s'.world.frames →
      Q a s'.world → Ends Φ (k a) s' Q') : Ends Φ (m >>= k) s Q' := by
  unfold Ends
  rw [bind_run]
  cases hm : m s with
  | ok a s' =>
    obtain ⟨hsteps, hΦ, hp⟩ := h.of_ok hm
    have h' := hk a s' hsteps (hsteps.sound hs) hΦ hp
    dsimp only
    cases hk' : k a s' with
    | ok b s'' =>
      obtain ⟨hsteps', hΦ', hp'⟩ := h'.of_ok hk'
      exact ⟨hsteps.trans hsteps', trans_of Φ hΦ hΦ', hp'⟩
    | error e s'' =>
      obtain ⟨hsteps', hΦ'⟩ := h'.of_error hk'
      exact ⟨hsteps.trans hsteps', fun x hx => trans_of Φ hΦ (hΦ' x hx)⟩
  | error e s' => exact h.of_error hm

theorem Ends.discard (h : Ends Φ m s Q) (hs : s.world.Sound) :
    Ends Φ (discard m) s fun _ _ => True :=
  h.bind hs fun _ _ _ _ _ _ => ends_pure trivial

theorem ends_of_reads (hm : Reads m) (h : ∀ a, m s = .ok a s → Q a s.world) :
    Ends Φ m s Q := by
  have hr := hm s
  unfold Ends
  cases hs : m s with
  | ok a s' =>
    rw [hs] at hr
    obtain rfl : s' = s := hr
    exact ⟨.refl _, refl_of Φ _, h a hs⟩
  | error e s' =>
    rw [hs] at hr
    obtain rfl : s' = s := hr
    exact ⟨.refl _, fun _ _ => refl_of Φ _⟩

theorem ends_reads_bind {k : α → Run β} {Q : β → World → Prop} (hm : Reads m)
    (h : ∀ a, m s = .ok a s → Ends Φ (k a) s Q) : Ends Φ (m >>= k) s Q := by
  have hr := hm s
  unfold Ends
  rw [bind_run]
  cases hs : m s with
  | ok a s' =>
    rw [hs] at hr
    obtain rfl : s' = s := hr
    exact h a hs
  | error e s' =>
    rw [hs] at hr
    obtain rfl : s' = s := hr
    exact ⟨.refl _, fun _ _ => refl_of Φ _⟩

theorem ends_ofExcept_bind {ε γ : Type} {lift : Except ε γ → Run γ}
    (hok : ∀ a, lift (.ok a) = pure a) (herror : ∀ e, ∃ h : Halt, lift (.error e) = throw h)
    {r : Except ε γ} {k : γ → Run β} {Q : β → World → Prop}
    (h : ∀ a, r = .ok a → Ends Φ (k a) s Q) : Ends Φ (lift r >>= k) s Q := by
  cases r with
  | ok a =>
    rw [hok]
    exact h a rfl
  | error e =>
    obtain ⟨x, hx⟩ := herror e
    rw [hx]
    exact ⟨.refl _, fun _ _ => refl_of Φ _⟩

theorem ends_ofFatal_bind {r : Except Fatal α} {k : α → Run β} {Q : β → World → Prop}
    (h : ∀ a, r = .ok a → Ends Φ (k a) s Q) : Ends Φ (ofFatal r >>= k) s Q :=
  ends_ofExcept_bind (fun _ => rfl) (fun f => ⟨.abort f, rfl⟩) h

theorem ends_ofError_bind {r : Except ScriptError α} {k : α → Run β} {Q : β → World → Prop}
    (h : ∀ a, r = .ok a → Ends Φ (k a) s Q) : Ends Φ (ofError r >>= k) s Q :=
  ends_ofExcept_bind (fun _ => rfl) (fun e => ⟨.error e, rfl⟩) h

theorem ends_ofHalt_bind {r : Except Halt α} {k : α → Run β} {Q : β → World → Prop}
    (h : ∀ a, r = .ok a → Ends Φ (k a) s Q) : Ends Φ (ofHalt r >>= k) s Q :=
  ends_ofExcept_bind (fun _ => rfl) (fun e => ⟨e, rfl⟩) h

theorem ends_forM {l : List α} {f : α → Run Unit} (P : World → Prop) (hs : s.world.Sound)
    (hP : P s.world)
    (hf : ∀ a ∈ l, ∀ s', Steps s.world s'.world → s'.world.Sound →
      Φ s.world.frames s'.world.frames → P s'.world → Ends Φ (f a) s' fun _ w => P w) :
    Ends Φ (l.forM f) s fun _ w => P w := by
  induction l generalizing s with
  | nil => exact ends_pure hP
  | cons a l ih =>
    change Ends Φ (f a >>= fun _ => l.forM f) s _
    apply (hf a (List.mem_cons_self ..) s (.refl _) hs (refl_of Φ _) hP).bind hs
    intro _ s' hst hs' hΦ hP'
    exact ih hs' hP' fun b hb s'' hst' hs'' hΦ' hP'' =>
      hf b (List.mem_cons_of_mem a hb) s'' (hst.trans hst') hs'' (trans_of Φ hΦ hΦ') hP''

end Rules

/-! Runs that come to an end -/

/-- A run returns, in steps, and the frames hold no less than before. -/
def Returns (m : Run α) (s : State) (Q : α → World → Prop) : Prop :=
  ∃ a s', m s = .ok a s' ∧ Steps s.world s'.world ∧ Gains s.world.frames s'.world.frames ∧
    Q a s'.world

theorem Ends.returns (h : Ends Gains m s Q) {a : α} {s' : State} (hm : m s = .ok a s') :
    Returns m s fun b w => w = s'.world ∧ Q b w := by
  obtain ⟨hsteps, hg, hq⟩ := h.of_ok hm
  exact ⟨a, s', hm, hsteps, hg, rfl, hq⟩

theorem Returns.bind {k : α → Run β} {Q' : β → World → Prop} (h : Returns m s Q)
    (hs : s.world.Sound)
    (hk : ∀ a s', Steps s.world s'.world → s'.world.Sound → Gains s.world.frames s'.world.frames →
      Q a s'.world → Returns (k a) s' Q') : Returns (m >>= k) s Q' := by
  obtain ⟨a, s', hm, hst, hg, hp⟩ := h
  obtain ⟨b, s'', hk, hst', hg', hp'⟩ := hk a s' hst (hst.sound hs) hg hp
  exact ⟨b, s'', (bind_of_ok hm k).trans hk, hst.trans hst', hg.trans hg', hp'⟩

theorem Returns.imp {Q' : α → World → Prop} (h : Returns m s Q)
    (hp : ∀ a w, Steps s.world w → Gains s.world.frames w.frames → Q a w → Q' a w) :
    Returns m s Q' := by
  obtain ⟨a, s', hm, hst, hg, h⟩ := h
  exact ⟨a, s', hm, hst, hg, hp a s'.world hst hg h⟩

theorem returns_pure {a : α} (h : Q a s.world) : Returns (pure a) s Q :=
  ⟨a, s, rfl, .refl _, .same _, h⟩

theorem returns_world_bind {k : World → Run β} {Q : β → World → Prop}
    (h : Returns (k s.world) s Q) : Returns (world >>= k) s Q := h

theorem returns_forM {γ : Type} {f : γ → Run Unit} (P : List γ → World → Prop) {l : List γ}
    (hs : s.world.Sound) (hP : P [] s.world)
    (hf : ∀ done a rest, l = done ++ a :: rest → ∀ s', Steps s.world s'.world →
      s'.world.Sound → Gains s.world.frames s'.world.frames → P done s'.world →
      Returns (f a) s' fun _ w => P (done ++ [a]) w) :
    Returns (l.forM f) s fun _ w => P l w := by
  induction l generalizing s P with
  | nil => exact returns_pure hP
  | cons a l ih =>
    change Returns (f a >>= fun _ => l.forM f) s _
    apply (hf [] a l rfl s (.refl _) hs (.same _) hP).bind hs
    intro _ s₁ hst₁ hs₁ hg₁ hP₁
    refine ih (fun done w => P (a :: done) w) hs₁ hP₁ ?_
    intro done b rest hl s' hst' hs' hg' hP'
    exact hf (a :: done) b rest (congrArg (a :: ·) hl) s' (hst₁.trans hst') hs' (hg₁.trans hg') hP'

end Run

end ScriptPlayer
