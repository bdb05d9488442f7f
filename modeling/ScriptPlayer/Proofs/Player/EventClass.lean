import ScriptPlayer.Proofs.Player.Requests
import ScriptPlayer.Proofs.Player.Session
import ScriptPlayer.Proofs.Run.Install
import ScriptPlayer.Proofs.Run.Staff

/-! The class of the events that a player makes. It is the one that the set-up registers, with its
built-in constructor and with nothing else that a script could have a part in; whatever happens
later, a player that has been set up makes its events of this class. -/
namespace ScriptPlayer

open World

theorem Run.keepsStaff_embed (depth : Nat) (p : Session) : KeepsStaff (embed depth p) :=
  relates_embed (R := fun _ => SameStaff) depth p

/-! Set-ups do not look at the workers and the settings -/

namespace World

def withSettings (w u : World) : World :=
  { w with pool := u.pool, minDelay := u.minDelay, fallbackRate := u.fallbackRate }

theorem fallbackRate_withSettings (w u : World) :
    (w.withSettings u).fallbackRate = u.fallbackRate := rfl

theorem newFunction_withSettings (w u : World) (f : Function) :
    (w.withSettings u).newFunction f =
      ((w.newFunction f).1, (w.newFunction f).2.withSettings u) := by
  have hframes : (w.withSettings u).frames = w.frames := rfl
  unfold newFunction
  rw [hframes]
  cases w.frames <;> rfl

theorem registerClass_withSettings (w u : World) (d : ClassDecl) :
    (w.withSettings u).registerClass d =
      (w.registerClass d).map fun (c, w') => (c, w'.withSettings u) := by
  unfold registerClass
  change (w.classes.register d).map _ = _
  cases w.classes.register d <;> rfl

theorem popFrame_withSettings (w u : World) (keep : List Value) :
    (w.withSettings u).popFrame keep = (w.popFrame keep).withSettings u := by
  have hframes : (w.withSettings u).frames = w.frames := rfl
  unfold popFrame
  rw [hframes]
  split <;> rfl

end World

namespace Run

variable {α β : Type} {m : Run α} {u : World}

/-- A run that comes to the same in a world with other workers and settings, which it keeps. -/
def IgnoresSettings (u : World) (m : Run α) : Prop :=
  ∀ s : State, m { s with world := s.world.withSettings u } =
    match m s with
    | .ok a s' => .ok a { s' with world := s'.world.withSettings u }
    | .error e s' => .error e { s' with world := s'.world.withSettings u }

theorem ignoresSettings_pure (a : α) : IgnoresSettings u (pure a) := fun _ => rfl

theorem IgnoresSettings.bind {k : α → Run β} (h : IgnoresSettings u m)
    (hk : ∀ a, IgnoresSettings u (k a)) : IgnoresSettings u (m >>= k) := by
  intro s
  rw [bind_run, bind_run, h s]
  cases m s with
  | ok a s' => exact hk a s'
  | error e s' => rfl

theorem IgnoresSettings.forEffect (h : IgnoresSettings u m) : IgnoresSettings u (forEffect m) := by
  intro s
  have hdiscard : IgnoresSettings u (discard m) := h.bind fun _ => ignoresSettings_pure _
  have hrun := hdiscard { s with world := s.world.pushFrame .operation }
  have hframe : (s.world.withSettings u).pushFrame .operation =
    (s.world.pushFrame .operation).withSettings u := rfl
  unfold Run.forEffect framed
  dsimp only
  rw [hframe, hrun]
  cases discard m { s with world := s.world.pushFrame .operation } with
  | ok a s' =>
    dsimp only
    rw [popFrame_withSettings]
  | error e s' =>
    cases e with
    | error e =>
      dsimp only
      rw [popFrame_withSettings]
    | abort f | exhausted => rfl

theorem ignoresSettings_native (b : Builtin) : IgnoresSettings u (native b) := by
  intro s
  unfold native newFunction updateWorld
  dsimp only
  rw [newFunction_withSettings]

theorem ignoresSettings_registerClass (d : ClassDecl) : IgnoresSettings u (registerClass d) := by
  intro s
  unfold registerClass
  rw [bind_of_ok (m := world) rfl, bind_of_ok (m := world) rfl]
  dsimp only
  rw [registerClass_withSettings]
  cases s.world.registerClass d <;> rfl

theorem ignoresSettings_members (members : List (TraitKind × Builtin))
    (traits : List (TraitKind × QName × FunctionId)) :
    IgnoresSettings u (forIn members traits fun (kind, b) traits => do
      let f ← native b
      return .yield (traits ++ [(kind, QName.pub b.name, f)])) := by
  induction members generalizing traits with
  | nil => exact ignoresSettings_pure _
  | cons e members ih =>
    rw [List.forIn_cons, bind_assoc]
    exact (ignoresSettings_native e.2).bind fun f => ih _

theorem ignoresSettings_registerBuiltins (c : BuiltinClass) :
    IgnoresSettings u (registerBuiltins c) := by
  refine (ignoresSettings_members c.members []).bind fun traits => ?_
  dsimp only
  cases c.constructor? with
  | none => exact ignoresSettings_registerClass _
  | some b =>
    dsimp only
    rw [map_eq_pure_bind, bind_assoc]
    exact (ignoresSettings_native b).bind fun f => ignoresSettings_registerClass _

theorem ignoresSettings_setupPlayer : IgnoresSettings u setupPlayer := by
  have hcore {k : World → Run Unit} (hk : ∀ w, IgnoresSettings u (k w))
      (hsame : ∀ w, k (w.withSettings u) = k w) : IgnoresSettings u (world >>= k) := by
    intro s
    rw [bind_of_ok (m := world) rfl, bind_of_ok (m := world) rfl]
    dsimp only
    rw [hsame]
    exact hk s.world s
  refine IgnoresSettings.forEffect (hcore (fun w => ?_) fun _ => rfl)
  exact (ignoresSettings_registerBuiltins _).bind fun event =>
    (ignoresSettings_registerBuiltins _).bind fun dispatcher =>
    (ignoresSettings_registerBuiltins _).bind fun timer =>
    (ignoresSettings_registerBuiltins _).bind fun displayObject =>
    (ignoresSettings_registerBuiltins _).bind fun netStream =>
    (ignoresSettings_registerBuiltins _).bind fun soundTransform =>
    (ignoresSettings_registerBuiltins _).bind fun video => fun _ => rfl

end Run

/-- The classes of a player do not depend on its options. -/
theorem World.ofOptions_eq (o : Options) (threads : Nat) : ∃ u : World,
    u.fallbackRate = o.fallbackRate ∧
      World.ofOptions o threads = (World.ofOptions .defaults 1).withSettings u := by
  let start (o : Options) (threads : Nat) : World := { World.initial with
    pool := .ofThreads threads, minDelay := o.minDelay, fallbackRate := o.fallbackRate }
  have hrun := Run.ignoresSettings_setupPlayer (u := start o threads) ⟨start .defaults 1, [], 0, []⟩
  have hstart : (start .defaults 1).withSettings (start o threads) = start o threads := rfl
  refine ⟨start o threads, rfl, ?_⟩
  change (start o threads).after Run.setupPlayer =
    ((start .defaults 1).after Run.setupPlayer).withSettings (start o threads)
  unfold World.after
  dsimp only at hrun
  rw [hstart] at hrun
  rw [hrun]
  cases Run.setupPlayer ⟨start .defaults 1, [], 0, []⟩ <;> rfl

theorem World.fallbackRate_ofOptions (o : Options) (threads : Nat) :
    (World.ofOptions o threads).fallbackRate = o.fallbackRate := by
  obtain ⟨u, hrate, hu⟩ := ofOptions_eq o threads
  rw [hu, fallbackRate_withSettings, hrate]

/-! The class of events -/

/-- Making an event runs the built-in constructor and no script: nothing is declared, bound or
stored by a hook, a trait or a superclass. -/
structure World.MakesEvents (w : World) (r : PlayerClasses) : Prop where
  plain : ∀ k ∈ w.classes.chain r.event,
    k.traits = .empty ∧ k.hook = none ∧ k.backing = none
  constructor : ∃ f fn, w.classes.findConstructor r.event = some f ∧
    w.heap.function? f = some fn ∧ fn.code = .builtin .newEvent

namespace World

variable {w w' : World} {r : PlayerClasses}

theorem MakesEvents.withSettings (h : w.MakesEvents r) (u : World) :
    (w.withSettings u).MakesEvents r := ⟨h.plain, h.constructor⟩

theorem MakesEvents.withPlaces (h : w.MakesEvents r) (n : Nat) : (w.withPlaces n).MakesEvents r :=
  ⟨h.plain, h.constructor⟩

theorem runtime_withSettings (w u : World) : (w.withSettings u).runtime = w.runtime := rfl

theorem runtime_withPlaces (w : World) (n : Nat) : (w.withPlaces n).runtime = w.runtime := rfl

theorem runtime_defaults :
    (World.ofOptions .defaults 1).runtime = some ⟨4, 5, 6, 7, 8, 9, 10⟩ := by decide +kernel

theorem makesEvents_defaults :
    (World.ofOptions .defaults 1).MakesEvents ⟨4, 5, 6, 7, 8, 9, 10⟩ := by
  have hplain : ∀ k ∈ (World.ofOptions .defaults 1).classes.chain 4,
      k.traits = .empty ∧ k.hook = none ∧ k.backing = none := by decide +kernel
  have hconstructor : (((World.ofOptions .defaults 1).classes.findConstructor 4).any fun f =>
      ((World.ofOptions .defaults 1).heap.function? f).any fun fn =>
        fn.code == .builtin .newEvent) := by decide +kernel
  generalize World.ofOptions .defaults 1 = w at hplain hconstructor ⊢
  obtain ⟨f, hf, hfn⟩ := (Option.any_eq_true _ _).1 hconstructor
  obtain ⟨fn, hfn, hcode⟩ := (Option.any_eq_true _ _).1 hfn
  exact ⟨hplain, f, fn, hf, hfn, beq_iff_eq.1 hcode⟩

theorem makesEvents_ofOptions (o : Options) (threads : Nat)
    (hr : (World.ofOptions o threads).runtime = some r) :
    (World.ofOptions o threads).MakesEvents r := by
  obtain ⟨u, -, hu⟩ := ofOptions_eq o threads
  rw [hu, runtime_withSettings, runtime_defaults] at hr
  rw [hu, ← Option.some.inj hr]
  exact makesEvents_defaults.withSettings u

theorem ClassTable.mem_handles_of_constructor {t : ClassTable} {c : ClassId} {f : FunctionId}
    (h : t.findConstructor c = some f) : Value.function f ∈ t.handles := by
  obtain ⟨k, hk, hf⟩ := List.exists_of_findSome?_eq_some h
  obtain ⟨a, -, hget⟩ := List.mem_filterMap.1 hk
  refine List.mem_flatMap.2 ⟨k, List.mem_of_getElem? hget, ?_⟩
  simp [Class.handles, hf]

theorem MakesEvents.later (h : w.MakesEvents r) (hw : w.Registered)
    (hr : r.event < w.classes.size) (hl : w.Later w') (hs : w'.Sound) : w'.MakesEvents r := by
  have hchain := ClassTable.chain_of_extends hw.classes hl.classes hr
  obtain ⟨f, fn, hf, hfn, hcode⟩ := h.constructor
  have hf' : w'.classes.findConstructor r.event = some f := by
    unfold ClassTable.findConstructor
    rw [hchain]
    exact hf
  have hvalid := hs.isValid_of_class (ClassTable.mem_handles_of_constructor hf')
  exact ⟨hchain ▸ h.plain, f, fn, hf', hl.function? hfn hvalid, hcode⟩

end World

/-- In every state of a player events are made of the class that the set-up has registered. -/
theorem State.Reachable.makesEvents {s : State} (h : s.Reachable) :
    ∀ r, s.world.runtime = some r → s.world.MakesEvents r := by
  induction h with
  | core places budget moves =>
    intro r hr
    have hnone : World.initial.runtime = none := by decide +kernel
    cases hnone.symm.trans hr
  | player o threads places budget moves =>
    intro r hr
    rw [runtime_withPlaces] at hr
    exact (makesEvents_ofOptions o threads hr).withPlaces places
  | @embed s h depth p budget moves ih =>
    intro r hr
    obtain ⟨hs, hst⟩ := h.sound
    have hsteps := Run.steps_embed hs hst depth p
    have hr' : s.world.runtime = some r := (Run.keepsStaff_embed depth p s).runtime ▸ hr
    exact (ih r hr').later hst.toRegistered (hst.event r hr') hsteps.later (hsteps.sound hs)

end ScriptPlayer
