import ScriptPlayer.Player.Setup
import ScriptPlayer.Proofs.Run.Interpreter

/-! The set-ups succeed, and the worlds that they give are sound. Nothing can go wrong but a class
name that is taken, so the names are followed from one registration to the next. -/
namespace ScriptPlayer

open World

def ClassTable.names (t : ClassTable) : List QName := t.classes.map Class.name

theorem ClassTable.find?_eq_none_iff {t : ClassTable} {name : QName} :
    t.find? name = none ↔ name ∉ t.names := by
  unfold find? names
  rw [List.findIdx?_eq_none_iff]
  simp [List.mem_map]

theorem BuiltinClass.handles_hook (c : BuiltinClass) :
    (c.hook.getD []).flatMap HookStep.handles = [] := by
  unfold hook
  split
  · rfl
  · rw [Option.getD_some, List.flatMap_map, List.flatMap_eq_nil_iff]
    intro e _
    rfl

namespace Run

variable {β : Type} {s : State}

theorem returns_native (hs : s.world.Sound) (b : Builtin) :
    Returns (native b) s fun f w => w.InHand (.function f) ∧ s.world.SameClasses w := by
  have hnone : ∀ v ∈ ([] : List Value), s.world.isValid v :=
    fun v hv => absurd hv List.not_mem_nil
  have h := ends_newFunction hs b.name hnone (.builtin b)
  refine (h.returns rfl).imp fun f w _ _ h => ⟨h.2, ?_⟩
  rw [h.1]
  exact (reframes_newFunction s.world _).sameClasses

theorem returns_members (hs : s.world.Sound) (members : List (TraitKind × Builtin))
    (traits : List (TraitKind × QName × FunctionId))
    (ht : ∀ t ∈ traits, s.world.InHand (.function t.2.2)) :
    Returns (forIn members traits fun (kind, b) traits => do
        let f ← native b
        return .yield (traits ++ [(kind, QName.pub b.name, f)])) s
      fun traits w => (∀ t ∈ traits, w.InHand (.function t.2.2)) ∧ s.world.SameClasses w := by
  induction members generalizing s traits with
  | nil => exact returns_pure ⟨ht, .refl _⟩
  | cons e members ih =>
    obtain ⟨kind, b⟩ := e
    rw [List.forIn_cons, bind_assoc]
    apply (returns_native hs b).bind hs
    intro f s₁ _ hs₁ hg hf
    apply (ih hs₁ _ ?_).imp fun traits w _ _ h => ⟨h.1, hf.2.trans h.2⟩
    intro t hm
    rcases List.mem_append.1 hm with hm | hm
    · exact (ht t hm).gains hg
    · rw [List.mem_singleton.1 hm]
      exact hf.1

structure Registers (w : World) (name : QName) (c : ClassId) (w' : World) : Prop where
  size : c < w'.classes.size
  names : w'.classes.names = w.classes.names ++ [name]
  core : w'.core = w.core
  runtime : w'.runtime = w.runtime

theorem returns_registerClass (hs : s.world.Sound) {d : ClassDecl}
    (hname : d.name ∉ s.world.classes.names)
    (hd : ∀ v ∈ (Op.registerClass d).operands, s.world.isValid v) :
    Returns (registerClass d) s (Registers s.world d.name) := by
  obtain ⟨c, w, hw⟩ : ∃ c w, s.world.registerClass d = .ok (c, w) := by
    unfold World.registerClass ClassTable.register
    rw [ClassTable.find?_eq_none_iff.2 hname]
    exact ⟨_, _, rfl⟩
  have hrun : registerClass d s = .ok c { s with world := w } := by
    have hok : ofFatal (s.world.registerClass d) s = .ok (c, w) s := by
      rw [hw]
      rfl
    exact bind_of_ok hok _
  refine ((ends_registerClass hs hd).returns hrun).imp fun c w' _ _ h => ?_
  obtain ⟨rfl, hc⟩ := h
  obtain ⟨-, -, rfl⟩ := registerClass_eq_ok hw
  exact ⟨hc, List.map_append, rfl, rfl⟩

theorem returns_registerBuiltins (hs : s.world.Sound) (c : BuiltinClass)
    (hsuper : ∀ p, c.superclass = some p → p < s.world.classes.size)
    (hname : c.name ∉ s.world.classes.names) :
    Returns (registerBuiltins c) s (Registers s.world c.name) := by
  apply (returns_members hs c.members [] fun t ht => absurd ht List.not_mem_nil).bind hs
  intro traits s₁ hst₁ hs₁ hg₁ htraits
  have hlast : ∀ constructor? s₂, s₂.world.Sound → Gains s₁.world.frames s₂.world.frames →
      s₁.world.SameClasses s₂.world →
      (∀ v ∈ constructor?.toList.map Value.function, s₂.world.InHand v) →
      Returns (registerClass ⟨c.name, c.superclass, traits, constructor?, c.hook, c.backing⟩) s₂
        (Registers s.world c.name) := by
    intro constructor? s₂ hs₂ hg₂ hsame₂ hconstructor
    have hsame := htraits.2.trans hsame₂
    have hname₂ : c.name ∉ s₂.world.classes.names := by
      rw [hsame.classes]
      exact hname
    refine (returns_registerClass hs₂ hname₂ fun v hv => ?_).imp fun id w _ _ h =>
      ⟨h.size, ?_, h.core.trans hsame.core, h.runtime.trans hsame.runtime⟩
    · simp only [Op.operands, List.mem_append] at hv
      rcases hv with ((hv | hv) | hv) | hv
      · obtain ⟨p, hp, rfl⟩ := List.mem_map.1 hv
        refine isValid_iff_refers.2 ?_
        exact hsame.classes ▸ hsuper p (Option.mem_toList.1 hp)
      · obtain ⟨t, ht, rfl⟩ := List.mem_map.1 hv
        exact hs₂.isValid_of_inHand ((htraits.1 t ht).gains hg₂)
      · exact hs₂.isValid_of_inHand (hconstructor v hv)
      · rw [c.handles_hook] at hv
        exact absurd hv List.not_mem_nil
    · rw [h.names, hsame.classes]
  dsimp only
  cases c.constructor? with
  | none => exact hlast none s₁ hs₁ (.same _) (.refl _) fun v hv => absurd hv List.not_mem_nil
  | some b =>
    dsimp only
    rw [map_eq_pure_bind, bind_assoc]
    apply (returns_native hs₁ b).bind hs₁
    intro f s₂ _ hs₂ hg hf
    exact hlast (some f) s₂ hs₂ hg hf.2 fun v hv => List.mem_singleton.1 hv ▸ hf.1

theorem returns_defineUtility (hs : s.world.Sound) (b : Builtin) :
    Returns (defineUtility b) s fun _ w => s.world.SameClasses w := by
  apply (returns_native hs b).bind hs
  intro f s₁ _ hs₁ _ hf
  have hstep := Step.defineGlobal ⟨"flash.utils", b.name⟩ (hs₁.isValid_of_inHand hf.1)
  exact ⟨(), _, rfl, hstep.steps, .same _, hf.2.trans ⟨rfl, rfl, rfl⟩⟩

theorem returns_forEffect (hs : s.world.Sound)
    (h : Returns m { s with world := s.world.pushFrame .operation } Q) :
    Returns (forEffect m) s fun _ w =>
      w.frames = s.world.frames ∧ ∃ a w', Q a w' ∧ w = w'.popFrame [] := by
  obtain ⟨a, s', hm, hst, hg, hp⟩ := h
  have hrun : forEffect m s = .ok () { s' with world := s'.world.popFrame [] } := by
    have hdiscard : (discard m) { s with world := s.world.pushFrame .operation } = .ok () s' :=
      bind_of_ok hm _
    unfold forEffect framed
    rw [hdiscard]
  have hends : Ends Reheld m { s with world := s.world.pushFrame .operation } Q := by
    unfold Ends
    rw [hm]
    exact ⟨hst, hg.reheld, hp⟩
  exact ((ends_forEffect hs hends).returns hrun).imp fun _ w _ _ h =>
    ⟨h.2, a, s'.world, hp, h.1⟩

theorem sound_blank : World.blank.Sound where
  heap := Heap.sound_empty _
  guards _ := rfl
  anchored := ⟨by rintro o ⟨⟩, trivial⟩
  grounded := ⟨_, rfl, rfl⟩

theorem returns_registerBuiltins_bind (hs : s.world.Sound) {names : List QName}
    (hn : s.world.classes.names = names) (name : QName) (hname : name ∉ names)
    {c : BuiltinClass} {k : ClassId → Run β} {Q : β → World → Prop}
    (hk : ∀ id s', s.world.Later s'.world → s'.world.Sound → Registers s.world name id s'.world →
      s'.world.classes.names = names ++ [name] → Returns (k id) s' Q) (hc : c.name = name)
    (hsuper : ∀ p, c.superclass = some p → p < s.world.classes.size) :
    Returns (registerBuiltins c >>= k) s Q := by
  subst hc
  apply (returns_registerBuiltins hs c hsuper (hn ▸ hname)).bind hs
  intro id s' hst hs' _ h
  exact hk id s' hst.later hs' h (hn ▸ h.names)

def coreNames : List QName :=
  [⟨"", "Object"⟩, ⟨"flash.utils", "ByteArray"⟩, ⟨"flash.utils", "Dictionary"⟩,
    ⟨"flash.utils", "Proxy"⟩]

/-- What a set-up has to bring about: the root class and the events that the player makes are
registered, under these names. -/
structure IsSetUp (names : List QName) (w : World) : Prop where
  object : w.core.object < w.classes.size
  event : ∀ r, w.runtime = some r → r.event < w.classes.size
  names : w.classes.names = names

theorem IsSetUp.sameClasses {names : List QName} {w w' : World} (h : IsSetUp names w)
    (hw : w.SameClasses w') : IsSetUp names w' := by
  obtain ⟨hobject, hevent, hnames⟩ := h
  refine ⟨?_, ?_, ?_⟩
  · rw [hw.core, hw.classes]
    exact hobject
  · rw [hw.runtime, hw.classes]
    exact hevent
  · rw [hw.classes]
    exact hnames

theorem returns_staff_bind {names : List QName} {f : World → World} {k : Unit → Run β}
    {Q : β → World → Prop} (hk : ∀ s', s'.world.Sound → IsSetUp names s'.world →
      Returns (k ()) s' Q) (hs : s.world.Sound) {core : CoreClasses}
    {runtime : Option PlayerClasses}
    (hf : f s.world = { s.world with core := core, runtime := runtime })
    (h : IsSetUp names (f s.world)) : Returns (modifyWorld f >>= k) s Q := by
  have hstep : Step s.world (f s.world) := by
    obtain ⟨hobject, hevent, -⟩ := h
    rw [hf] at hobject hevent ⊢
    exact .staff hobject hevent
  have hrun : Returns (modifyWorld f) s fun _ w => IsSetUp names w :=
    ⟨(), _, rfl, hstep.steps, by rw [hf]; exact .same _, h⟩
  exact hrun.bind hs fun _ s' _ hs' _ h => hk s' hs' h

theorem returns_setUp {names : List QName} (hs : s.world.Sound) {m : Run Unit}
    (h : Returns m { s with world := s.world.pushFrame .operation } fun _ w => IsSetUp names w) :
    Returns (forEffect m) s fun _ w => w.frames = s.world.frames ∧ IsSetUp names w :=
  (returns_forEffect hs h).imp fun _ w _ _ h => by
    obtain ⟨hf, _, w', h', rfl⟩ := h
    exact ⟨hf, h'.sameClasses (reframes_popFrame w' []).sameClasses⟩

theorem returns_utilities (names : List QName) (hs : s.world.Sound) (h : IsSetUp names s.world) :
    Returns (do
      defineUtility .qualifiedClassName
      defineUtility .qualifiedSuperclassName
      defineUtility .definitionByName
      defineUtility .elapsedTime) s fun _ w => IsSetUp names w := by
  apply (returns_defineUtility hs _).bind hs
  intro _ s₁ _ hs₁ _ h₁
  apply (returns_defineUtility hs₁ _).bind hs₁
  intro _ s₂ _ hs₂ _ h₂
  apply (returns_defineUtility hs₂ _).bind hs₂
  intro _ s₃ _ hs₃ _ h₃
  exact (returns_defineUtility hs₃ _).imp fun _ _ _ _ h₄ =>
    h.sameClasses (((h₁.trans h₂).trans h₃).trans h₄)

theorem returns_setupCore :
    Returns setupCore ⟨.blank, [], 0, []⟩ fun _ w =>
      w.frames = [⟨.embedder, []⟩] ∧ IsSetUp coreNames w := by
  have hs : (World.blank.pushFrame .operation).Sound := (Step.push rfl).sound sound_blank
  have hempty : (World.blank.pushFrame .operation).classes.names = [] := rfl
  apply returns_setUp sound_blank
  refine returns_registerBuiltins_bind hs hempty ⟨"", "Object"⟩ List.not_mem_nil ?_ rfl
    (by rintro p ⟨⟩)
  intro object s₁ _ hs₁ h₁ hn₁
  refine returns_registerBuiltins_bind hs₁ hn₁ ⟨"flash.utils", "ByteArray"⟩ (by decide) ?_ rfl
    fun p hp => Option.some.inj hp ▸ h₁.size
  intro byteArray s₂ hl₂ hs₂ h₂ hn₂
  have ho₂ := Nat.lt_of_lt_of_le h₁.size hl₂.size_le
  refine returns_registerBuiltins_bind hs₂ hn₂ ⟨"flash.utils", "Dictionary"⟩ (by decide) ?_ rfl
    fun p hp => Option.some.inj hp ▸ ho₂
  intro dictionary s₃ hl₃ hs₃ h₃ hn₃
  have ho₃ := Nat.lt_of_lt_of_le ho₂ hl₃.size_le
  refine returns_registerBuiltins_bind hs₃ hn₃ ⟨"flash.utils", "Proxy"⟩ (by decide) ?_ rfl
    fun p hp => Option.some.inj hp ▸ ho₃
  intro proxy s₄ hl₄ hs₄ h₄ hn₄
  have hruntime : s₄.world.runtime = none :=
    h₄.runtime.trans (h₃.runtime.trans (h₂.runtime.trans h₁.runtime))
  refine returns_staff_bind (fun s' hs' h => returns_utilities coreNames hs' h) hs₄ rfl
    ⟨Nat.lt_of_lt_of_le ho₃ hl₄.size_le, fun r hr => ?_, hn₄⟩
  cases hruntime.symm.trans hr

def playerNames : List QName :=
  coreNames ++ [⟨"flash.events", "Event"⟩] ++ [⟨"flash.events", "EventDispatcher"⟩] ++
    [⟨"flash.utils", "Timer"⟩] ++ [⟨"flash.display", "DisplayObject"⟩] ++
    [⟨"flash.net", "NetStream"⟩] ++ [⟨"flash.media", "SoundTransform"⟩] ++
    [⟨"flash.media", "Video"⟩]

/-- On top of the core a player can always be set up. -/
theorem returns_setupPlayer (hs : s.world.Sound) (h : IsSetUp coreNames s.world) :
    Returns setupPlayer s fun _ w =>
      w.frames = s.world.frames ∧ IsSetUp playerNames w := by
  have hs₀ : (s.world.pushFrame .operation).Sound := (Step.push rfl).sound hs
  have ho₀ : (s.world.pushFrame .operation).core.object <
    (s.world.pushFrame .operation).classes.size := h.object
  have hn₀ : (s.world.pushFrame .operation).classes.names = coreNames := h.names
  apply returns_setUp hs
  apply returns_world_bind
  dsimp only
  refine returns_registerBuiltins_bind (s := { s with world := s.world.pushFrame .operation }) hs₀
    hn₀ ⟨"flash.events", "Event"⟩ (by decide) ?_ rfl fun p hp => Option.some.inj hp ▸ ho₀
  intro event s₁ hl₁ hs₁ h₁ hn₁
  have ho₁ := Nat.lt_of_lt_of_le ho₀ hl₁.size_le
  refine returns_registerBuiltins_bind hs₁ hn₁ ⟨"flash.events", "EventDispatcher"⟩ (by decide)
    ?_ rfl fun p hp => Option.some.inj hp ▸ ho₁
  intro eventDispatcher s₂ hl₂ hs₂ h₂ hn₂
  have ho₂ := Nat.lt_of_lt_of_le ho₁ hl₂.size_le
  refine returns_registerBuiltins_bind hs₂ hn₂ ⟨"flash.utils", "Timer"⟩ (by decide) ?_ rfl
    fun p hp => Option.some.inj hp ▸ h₂.size
  intro timer s₃ hl₃ hs₃ h₃ hn₃
  have ho₃ := Nat.lt_of_lt_of_le ho₂ hl₃.size_le
  refine returns_registerBuiltins_bind hs₃ hn₃ ⟨"flash.display", "DisplayObject"⟩ (by decide)
    ?_ rfl fun p hp => Option.some.inj hp ▸ ho₃
  intro displayObject s₄ hl₄ hs₄ h₄ hn₄
  have ho₄ := Nat.lt_of_lt_of_le ho₃ hl₄.size_le
  refine returns_registerBuiltins_bind hs₄ hn₄ ⟨"flash.net", "NetStream"⟩ (by decide) ?_ rfl
    fun p hp => Option.some.inj hp ▸ ho₄
  intro netStream s₅ hl₅ hs₅ h₅ hn₅
  have ho₅ := Nat.lt_of_lt_of_le ho₄ hl₅.size_le
  refine returns_registerBuiltins_bind hs₅ hn₅ ⟨"flash.media", "SoundTransform"⟩ (by decide)
    ?_ rfl fun p hp => Option.some.inj hp ▸ ho₅
  intro soundTransform s₆ hl₆ hs₆ h₆ hn₆
  have hd₆ := Nat.lt_of_lt_of_le h₄.size (hl₅.trans hl₆).size_le
  refine returns_registerBuiltins_bind hs₆ hn₆ ⟨"flash.media", "Video"⟩ (by decide) ?_ rfl
    fun p hp => Option.some.inj hp ▸ hd₆
  intro video s₇ hl₇ hs₇ h₇ hn₇
  have hlater := ((((hl₂.trans hl₃).trans hl₄).trans hl₅).trans hl₆).trans hl₇
  have hcore : s₇.world.core = s.world.core :=
    h₇.core.trans (h₆.core.trans (h₅.core.trans (h₄.core.trans (h₃.core.trans
      (h₂.core.trans h₁.core)))))
  have hobject : s₇.world.core.object < s₇.world.classes.size := by
    rw [hcore]
    exact Nat.lt_of_lt_of_le ho₁ hlater.size_le
  rw [← bind_pure (modifyWorld _)]
  refine returns_staff_bind (fun s' _ h => returns_pure h) hs₇ rfl ⟨hobject, fun r hr => ?_, hn₇⟩
  obtain rfl := Option.some.inj hr
  exact Nat.lt_of_lt_of_le h₁.size hlater.size_le

end Run

namespace World

theorem after_eq {w : World} {m : Run Unit} {Q : Unit → World → Prop}
    (h : Run.Returns m ⟨w, [], 0, []⟩ Q) : Steps w (w.after m) ∧ Q () (w.after m) := by
  obtain ⟨_, s', hm, hst, -, hq⟩ := h
  unfold after
  rw [hm]
  exact ⟨hst, hq⟩

/-- The embedder's frame alone, and nothing in it. -/
structure Initial (w : World) : Prop where
  sound : w.Sound
  staffed : w.Staffed
  frames : w.frames = [⟨.embedder, []⟩]

theorem registered_blank : World.blank.Registered where
  classes c k s hk _ := absurd hk (by simp [blank, ClassTable.get?, ClassTable.empty])
  instances o i hi := absurd hi (by simp [blank, instance?, Heap.instance?, Heap.get?, Heap.empty])

theorem steps_initial : Steps .blank .initial ∧ World.initial.frames = [⟨.embedder, []⟩] ∧
    Run.IsSetUp Run.coreNames .initial :=
  after_eq Run.returns_setupCore

theorem initial_initial : World.initial.Initial := by
  obtain ⟨hst, hframes, hsetup⟩ := steps_initial
  exact ⟨hst.sound Run.sound_blank, ⟨hst.registered registered_blank, hsetup.object, hsetup.event⟩,
    hframes⟩

theorem steps_ofOptions (o : Options) (threads : Nat) :
    Steps .blank (.ofOptions o threads) ∧
      (World.ofOptions o threads).frames = [⟨.embedder, []⟩] ∧
      Run.IsSetUp Run.playerNames (.ofOptions o threads) := by
  obtain ⟨hst, hframes, hsetup⟩ := steps_initial
  obtain ⟨w, hw, hown⟩ : ∃ w : World, World.ofOptions o threads = w.after Run.setupPlayer ∧
      World.initial.SameOwners w := ⟨_, rfl, rfl, rfl, rfl, rfl, rfl, rfl, rfl⟩
  have hst₁ := hst.tail (.background hown)
  have hs₁ := hst₁.sound Run.sound_blank
  obtain ⟨hst₂, hframes₂, hsetup₂⟩ :=
    after_eq (Run.returns_setupPlayer hs₁ (hsetup.sameClasses hown.sameClasses))
  rw [hw]
  exact ⟨hst₁.trans hst₂, hframes₂.trans (hown.frames.trans hframes), hsetup₂⟩

theorem initial_ofOptions (o : Options) (threads : Nat) : (World.ofOptions o threads).Initial := by
  obtain ⟨hst, hframes, hsetup⟩ := steps_ofOptions o threads
  exact ⟨hst.sound Run.sound_blank, ⟨hst.registered registered_blank, hsetup.object, hsetup.event⟩,
    hframes⟩

end World

end ScriptPlayer
