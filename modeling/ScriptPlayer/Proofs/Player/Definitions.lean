import ScriptPlayer.Proofs.Player.Session
import ScriptPlayer.Proofs.Run.Findings
import ScriptPlayer.Proofs.Run.Install

/-! Which of several definitions of one name serves a read. What hooks have bound to the instance
comes first, a getter before a method, and what the classes declare comes after it; within each of
these the definition of the most derived class serves. -/
namespace ScriptPlayer

open World Run

/-- What a default read of the name `x` comes to in an instance without a slot under it. -/
structure Serving (call : Caller) (s : State) (o : ObjectId) (j : Instance) (x : QName) : Prop where
  boundGetter : ∀ f, s.world.classes.hookMember? j.cls .getter x = some f →
    ∃ g, f.Serves s.world g ∧ getDefault call o x s = (do return some (← call g o [])) s
  boundMethod : s.world.classes.hookMember? j.cls .getter x = none →
    ∀ f, s.world.classes.hookMember? j.cls .method x = some f →
    ∃ m, f.Serves s.world m ∧ getDefault call o x s =
      .ok (some (.function m)) { s with world := s.world.hold (.function m) }
  declaredGetter : s.world.classes.hookMember? j.cls .getter x = none →
    s.world.classes.hookMember? j.cls .method x = none →
    ∀ trait g, s.world.classes.findReadable j.cls x = some trait → trait.getter = some g →
    getDefault call o x s = (do return some (← call g o [])) s
  declaredMethod : s.world.classes.hookMember? j.cls .getter x = none →
    s.world.classes.hookMember? j.cls .method x = none →
    ∀ trait m, s.world.classes.findReadable j.cls x = some trait → trait.getter = none →
    trait.method = some m → getDefault call o x s =
      .ok (some (.function m)) { s with world := s.world.hold (.function m) }
  undefined : s.world.classes.hookMember? j.cls .getter x = none →
    s.world.classes.hookMember? j.cls .method x = none →
    s.world.classes.findReadable j.cls x = none → getDefault call o x s = .ok none s

variable {call : Caller} {s₀ s : State} {o : ObjectId} {i j k : Instance} {x : QName}

/-- The members bound under a name are what hooks have bound there. -/
def Instance.Hooked (w : World) (j : Instance) (x : QName) : Prop :=
  ∀ kind, w.Leaves none (w.classes.hookMember? j.cls kind x) (j.bound.member? kind x)

theorem Instance.Hooked.later {w w' : World} (h : k.Hooked w x) (hl : w.Later w') (hs : w'.Sound)
    (hj : w'.instance? o = some j) (hchain : w'.classes.chain j.cls = w.classes.chain k.cls)
    (hbound : j.bound.get? x = k.bound.get? x) : j.Hooked w' x := by
  intro kind
  have hmember : j.bound.member? kind x = k.bound.member? kind x := by
    unfold TraitTable.member?
    rw [hbound]
  have hkept := (h kind).later hl fun _ hf => isValid_of_member? hs hj (hmember.trans hf)
  unfold ClassTable.hookMember? at hkept ⊢
  rwa [hchain, hmember]

theorem Instance.Hooked.serves (h : j.Hooked s.world x) (hs : s.world.Sound)
    (hj : s.world.instance? o = some j) (hslot : j.slots.get? x = none) :
    Serving call s o j x := by
  have hbound : ∀ kind f, s.world.classes.hookMember? j.cls kind x = some f →
      ∃ g, j.bound.member? kind x = some g ∧ f.Serves s.world g := by
    intro kind f hf
    have h := h kind
    rwa [hf] at h
  have hunbound : ∀ kind, s.world.classes.hookMember? j.cls kind x = none →
      j.bound.member? kind x = none := by
    intro kind hnone
    have h := h kind
    rwa [hnone] at h
  have hread : getDefault call o x s = _ := getDefault_of_no_slot hs hj hslot
  have hstatic : s.world.classes.hookMember? j.cls .getter x = none →
      s.world.classes.hookMember? j.cls .method x = none →
      j.readableTrait s.world.classes x = s.world.classes.findReadable j.cls x :=
    fun hgetter hmethod =>
      readableTrait_of_unbound (hunbound .getter hgetter) (hunbound .method hmethod)
  constructor
  case boundGetter =>
    intro f hf
    obtain ⟨g, hg, hserves⟩ := hbound .getter f hf
    rw [traitAnswer_of_getter hg] at hread
    exact ⟨g, hserves, hread⟩
  case boundMethod =>
    intro hgetter f hf
    obtain ⟨m, hm, hserves⟩ := hbound .method f hf
    rw [traitAnswer_of_method (hunbound .getter hgetter) hm] at hread
    exact ⟨m, hserves, hread⟩
  case declaredGetter =>
    intro hgetter hmethod trait g htrait hg
    unfold traitAnswer at hread
    rw [hstatic hgetter hmethod, htrait] at hread
    obtain ⟨getter, setter, method⟩ := trait
    obtain rfl : getter = some g := hg
    exact hread
  case declaredMethod =>
    intro hgetter hmethod trait m htrait hg hm
    unfold traitAnswer at hread
    rw [hstatic hgetter hmethod, htrait] at hread
    obtain ⟨getter, setter, method⟩ := trait
    obtain rfl : getter = none := hg
    obtain rfl : method = some m := hm
    exact hread
  case undefined =>
    intro hgetter hmethod hnone
    unfold traitAnswer at hread
    rw [hstatic hgetter hmethod, hnone] at hread
    exact hread

/-- Once the traits of an instance have been installed, reads of a name to which nothing else was
bound are served by the hook of the most derived class that binds a getter, else by that of the most
derived one that binds a method, else by what the most derived class declares. -/
theorem State.Reachable.reads_served (h : s₀.Reachable) (hmoment : Steps s₀.world s.world)
    (ho : s.world.Holds (.object o)) (hi : s.world.instance? o = some i)
    (hnew : i.installed = false) (hx : i.bound.get? x = none) :
    ∃ s₁ k, installTraits o s = .ok () s₁ ∧ s₁.world.instance? o = some k ∧ k.installed ∧
      ∀ s' j, Steps s₁.world s'.world → s'.world.instance? o = some j →
        j.bound.get? x = k.bound.get? x → j.slots.get? x = none →
        ∀ call, Serving call s' o j x := by
  obtain ⟨hs₀, hst₀⟩ := h.sound
  have hs := hmoment.sound hs₀
  have hr := (hmoment.staffed hst₀).toRegistered
  obtain ⟨_, s₁, hrun, hsteps₁, -, k, hk, hequipped⟩ := returns_installTraits hs ho hi hnew
  refine ⟨s₁, k, hrun, hk, hequipped.installed, fun s' j hsteps hj hbound hslot call => ?_⟩
  have hchain₁ := (hsteps₁.later.instance_eq hr hi hk).1
  have hhooked : k.Hooked s₁.world x := by
    intro kind
    have hleft := hequipped.members kind x
    rw [ClassTable.lastBinding?_hooks, TraitTable.member?_eq_none hx] at hleft
    unfold ClassTable.hookMember? at hleft ⊢
    rwa [hchain₁]
  have hs' := (hsteps₁.trans hsteps).sound hs
  have hchain := (hsteps.later.instance_eq (hsteps₁.registered hr) hk hj).1
  exact (hhooked.later hsteps.later hs' hj hchain hbound).serves hs' hj hslot

def redefinitions : Session :=
  .ask (.enter fun _ _ _ => .done (.int 1)) fun bound =>
  .ask (.enter fun _ _ _ => .done (.int 2)) fun declared =>
  .ask (.perform .look) fun w =>
  .ask (.perform (.newFunction "declared" [] (.script declared))) fun f =>
  .ask (.perform (.registerClass ⟨QName.pub "Base", some w.core.object, [], none,
    some [.bind .getter (QName.pub "x") (.fresh "bound" (.script bound))], none⟩)) fun base =>
  .ask (.perform (.registerClass ⟨QName.pub "Declares", some base,
    [(.getter, QName.pub "x", f)], none, none, none⟩)) fun declares =>
  .ask (.perform (.registerClass ⟨QName.pub "Binds", some base, [], none,
    some [.bind .method (QName.pub "x") (.shared f)], none⟩)) fun binds =>
  .ask (.perform (.instantiate declares none)) fun o =>
  .ask (.assign 0 (.object o)) fun _ =>
  .ask (.perform (.installTraits o)) fun _ =>
  .ask (.perform (.instantiate binds none)) fun o =>
  .ask (.assign 1 (.object o)) fun _ =>
  .ask (.perform (.installTraits o)) fun _ =>
  .ask (.perform (.instantiate declares none)) fun o =>
  .ask (.assign 2 (.object o)) fun _ => .done

def Run.gives {α : Type} [DecidableEq α] (m : Run α) (s : State) (a : α) : Bool :=
  match m s with
  | .ok b _ => b == a
  | .error .. => false

theorem Run.exists_of_gives {α : Type} [DecidableEq α] {m : Run α} {a : α} (h : gives m s a) :
    ∃ s', m s = .ok a s' := by
  unfold gives at h
  cases hm : m s with
  | ok b s' =>
    rw [hm] at h
    exact ⟨s', by rw [beq_iff_eq.1 h]⟩
  | error e s' =>
    rw [hm] at h
    cases h

def Run.aborts {α : Type} (m : Run α) (s : State) (f : Fatal) : Bool :=
  match m s with
  | .ok .. => false
  | .error h _ => h == .abort f

theorem Run.exists_of_aborts {α : Type} {m : Run α} {f : Fatal} (h : aborts m s f) :
    ∃ s', m s = .error (.abort f) s' := by
  unfold aborts at h
  cases hm : m s with
  | ok a s' =>
    rw [hm] at h
    cases h
  | error e s' =>
    rw [hm] at h
    exact ⟨s', by rw [beq_iff_eq.1 h]⟩

/-- The getter that the hook of `Base` binds serves reads in both classes: not the getter that the
one below it declares, which gives 2, and not the method that the hook of the other one binds. -/
theorem boundGetter_serves_redefinitions :
    let start : State := ⟨World.initial.withPlaces 3, [], 30, []⟩
    let s : State := { start.afterRun (embed 3 redefinitions) with budget := 9, interference := [] }
    s.Reachable ∧
    (∃ j k, s.world.instance? 5 = some j ∧ j.installed ∧ j.slots.get? (QName.pub "x") = none ∧
      (s.world.classes.chain j.cls).head? = some k ∧
      k.traits.get? (QName.pub "x") = some ⟨some 4, none, none⟩ ∧
      (∃ s', callFunction 2 4 5 [] s = .ok (.int 2) s') ∧
      ∃ s', getDefault (callFunction 2) 5 (QName.pub "x") s = .ok (some (.int 1)) s') ∧
    ∃ j k, s.world.instance? 7 = some j ∧ j.installed ∧ j.slots.get? (QName.pub "x") = none ∧
      (s.world.classes.chain j.cls).head? = some k ∧
      k.hookMember? .method (QName.pub "x") = some (.shared 4) ∧
      ∃ s', getDefault (callFunction 2) 7 (QName.pub "x") s = .ok (some (.int 1)) s' := by
  intro start s
  have h : s.Reachable := .embed (.core 3 30 []) 3 redefinitions 9 []
  have hdeclares : (s.world.instance? 5).any fun j => j.installed &&
      (j.slots.get? (QName.pub "x")).isNone &&
      (s.world.classes.chain j.cls).head?.any fun k =>
        k.traits.get? (QName.pub "x") == some ⟨some 4, none, none⟩ := by decide +kernel
  have hbinds : (s.world.instance? 7).any fun j => j.installed &&
      (j.slots.get? (QName.pub "x")).isNone &&
      (s.world.classes.chain j.cls).head?.any fun k =>
        k.hookMember? .method (QName.pub "x") == some (.shared 4) := by decide +kernel
  refine ⟨h, ?_, ?_⟩
  · obtain ⟨j, hj, hfacts⟩ := (Option.any_eq_true _ _).1 hdeclares
    rw [Bool.and_eq_true, Bool.and_eq_true, Option.isNone_iff_eq_none] at hfacts
    obtain ⟨⟨hinstalled, hslot⟩, hhead⟩ := hfacts
    obtain ⟨k, hk, htrait⟩ := (Option.any_eq_true _ _).1 hhead
    exact ⟨j, k, hj, hinstalled, hslot, hk, beq_iff_eq.1 htrait,
      exists_of_gives (by decide +kernel), exists_of_gives (by decide +kernel)⟩
  · obtain ⟨j, hj, hfacts⟩ := (Option.any_eq_true _ _).1 hbinds
    rw [Bool.and_eq_true, Bool.and_eq_true, Option.isNone_iff_eq_none] at hfacts
    obtain ⟨⟨hinstalled, hslot⟩, hhead⟩ := hfacts
    obtain ⟨k, hk, hmember⟩ := (Option.any_eq_true _ _).1 hhead
    exact ⟨j, k, hj, hinstalled, hslot, hk, beq_iff_eq.1 hmember,
      exists_of_gives (by decide +kernel)⟩

theorem reads_served_redefinitions :
    let start : State := ⟨World.initial.withPlaces 3, [], 30, []⟩
    let s : State := { start.afterRun (embed 3 redefinitions) with budget := 9, interference := [] }
    ∃ i s₁ k, s.Reachable ∧ s.world.Holds (.object 9) ∧ s.world.instance? 9 = some i ∧
      i.installed = false ∧ i.bound.get? (QName.pub "x") = none ∧
      (s.world.classes.hookMember? i.cls .getter (QName.pub "x")).isSome ∧
      installTraits 9 s = .ok () s₁ ∧ s₁.world.instance? 9 = some k ∧
      Serving (callFunction 2) s₁ 9 k (QName.pub "x") := by
  intro start s
  have h : s.Reachable := .embed (.core 3 30 []) 3 redefinitions 9 []
  have ho : s.world.Holds (.object 9) := by decide +kernel
  have hfacts : (s.world.instance? 9).any fun i => !i.installed &&
      (i.bound.get? (QName.pub "x")).isNone &&
      (s.world.classes.hookMember? i.cls .getter (QName.pub "x")).isSome := by decide +kernel
  obtain ⟨i, hi, hfacts⟩ := (Option.any_eq_true _ _).1 hfacts
  rw [Bool.and_eq_true, Bool.and_eq_true, Bool.not_eq_true', Option.isNone_iff_eq_none] at hfacts
  obtain ⟨⟨hnew, hx⟩, hhook⟩ := hfacts
  obtain ⟨s₁, k, hrun, hk, -, hserving⟩ := State.Reachable.reads_served h (.refl _) ho hi hnew hx
  have hafter : s₁ = s.afterRun (installTraits 9) := by
    unfold State.afterRun
    rw [hrun]
  have hslot : (s₁.world.instance? 9).all fun k => (k.slots.get? (QName.pub "x")).isNone := by
    rw [hafter]
    decide +kernel
  rw [hk, Option.all_some, Option.isNone_iff_eq_none] at hslot
  exact ⟨i, s₁, k, h, ho, hi, hnew, hx, hhook, hrun, hk,
    hserving s₁ k (.refl _) hk rfl hslot (callFunction 2)⟩

end ScriptPlayer
