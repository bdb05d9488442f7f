import ScriptPlayer.Proofs.Player.Session
import ScriptPlayer.Proofs.Run.Findings
import ScriptPlayer.Proofs.Run.Install

/-! A constructed instance keeps its accessors: whatever its constructor does, and whatever happens
to it later, no slot comes to stand before a member that has a setter. -/
namespace ScriptPlayer

open World Run

namespace Instance

variable {i : Instance} {t : ClassTable}

/-- Nobody but the hooks of its class chain has bound setters to the instance: a name has one only
if a hook binds one under it. So it is unless something is bound after the hooks have run
(`Constructs.hookSetters`). -/
def HookSetters (t : ClassTable) (i : Instance) : Prop :=
  ∀ name, (i.bound.member? .setter name).isSome → (t.hookMember? i.cls .setter name).isSome

theorem hookSetters_of_entries
    (h : i.bound.entries.all fun e => (t.hookMember? i.cls .setter e.1).isSome) :
    i.HookSetters t := by
  intro name hmember
  obtain ⟨f, hf⟩ := Option.isSome_iff_exists.1 hmember
  obtain ⟨trait, htrait, -⟩ := Option.bind_eq_some_iff.1 hf
  exact List.all_eq_true.1 h (name, trait) (Assoc.mem_of_lookup htrait)

theorem write_of_setter {key : Key} {name : QName} {f : FunctionId}
    (hd : ∀ d, i.backing ≠ .dictionary d) (hk : (i.resolve key).qname? = some name)
    (hset : i.setter? t name = some f) (v : Value) : i.write t key v = .ok (.setter f) := by
  unfold Key.qname? at hk
  unfold write
  dsimp only
  cases hn : (i.resolve key).name with
  | qualified n =>
    rw [hn] at hk
    obtain rfl := Option.some.inj hk
    dsimp only
    split
    · rename_i d hb
      exact absurd hb (hd d)
    · rw [hset]
  | index n =>
    rw [hn] at hk
    cases hk
  | identity o =>
    rw [hn] at hk
    cases hk

end Instance

/-- What reads and writes of the names that have a setter do to an instance. -/
structure Accessors (call : Caller) (s : State) (o : ObjectId) (j : Instance) : Prop where
  slotless : ∀ name f, j.setter? s.world.classes name = some f → j.slots.get? name = none
  set : ∀ key name f v, (j.resolve key).qname? = some name →
    j.setter? s.world.classes name = some f →
    Run.set call o key v s = forEffect (call f o [v]) s
  getDefault : ∀ name f, j.setter? s.world.classes name = some f →
    Run.getDefault call o name s = match j.traitAnswer s.world.classes name with
      | .value v => .ok (some v) { s with world := s.world.hold v }
      | .getter g => (do return some (← call g o [])) s
      | .absent => .ok none s

variable {call : Caller} {s₀ s s₁ s' : State} {o : ObjectId} {i j : Instance} {cls : ClassId}
  {backing : Option BackingSpec} {args : List Value}

theorem accessors_of_slotless (hs : s.world.Sound) (hj : s.world.instance? o = some j)
    (hd : ∀ d, j.backing ≠ .dictionary d)
    (hslots : ∀ name f, j.setter? s.world.classes name = some f → j.slots.get? name = none) :
    Accessors call s o j where
  slotless := hslots
  set key name f v hk hset := by
    rw [set_concludes hj, Instance.write_of_setter hd hk hset v]
    rfl
  getDefault name f hset := getDefault_of_no_slot hs hj (hslots name f hset)

namespace Run.Constructs

theorem chain_eq (h : Constructs call cls backing args s o s₁ i) (hr : s.world.Registered)
    (hc : cls < s.world.classes.size) (hsteps : Steps s₁.world s'.world)
    (hj : s'.world.instance? o = some j) :
    s'.world.classes.chain j.cls = s.world.classes.chain cls := by
  have hchain := (hsteps.later.instance_eq (h.before.registered hr) h.found hj).1
  rw [hchain, h.cls_eq]
  exact ClassTable.chain_of_extends hr.classes h.before.later.classes hc

theorem hookSetters (h : Constructs call cls backing args s o s₁ i) (hr : s.world.Registered)
    (hc : cls < s.world.classes.size) (hsteps : Steps s₁.world s'.world)
    (hj : s'.world.instance? o = some j) (hsame : j.bound = i.bound) :
    j.HookSetters s'.world.classes := by
  intro name hmember
  have hbound := h.members .setter name
  unfold ClassTable.hookMember? at hbound ⊢
  rw [h.chain_eq hr hc hsteps hj]
  cases hhook : (s.world.classes.chain cls).findSome? fun k => k.hookMember? .setter name with
  | some f => rfl
  | none =>
    rw [hhook] at hbound
    rw [hsame, show i.bound.member? .setter name = none from hbound] at hmember
    cases hmember

theorem isSome_setter? (h : Constructs call cls backing args s o s₁ i)
    (hr : s.world.Registered) (hc : cls < s.world.classes.size)
    (hsteps : Steps s₁.world s'.world) (hj : s'.world.instance? o = some j)
    (hbound : j.HookSetters s'.world.classes) {name : QName}
    (hset : (j.setter? s'.world.classes name).isSome) :
    (i.setter? s₁.world.classes name).isSome := by
  have hchain := h.chain_eq hr hc hsteps hj
  have hchain₁ := h.chain_eq hr hc (.refl _) h.found
  rw [Instance.isSome_setter?_iff] at hset ⊢
  rcases hset with hmember | hstatic
  · have hhook := hbound name hmember
    have hleft := h.members .setter name
    unfold ClassTable.hookMember? at hhook hleft
    rw [hchain] at hhook
    obtain ⟨f, hf⟩ := Option.isSome_iff_exists.1 hhook
    rw [hf] at hleft
    obtain ⟨g, hg, -⟩ := hleft
    exact Or.inl (Option.isSome_of_eq_some hg)
  · unfold ClassTable.findSetter ClassTable.findTrait at hstatic ⊢
    rw [hchain, ← hchain₁] at hstatic
    exact Or.inr hstatic

end Run.Constructs

/-- However an instance was constructed: from the moment at which the hooks of its class chain have
run, its constructor's moments included, a name with a setter has no slot. -/
theorem State.Reachable.accessors (h : s₀.Reachable) (hmoment : Steps s₀.world s.world)
    (depth : Nat) (hc : cls < s.world.classes.size) (backing : Option BackingSpec)
    (args : List Value) :
    ∃ o s₁ i, Constructs (callFunction depth) cls backing args s o s₁ i ∧
      ∀ s' j, Steps s₁.world s'.world → s'.world.instance? o = some j →
        (∀ d, j.backing ≠ .dictionary d) → j.HookSetters s'.world.classes →
        ∀ call, Accessors call s' o j := by
  obtain ⟨hs₀, hst₀⟩ := h.sound
  have hs := hmoment.sound hs₀
  have hst := hmoment.staffed hst₀
  obtain ⟨o, s₁, i, hmade⟩ :=
    exists_constructs (calls_callFunction depth) hs hst hc backing args
  refine ⟨o, s₁, i, hmade, fun s' j hsteps hj hd hbound call => ?_⟩
  have hs₁ := hmade.before.sound hs
  have hr₁ := hmade.before.registered hst.toRegistered
  have hheeds := hsteps.heeds hs₁ hr₁ hmade.found hj
  apply accessors_of_slotless (hsteps.sound hs₁) hj hd
  intro name f hset
  have hset₁ := hmade.isSome_setter? hst.toRegistered hc hsteps hj hbound
    (Option.isSome_of_eq_some hset)
  have hempty : i.slots.get? name = none := by
    rw [hmade.slots]
    rfl
  exact hheeds.slotless name hset₁ hempty

def hookedSetter : Session :=
  .ask (.enter fun _ _ _ => .done .undefined) fun setter =>
  .ask (.enter fun _ this _ =>
    .perform (.set this (Key.pub "x") (.int 1)) fun _ => .done .undefined) fun body =>
  .ask (.perform .look) fun w =>
  .ask (.perform (.newFunction "C" [] (.script body))) fun f =>
  .ask (.perform (.registerClass ⟨QName.pub "C", some w.core.object, [], some f,
    some [.bind .setter (QName.pub "x") (.fresh "x" (.script setter))], none⟩)) fun _ => .done

theorem accessors_hookedSetter :
    let start : State := ⟨World.initial.withPlaces 1, [], 9, []⟩
    let s : State := { start.afterRun (embed 3 hookedSetter) with budget := 9, interference := [] }
    let s' : State := s.afterRun (construct (callFunction 3) 4 none [])
    s.Reachable ∧ 4 < s.world.classes.size ∧ ∃ o s₁ i j,
      Constructs (callFunction 3) 4 none [] s o s₁ i ∧ s'.world.instance? o = some j ∧
      (j.setter? s'.world.classes (QName.pub "x")).isSome ∧
      Accessors (callFunction 3) s' o j := by
  intro start s s'
  have h : s.Reachable := .embed (.core 1 9 []) 3 hookedSetter 9 []
  have hc : 4 < s.world.classes.size := by decide +kernel
  obtain ⟨o, s₁, i, hmade, hkept⟩ := State.Reachable.accessors h (.refl _) 3 hc none []
  have ho : o = 5 := hmade.place.trans (by decide +kernel)
  subst ho
  have hfacts : (s'.world.instance? 5).any fun j => j.backing.kind == .plain &&
      (j.setter? s'.world.classes (QName.pub "x")).isSome && j.bound.entries.all fun e =>
        (s'.world.classes.hookMember? j.cls .setter e.1).isSome := by decide +kernel
  obtain ⟨j, hj, hfacts⟩ := (Option.any_eq_true _ _).1 hfacts
  rw [Bool.and_eq_true, Bool.and_eq_true, beq_iff_eq] at hfacts
  obtain ⟨⟨hplain, hset⟩, hentries⟩ := hfacts
  have hd : ∀ d, j.backing ≠ .dictionary d := by
    intro d hb
    rw [hb] at hplain
    cases hplain
  exact ⟨h, hc, 5, s₁, i, j, hmade, hj, hset, hkept s' j hmade.rest hj hd
    (Instance.hookSetters_of_entries hentries) (callFunction 3)⟩

end ScriptPlayer
