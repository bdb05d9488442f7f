import ScriptPlayer.Proofs.Player.Session
import ScriptPlayer.Proofs.Run.Places
import ScriptPlayer.Proofs.Run.Replies
import ScriptPlayer.Proofs.World.Members

/-! Writes, deletions and questions for a key agree. What was written is there; what was deleted was
there and is gone, unless a trait has the name, and nothing else has changed. -/
namespace ScriptPlayer

open World Run

namespace Instance

variable {t : ClassTable} {i j : Instance} {key : Key} {p : Place} {v : Value}

theorem Loses.traitName?_eq (h : i.Loses p j) (hp : i.place? key = some p) :
    i.traitName? key = key.text? := by
  obtain ⟨ns, name, spelling⟩ := key
  cases hb : i.backing with
  | bytes b =>
    cases name with
    | index n =>
      obtain rfl : Place.byte n.toNat = p := by simpa [place?, hb, Backing.kind] using hp
      cases h
    | _ => simp [traitName?, hb, Backing.kind]
  | _ => cases name <;> simp [traitName?, hb, Backing.kind]

theorem Loses.hasTrait (h : i.Loses p j) (name : QName) :
    j.hasTrait t name = i.hasTrait t name := by
  cases h <;> rfl

theorem Stores.has (hi : i.WellFormed) (hj : j.WellFormed) (h : i.Stores key v j) :
    j.has t key := by
  rw [hj.has_eq, h.isSome_kept? hi, Bool.true_or]

theorem hasTrait_of_setter {name : QName} (h : (i.setter? t name).isSome) : i.hasTrait t name := by
  by_contra htrait
  rw [(traits_of_not_hasTrait (Bool.eq_false_iff.2 htrait)).2] at h
  cases h

theorem Loses.has_eq (hi : i.WellFormed) (hj : j.WellFormed) (h : i.Loses p j) (t : ClassTable)
    (key : Key) : j.has t key = if i.place? key = some p then key.text?.any (i.hasTrait t)
      else i.has t key := by
  have hplace := place?_congr h.kind_eq key
  have hname := traitName?_congr h.kind_eq key
  have htrait : j.hasTrait t = i.hasTrait t := funext h.hasTrait
  have hat := h.at?_eq hi hj
  rw [hj.has_eq, hi.has_eq, hname, htrait]
  unfold kept?
  rw [hplace]
  by_cases hp : i.place? key = some p
  · rw [if_pos hp, hp, Option.bind_some, hat, if_pos rfl, h.traitName?_eq hp]
    rfl
  · rw [if_neg hp]
    cases hk : i.place? key with
    | none => rfl
    | some p' =>
      have hne : p' ≠ p := fun he => hp (hk.trans (congrArg some he))
      rw [Option.bind_some, hat, if_neg hne, Option.bind_some]

end Instance

/-- What a deletion has done that says that it has deleted something: one place has been lost. -/
structure Deleted (s s' : State) (o : ObjectId) (i : Instance) (key : Key) (p : Place) : Prop where
  place : i.place? key = some p
  had : i.has s.world.classes key
  classes : s'.world.classes = s.world.classes
  loses : ∀ j, s'.world.instance? o = some j → i.Loses p j
  /-- other instances have not changed, though what was deleted may have been the last handle -/
  others : ∀ o' k, o' ≠ o → s'.world.instance? o' = some k → s.world.instance? o' = some k
  has_iff : ∀ j, s'.world.instance? o = some j →
    (j.has s'.world.classes key ↔ ∃ name, key.text? = some name ∧ i.hasTrait s.world.classes name)
  has_other : ∀ j key', s'.world.instance? o = some j → i.place? key' ≠ some p →
    j.has s'.world.classes key' = i.has s.world.classes key'

/-- How writes, deletions and questions for a key agree on an instance. -/
structure Coherence (call : Caller) (s : State) (o : ObjectId) (i : Instance) : Prop where
  set_has : ∀ key v s' j, perform call (.set o key v) s = .ok (Except.ok ()) s' →
    s'.world.instance? o = some j → j.has s'.world.classes key
  /-- what is kept under a key can be deleted, unless it is a byte -/
  deletes : ∀ key, 0 < s.budget → (∀ v ∈ key.handles, s.world.isValid v) → i.takes key →
    (i.kept? key).isSome → (∀ n, i.place? key ≠ some (.byte n)) →
    ∃ s', perform call (.delete o key) s = .ok (Except.ok true) s'
  deleted : ∀ key s', perform call (.delete o key) s = .ok (Except.ok true) s' →
    ∃ p, Deleted s s' o i key p
  /-- the workers' moves apart, nothing changes when nothing is deleted -/
  unchanged : ∀ key (reply : Except ScriptError Bool) s', reply ≠ Except.ok true →
    perform call (.delete o key) s = .ok reply s' → s' = pulsed s
  /-- no second deletion succeeds while the instance is as the first has left it -/
  twice : ∀ key s' s₁ s₂, perform call (.delete o key) s = .ok (Except.ok true) s' →
    s₁.world.instance? o = s'.world.instance? o →
    perform call (.delete o key) s₁ ≠ .ok (Except.ok true) s₂
  /-- while the instance is held it is there to be asked -/
  lives : s.world.Holds (.object o) → ∀ (op : Op) (reply : op.Reply) s', op.isDrop = false →
    perform call op s = .ok reply s' → ∃ j, s'.world.instance? o = some j

variable {call : Caller} {s s' : State} {o : ObjectId} {i j : Instance} {key : Key} {v : Value}

namespace Run

/-- After a write there is something under the key, whatever a setter does. -/
theorem has_of_set (hcall : Calls call) (hs : s.world.Sound) (hst : s.world.Staffed)
    (hi : s.world.instance? o = some i)
    (h : perform call (.set o key v) s = .ok (Except.ok ()) s')
    (hj : s'.world.instance? o = some j) : j.has s'.world.classes key := by
  have hwf := hs.wellFormed hi
  have hsteps := ((ends_perform hcall hs hst (.set o key v)).of_ok h).1
  have hwf' := (hsteps.sound hs).wellFormed hj
  rcases write_of_perform hi h with ⟨k, hk⟩ | ⟨f, hf⟩
  · obtain ⟨s₁, hrun, haccounts, -⟩ := perform_stores hcall hs hst (budget_pos_of_perform h)
      (isValid_of_perform h) (.set hi hk)
    obtain rfl := (EStateM.Result.ok.inj (h.symm.trans hrun)).2
    obtain rfl := instance?_of_fades hi haccounts.fades hj
    exact (Instance.stores_of_write hk).has hwf hwf'
  · obtain ⟨name, hname, hset⟩ := Instance.setter?_of_write hf
    have hr := hst.toRegistered
    have hheeds := hsteps.heeds hs hr hi hj
    have hkind := (hsteps.later.instance_eq hr hi hj).2
    have htrait := Instance.hasTrait_of_setter
      (hheeds.setter name (Option.isSome_of_eq_some hset))
    rw [hwf'.has_eq, Instance.traitName?_congr hkind, hname, Option.any_some, htrait,
      Bool.or_true]

theorem delete_of_kept (call : Caller) (hs : s.world.Sound) (hb : 0 < s.budget)
    (hi : s.world.instance? o = some i) (hkey : ∀ v ∈ key.handles, s.world.isValid v)
    (hk : i.takes key) (hkept : (i.kept? key).isSome)
    (hbyte : ∀ n, i.place? key ≠ some (.byte n)) :
    ∃ s', perform call (.delete o key) s = .ok (Except.ok true) s' := by
  have hops : ∀ v ∈ (Op.delete o key).operands, s.world.isValid v := isValid_operands hi hkey
  obtain ⟨j, hj⟩ := Instance.exists_remove_of_kept (hs.wellFormed hi) hk hkept hbyte
  have hstores : Op.Stores s.world (.delete o key) (Except.ok true) o j (i.stored key) [] :=
    .delete hi hj
  exact ⟨_, perform_stores_run hs hb hops hstores⟩

theorem deleted_of_delete (hs : s.world.Sound) (hst : s.world.Staffed)
    (hi : s.world.instance? o = some i)
    (h : perform call (.delete o key) s = .ok (Except.ok true) s') :
    ∃ p, Deleted s s' o i key p := by
  have hwf := hs.wellFormed hi
  have hs' := sound_of_delete hs hst h
  obtain ⟨p, k, hp, hloses, hclasses, hfades⟩ := loses_of_delete hs hi h
  have hfound : ∀ j, s'.world.instance? o = some j → j = k := fun j hj =>
    instance?_of_fades hi hfades hj
  have hhas : ∀ j key', s'.world.instance? o = some j → j.has s'.world.classes key' =
      if i.place? key' = some p then key'.text?.any (i.hasTrait s.world.classes)
      else i.has s.world.classes key' := by
    intro j key' hj
    obtain rfl := hfound j hj
    rw [hclasses]
    exact hloses.has_eq hwf (hs'.wellFormed hj) s.world.classes key'
  refine ⟨p, ?_⟩
  constructor
  case place => exact hp
  case had =>
    rw [hwf.has_eq, Instance.kept?, hp, Option.bind_some, hloses.isSome_at? hwf, Bool.true_or]
  case classes => exact hclasses
  case loses =>
    intro j hj
    rwa [hfound j hj]
  case others =>
    intro o' j hne hj
    have hcontent := hfades.content o' _ (Heap.instance?_eq_some_iff.1 hj)
    rw [Heap.content?_setContent (Heap.instance?_eq_some_iff.1 hi), if_neg hne] at hcontent
    exact Heap.instance?_eq_some_iff.2 hcontent
  case has_iff =>
    intro j hj
    rw [hhas j key hj, if_pos hp, Option.any_eq_true]
  case has_other =>
    intro j key' hj hne
    rw [hhas j key' hj, if_neg hne]

theorem unchanged_of_delete {reply : Except ScriptError Bool} (hs : s.world.Sound)
    (hi : s.world.instance? o = some i) (hreply : reply ≠ Except.ok true)
    (h : perform call (.delete o key) s = .ok reply s') : s' = pulsed s := by
  rcases remove_of_perform hi h with ⟨htrue, -⟩ | ⟨-, hfinds⟩
  · exact absurd htrue hreply
  · have hrun : perform call (.delete o key) s = .ok reply (pulsed s) :=
      perform_finds_nothing hs (budget_pos_of_perform h) (isValid_of_perform h) rfl hfinds
    exact (EStateM.Result.ok.inj (h.symm.trans hrun)).2

/-- A place that has been lost cannot be lost again. -/
theorem no_second_delete {s₁ s₂ : State} (hs : s.world.Sound) (hst : s.world.Staffed)
    (hi : s.world.instance? o = some i)
    (h : perform call (.delete o key) s = .ok (Except.ok true) s')
    (hsame : s₁.world.instance? o = s'.world.instance? o) :
    perform call (.delete o key) s₁ ≠ .ok (Except.ok true) s₂ := by
  intro h₂
  have hs' := sound_of_delete hs hst h
  have hvalid := isValid_of_perform h₂ (.object o) (List.mem_cons_self ..)
  obtain ⟨j, hj⟩ : ∃ j, s₁.world.instance? o = some j := Option.isSome_iff_exists.1 hvalid
  have hj' := hsame.symm.trans hj
  have hwf := hs.wellFormed hi
  have hwf' := hs'.wellFormed hj'
  obtain ⟨p, hdeleted⟩ := deleted_of_delete hs hst hi h
  have hloses := hdeleted.loses j hj'
  have hplace := Instance.place?_congr hloses.kind_eq key
  rcases remove_of_perform hj h₂ with ⟨-, k, hk⟩ | ⟨hne, -⟩
  · obtain ⟨p₂, hp₂, hagain⟩ := (Instance.removes_of_remove hwf' hk).loses hwf'
    obtain rfl : p₂ = p := Option.some.inj (hp₂.symm.trans (hplace.trans hdeleted.place))
    have htaken := hagain.isSome_at? hwf'
    rw [hloses.at?_eq hwf hwf', if_pos rfl] at htaken
    cases htaken
  · exact absurd rfl hne

end Run

theorem State.Reachable.coherence (h : s.Reachable) (depth : Nat)
    (hi : s.world.instance? o = some i) : Coherence (callFunction depth) s o i := by
  obtain ⟨hs, hst⟩ := h.sound
  have hcall := calls_callFunction depth
  constructor
  case set_has => exact fun key v s' j hrun hj => has_of_set hcall hs hst hi hrun hj
  case deletes =>
    exact fun key hb hkey hk hkept hbyte => delete_of_kept _ hs hb hi hkey hk hkept hbyte
  case deleted => exact fun key s' hrun => deleted_of_delete hs hst hi hrun
  case unchanged => exact fun key reply s' hreply hrun => unchanged_of_delete hs hi hreply hrun
  case twice =>
    exact fun key s' s₁ s₂ hrun hsame => no_second_delete hs hst hi hrun hsame
  case lives =>
    exact fun ho op reply s' hdrop hrun =>
      (exists_instance_of_perform hcall hs hst ho hdrop hrun).2.2.2.2

def shadowedSetter : Session :=
  .ask (.enter fun _ _ _ => .done .undefined) fun code =>
  .ask (.perform .newObject) fun o =>
  .ask (.assign 0 (.object o)) fun _ =>
  .ask (.perform (.set o (Key.pub "x") (.int 1))) fun _ =>
  .ask (.perform (.newFunction "x" [] (.script code))) fun f =>
  .ask (.perform (.bind o .setter (QName.pub "x") f)) fun _ => .done

theorem coherence_shadowedSetter :
    let start : State := ⟨World.initial.withPlaces 1, [], 9, []⟩
    let s : State := { start.afterRun (embed 1 shadowedSetter) with
      budget := 9, interference := [] }
    ∃ i, s.Reachable ∧ s.world.instance? 4 = some i ∧ i.slots.contains (QName.pub "x") ∧
      i.hasTrait s.world.classes (QName.pub "x") ∧ Coherence (callFunction 1) s 4 i := by
  intro start s
  have h : s.Reachable := .embed (.core 1 9 []) 1 shadowedSetter 9 []
  obtain ⟨i, hi⟩ := Option.isSome_iff_exists.1 (by decide +kernel : (s.world.instance? 4).isSome)
  have hfacts : (s.world.instance? 4).all fun i => i.slots.contains (QName.pub "x") &&
      i.hasTrait s.world.classes (QName.pub "x") := by decide +kernel
  rw [hi, Option.all_some, Bool.and_eq_true] at hfacts
  exact ⟨i, h, hi, hfacts.1, hfacts.2, State.Reachable.coherence h 1 hi⟩

end ScriptPlayer
