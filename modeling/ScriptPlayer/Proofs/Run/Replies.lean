import ScriptPlayer.Proofs.Run.Places

/-! What follows from the reply of an operation. Its operands were there when it began; and a write
or a deletion has done no more than the reply says. -/
namespace ScriptPlayer

open World

namespace Run

variable {α : Type} {call : Caller} {s s' : State} {o : ObjectId} {i : Instance} {key : Key}
  {v : Value}

/-! The operands -/

theorem isValid_of_hold (h : hold v s = .ok () s') : s.world.isValid v := by
  by_contra hv
  rw [show hold v s = _ from bind_of_error (requireValid_dangling hv) _] at h
  cases h

theorem isValid_of_holds {vs : List Value} (h : vs.forM hold s = .ok () s') :
    ∀ v ∈ vs, s.world.isValid v := by
  induction vs generalizing s with
  | nil => simp
  | cons u vs ih =>
    obtain ⟨_, s₁, hhead, htail⟩ := exists_of_bind_ok (k := fun _ => vs.forM hold) h
    have hu := isValid_of_hold hhead
    rw [hold_run hu] at hhead
    obtain rfl := (EStateM.Result.ok.inj hhead).2
    have hsame := isValid_congr (content?_hold s.world u) (reframes_hold s.world u).classes
    intro v hv
    rcases List.mem_cons.1 hv with rfl | hv
    · exact hu
    · exact (hsame v).1 (ih htail v hv)

theorem exists_of_framed_ok {purpose : Purpose} {keep : α → List Value} {m : Run α} {a : α}
    (h : framed purpose keep m s = .ok a s') :
    ∃ s₁, m { s with world := s.world.pushFrame purpose } = .ok a s₁ := by
  unfold framed at h
  cases hm : m { s with world := s.world.pushFrame purpose } with
  | ok b s₁ =>
    rw [hm] at h
    exact ⟨s₁, by rw [(EStateM.Result.ok.inj h).1]⟩
  | error e s₁ =>
    rw [hm] at h
    cases e <;> cases h

theorem eq_pulsed {u : Unit} (h : pulse s = .ok u s') : s' = pulsed s := by
  unfold pulse at h
  unfold pulsed
  split at h
  · cases h
  · rename_i hb
    rw [hb]
    exact (EStateM.Result.ok.inj h).2.symm

theorem isValid_of_perform {op : Op} {reply : op.Reply} (h : perform call op s = .ok reply s') :
    ∀ v ∈ op.operands, s.world.isValid v := by
  obtain ⟨_, s₁, hpulse, hrest⟩ := exists_of_bind_ok h
  obtain rfl := eq_pulsed hpulse
  obtain ⟨_, _, hframed, -⟩ := exists_of_bind_ok hrest
  obtain ⟨_, hbody⟩ := exists_of_framed_ok hframed
  obtain ⟨_, _, hheld, -⟩ := exists_of_bind_ok hbody
  exact fun v hv => (isValid_pulsed v).1 (isValid_of_holds hheld v hv)

/-! Operations that change nothing -/

theorem popFrame_opened {vs : List Value} (hs : s.world.Sound)
    (hvs : ∀ v ∈ vs, s.world.isValid v) :
    (opened s vs).world.popFrame [] = (pulsed s).world := by
  have hown := sameOwners_pulsed s
  have hheap := heap_closed hs hvs
  obtain ⟨below, rest, hf⟩ := hs.exists_frame
  have hpop : (opened s vs).world.popFrame [] = { (pulsed s).world with
      heap := ((opened s vs).world.popFrame []).heap
      frames := s.world.frames } := by
    rw [world_opened, popFrame, hf]
    rfl
  rw [hpop, hheap, ← hown.heap, ← hown.frames]

theorem perform_finds_nothing {op : Op} {reply : op.Reply} (hs : s.world.Sound)
    (hb : 0 < s.budget) (hops : ∀ v ∈ op.operands, s.world.isValid v)
    (hkept : op.kept reply = []) (h : op.Finds s.world reply) :
    perform call op s = .ok reply (pulsed s) := by
  have hrun : perform call op s = _ :=
    perform_run hb hops h.isDrop_eq (execute_opened_finds hs hops h)
  rw [hkept] at hrun
  change perform call op s = .ok reply
    { pulsed s with world := (opened s op.operands).world.popFrame [] } at hrun
  rwa [popFrame_opened hs hops] at hrun

/-! Reads, writes and deletions -/

theorem isValid_operands (hi : s.world.instance? o = some i)
    (hkey : ∀ v ∈ key.handles, s.world.isValid v) :
    ∀ v ∈ (Op.get o key).operands, s.world.isValid v := by
  intro v hv
  rcases List.mem_cons.1 hv with rfl | hv
  · exact isValid_receiver hi _ (List.mem_singleton_self _)
  · exact hkey v hv

theorem perform_get (call : Caller) (hb : 0 < s.budget) (hi : s.world.instance? o = some i)
    (hint : i.Unintercepted s.world.classes) (hkey : ∀ v ∈ key.handles, s.world.isValid v) :
    perform call (.get o key) s = closing (.get o key)
      (attempt (ofHalt (i.read s.world.classes key) >>= conclude call o)
        (opened s (Op.get o key).operands)) := by
  have hclasses := (sameClasses_opened s (Op.get o key).operands).classes
  rw [perform_eq hb (isValid_operands hi hkey) rfl]
  refine congrArg (closing _) (attempt_congr ?_)
  rw [get_run (instance?_opened hi) (hclasses ▸ hint), hclasses]
  cases i.read s.world.classes key <;> rfl

theorem perform_set (call : Caller) (hb : 0 < s.budget) (hi : s.world.instance? o = some i)
    (hops : ∀ u ∈ (Op.set o key v).operands, s.world.isValid u) :
    perform call (.set o key v) s = closing (.set o key v)
      (attempt (ofHalt (i.write s.world.classes key v) >>= concludeWrite call o v)
        (opened s (Op.set o key v).operands)) := by
  have hclasses := (sameClasses_opened s (Op.set o key v).operands).classes
  rw [perform_eq hb hops rfl]
  refine congrArg (closing _) (attempt_congr ?_)
  rw [set_concludes (instance?_opened hi), hclasses]

theorem perform_delete (call : Caller) (hb : 0 < s.budget) (hi : s.world.instance? o = some i)
    (hops : ∀ u ∈ (Op.delete o key).operands, s.world.isValid u) :
    perform call (.delete o key) s = closing (.delete o key)
      (attempt (ofHalt (i.remove s.world.classes key) >>= concludeRemoval o)
        (opened s (Op.delete o key).operands)) := by
  have hclasses := (sameClasses_opened s (Op.delete o key).operands).classes
  rw [perform_eq hb hops rfl]
  refine congrArg (closing _) (attempt_congr ?_)
  rw [delete_concludes (instance?_opened hi), hclasses]

theorem write_of_perform (hi : s.world.instance? o = some i)
    (h : perform call (.set o key v) s = .ok (Except.ok ()) s') :
    (∃ j, i.write s.world.classes key v = .ok (.stored j)) ∨
      ∃ f, i.write s.world.classes key v = .ok (.setter f) := by
  rw [perform_set call (budget_pos_of_perform h) hi (isValid_of_perform h)] at h
  cases hw : i.write s.world.classes key v with
  | ok written =>
    cases written with
    | stored j => exact Or.inl ⟨j, rfl⟩
    | setter f => exact Or.inr ⟨f, rfl⟩
  | error e =>
    rw [hw] at h
    cases e <;> cases h

theorem remove_of_perform {reply : Except ScriptError Bool} (hi : s.world.instance? o = some i)
    (h : perform call (.delete o key) s = .ok reply s') :
    (reply = Except.ok true ∧ ∃ j, i.remove s.world.classes key = .ok (some j)) ∨
      (reply ≠ Except.ok true ∧ Op.Finds s.world (.delete o key) reply) := by
  rw [perform_delete call (budget_pos_of_perform h) hi (isValid_of_perform h)] at h
  cases hr : i.remove s.world.classes key with
  | ok removal =>
    cases removal with
    | some j =>
      rw [hr] at h
      exact Or.inl ⟨(EStateM.Result.ok.inj h).1.symm, j, rfl⟩
    | none =>
      rw [hr] at h
      obtain rfl := (EStateM.Result.ok.inj h).1
      exact Or.inr ⟨nofun, .deleteNothing hi hr⟩
  | error e =>
    rw [hr] at h
    cases e with
    | error x =>
      obtain rfl := (EStateM.Result.ok.inj h).1
      exact Or.inr ⟨nofun, .deleteFails hi hr⟩
    | abort f => cases h
    | exhausted => cases h

theorem sound_of_delete {reply : Except ScriptError Bool} (hs : s.world.Sound)
    (hst : s.world.Staffed) (h : perform call (.delete o key) s = .ok reply s') :
    s'.world.Sound := by
  have h : perform (callFunction 0) (.delete o key) s = .ok reply s' := h
  exact ((ends_perform (calls_callFunction 0) hs hst (.delete o key)).of_ok h).1.sound hs

/-- A deletion that has deleted something has taken one place from the instance. -/
theorem loses_of_delete (hs : s.world.Sound) (hi : s.world.instance? o = some i)
    (h : perform call (.delete o key) s = .ok (Except.ok true) s') :
    ∃ p k, i.place? key = some p ∧ i.Loses p k ∧ s'.world.classes = s.world.classes ∧
      (s.world.heap.setContent o (.instanceOf k)).Fades s'.world.heap := by
  rcases remove_of_perform hi h with ⟨-, k, hk⟩ | ⟨hne, -⟩
  · obtain ⟨p, hp, hloses⟩ := (Instance.removes_of_remove (hs.wellFormed hi) hk).loses
      (hs.wellFormed hi)
    have hstores : Op.Stores s.world (.delete o key) (Except.ok true) o k (i.stored key) [] :=
      .delete hi hk
    have hrun : perform call (.delete o key) s = _ :=
      perform_stores_run hs (budget_pos_of_perform h) (isValid_of_perform h) hstores
    obtain rfl := (EStateM.Result.ok.inj (h.symm.trans hrun)).2
    refine ⟨p, k, hp, hloses, ?_, fades_exchange hi k _ _⟩
    exact (reframes_popFrame _ _).classes.trans
      ((reframes_putInstance _ _ _).classes.trans (sameClasses_opened s _).classes)
  · exact absurd rfl hne

end Run

end ScriptPlayer
