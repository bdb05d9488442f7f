import ScriptPlayer.Proofs.Ownership.Exchange
import ScriptPlayer.Proofs.Run.Findings

/-! Accesses that change what an instance keeps. They give up what was stored under the key, take
handles to what is stored there now, and hand over what the reply shows. -/
namespace ScriptPlayer

open World

/-- Accesses that store or take out, with what they answer, the instance that they leave, and the
handles that the instance gives up and takes. -/
inductive Op.Stores (w : World) :
    (op : Op) → op.Reply → ObjectId → Instance → List Value → List Value → Prop
  | set {o : ObjectId} {i j : Instance} {key : Key} {v : Value} (hi : w.instance? o = some i)
      (h : i.write w.classes key v = .ok (.stored j)) :
      Stores w (.set o key v) (Except.ok ()) o j (i.stored key) (i.taken key v)
  | delete {o : ObjectId} {i j : Instance} {key : Key} (hi : w.instance? o = some i)
      (h : i.remove w.classes key = .ok (some j)) :
      Stores w (.delete o key) (Except.ok true) o j (i.stored key) []
  | setEntry {o : ObjectId} {i : Instance} {d : Dictionary} (hi : w.instance? o = some i)
      (hb : i.backing = .dictionary d) (key : DictKey) (v : Value) :
      Stores w (.setEntry o key v) (d.get? key) o
        { i with backing := .dictionary (d.set key v).2 } (d.stored key) [key.toValue, v]
  | deleteEntry {o : ObjectId} {i : Instance} {d : Dictionary} {key : DictKey} {v : Value}
      (hi : w.instance? o = some i) (hb : i.backing = .dictionary d) (h : d.get? key = some v) :
      Stores w (.deleteEntry o key) (some (key.toValue, v)) o
        { i with backing := .dictionary (d.delete key).2 } [key.toValue, v] []

namespace Op.Stores

variable {w w' : World} {op : Op} {reply : op.Reply} {o : ObjectId} {j : Instance}
  {gone taken : List Value}

theorem congr (h : Stores w op reply o j gone taken) (hi : ∀ o, w'.instance? o = w.instance? o)
    (hc : w'.classes = w.classes) : Stores w' op reply o j gone taken := by
  cases h with
  | set hi' h => exact .set ((hi _).trans hi') (hc ▸ h)
  | delete hi' h => exact .delete ((hi _).trans hi') (hc ▸ h)
  | setEntry hi' hb key v => exact .setEntry ((hi _).trans hi') hb key v
  | deleteEntry hi' hb h => exact .deleteEntry ((hi _).trans hi') hb h

theorem refs_handles (h : Stores w op reply o j gone taken) (hs : w.Sound) :
    ∃ i, w.instance? o = some i ∧
      ∀ id, refs id j.handles + refs id gone = refs id i.handles + refs id taken := by
  cases h with
  | set hi h => exact ⟨_, hi, (hs.wellFormed hi).refs_write h⟩
  | delete hi h => exact ⟨_, hi, (hs.wellFormed hi).refs_remove h⟩
  | setEntry hi hb key v => exact ⟨_, hi, (hs.wellFormed hi).refs_entry hb key v⟩
  | @deleteEntry o i d key v hi hb h =>
    have hstored : d.stored key = [key.toValue, v] := by
      unfold Dictionary.stored
      rw [h]
      rfl
    exact ⟨_, hi, hstored ▸ (hs.wellFormed hi).refs_unentry hb key⟩

theorem isValid (h : Stores w op reply o j gone taken) (hs : w.Sound) {v : Value}
    (hv : v ∈ op.kept reply) : w.isValid v := by
  cases h with
  | setEntry hi hb key =>
    have hmem := Instance.mem_handles_of_entry hb key (Option.mem_toList.1 hv)
    exact hs.isValid_of_mem_handles hi hmem
  | @deleteEntry o i d key u hi hb h =>
    have hmem : v ∈ d.handles := by
      rw [((hs.wellFormed hi).dictionary d hb).get?_eq_lookup] at h
      exact List.mem_flatMap.2 ⟨(key, u), Assoc.mem_of_lookup h, hv⟩
    exact hs.isValid_of_mem_handles hi (by simp [Instance.handles, hb, Backing.handles, hmem])
  | _ => exact absurd hv List.not_mem_nil

theorem isDrop_eq (h : Stores w op reply o j gone taken) : op.isDrop = false := by
  cases h <;> rfl

end Op.Stores

namespace Run

variable {call : Caller} {s : State}

theorem putDictionary_run {o : ObjectId} {i : Instance} (hi : s.world.instance? o = some i)
    (d : Dictionary) : putDictionary o d s =
      .ok () { s with world := s.world.putInstance o { i with backing := .dictionary d } } :=
  bind_of_ok (instanceOf_run hi) _

theorem execute_stores {op : Op} {reply : op.Reply} {o : ObjectId} {j : Instance}
    {gone taken : List Value} (hs : s.world.Sound)
    (h : op.Stores s.world reply o j gone taken) :
    execute call op s =
      .ok reply { s with world := (s.world.holdAll (op.kept reply)).putInstance o j } := by
  have hvalid := fun v => h.isValid (v := v) hs
  cases h with
  | set hi h =>
    apply attempt_of_ok
    rw [set_concludes hi, h]
    rfl
  | delete hi h =>
    apply attempt_of_ok
    rw [delete_concludes hi, h]
    rfl
  | @setEntry o i d hi hb key v =>
    have hold : (d.set key v).1 = d.get? key := by
      have hwf := (hs.wellFormed hi).dictionary d hb
      rw [hwf.get?_eq_lookup, (hwf.set_eq key v).1]
    have hi' : (s.world.holdAll (d.get? key).toList).instance? o = some i :=
      (SameContents.instance? (content?_holdAll s.world _) o).trans hi
    refine (bind_of_ok (dictionaryOf_run hi hb) _).trans ?_
    dsimp only
    rw [hold]
    refine (bind_of_ok (holdAll_run hvalid) _).trans ?_
    exact bind_of_ok (putDictionary_run (s := { s with
      world := s.world.holdAll (d.get? key).toList }) hi' _) _
  | @deleteEntry o i d key v hi hb h =>
    have hwf := (hs.wellFormed hi).dictionary d hb
    have hi' : (s.world.holdAll [key.toValue, v]).instance? o = some i :=
      (SameContents.instance? (content?_holdAll s.world _) o).trans hi
    refine (bind_of_ok (dictionaryOf_run hi hb) _).trans ?_
    dsimp only
    rw [hwf.delete_of_get?_eq_some h]
    have hboth : (([(key.toValue, v)] : List (Value × Value)).forM
        (fun e => do hold e.1; hold e.2) : Run Unit) s =
          .ok () { s with world := s.world.holdAll [key.toValue, v] } := by
      refine Eq.trans ?_ (holdAll_run hvalid)
      exact congrFun (bind_assoc (hold key.toValue) (fun _ => hold v) fun _ => pure ()) s
    refine (bind_of_ok hboth _).trans ?_
    exact bind_of_ok (putDictionary_run (s := { s with
      world := s.world.holdAll [key.toValue, v] }) hi' _) _

theorem execute_opened_stores {op : Op} {reply : op.Reply} {o : ObjectId} {j : Instance}
    {gone taken : List Value} (hs : s.world.Sound) (hops : ∀ v ∈ op.operands, s.world.isValid v)
    (h : op.Stores s.world reply o j gone taken) :
    execute call op (opened s op.operands) = .ok reply { opened s op.operands with
      world := ((opened s op.operands).world.holdAll (op.kept reply)).putInstance o j } :=
  execute_stores ((steps_opened hops).sound hs) <|
    h.congr (sameContents_opened s op.operands).instance? (sameClasses_opened s op.operands).classes

theorem perform_stores_run {op : Op} {reply : op.Reply} {o : ObjectId} {j : Instance}
    {gone taken : List Value} (hs : s.world.Sound) (hb : 0 < s.budget)
    (hops : ∀ v ∈ op.operands, s.world.isValid v) (h : op.Stores s.world reply o j gone taken) :
    perform call op s = .ok reply { opened s op.operands with
      world := (((opened s op.operands).world.holdAll (op.kept reply)).putInstance o j).popFrame
        (op.kept reply) } :=
  perform_run hb hops h.isDrop_eq (execute_opened_stores hs hops h)

/-- The counts account for what was stored, what is stored now and what is handed over. -/
theorem perform_stores {op : Op} {reply : op.Reply} {o : ObjectId} {j : Instance}
    {gone taken : List Value} (hcall : Calls call) (hs : s.world.Sound) (hst : s.world.Staffed)
    (hb : 0 < s.budget) (hops : ∀ v ∈ op.operands, s.world.isValid v)
    (h : op.Stores s.world reply o j gone taken) :
    ∃ s', perform call op s = .ok reply s' ∧
      (s.world.heap.setContent o (.instanceOf j)).Accounts s'.world.heap gone
        (taken ++ op.kept reply) ∧
      ((∀ id, refs id gone ≤ refs id (taken ++ op.kept reply)) →
        (s.world.heap.setContent o (.instanceOf j)).freed s'.world.heap = []) := by
  obtain ⟨i, hi, hlaw⟩ := h.refs_handles hs
  exact perform_exchange hcall hs hst hb hops h.isDrop_eq (fun v hv => h.isValid hs hv) hi hlaw
    (execute_opened_stores hs hops h)

end Run

end ScriptPlayer
