import ScriptPlayer.Proofs.Run.Access
import ScriptPlayer.Proofs.World.Storing

/-! Single operations, step by step: the workers move, a frame opens and takes the operands, the
operation is carried out, the frame closes and leaves what the reply shows. -/
namespace ScriptPlayer

open World

namespace World

variable {w : World}

def holdAll (w : World) (vs : List Value) : World := vs.foldl hold w

theorem reframes_holdAll (w : World) (vs : List Value) : w.Reframes (w.holdAll vs) := by
  induction vs generalizing w with
  | nil => exact .refl w
  | cons v vs ih => exact (reframes_hold w v).trans (ih _)

theorem holdAll_eq {f : Frame} {rest : List Frame} (hf : w.frames = f :: rest)
    (vs : List Value) :
    w.holdAll vs = { w with
      heap := w.heap.retainAll vs
      frames := { f with held := vs.reverse ++ f.held } :: rest } := by
  induction vs generalizing w f with
  | nil =>
    obtain ⟨purpose, held⟩ := f
    cases w
    subst hf
    rfl
  | cons v vs ih =>
    have hhold : w.hold v = { w with
        heap := w.heap.retain v
        frames := { f with held := v :: f.held } :: rest } := by
      unfold hold
      rw [hf]
    change (w.hold v).holdAll vs = _
    rw [ih (w := w.hold v) (by rw [hhold]), hhold]
    simp only [List.reverse_cons, List.append_assoc, List.singleton_append]
    rfl

theorem content?_holdAll (w : World) (vs : List Value) (id : Nat) :
    (w.holdAll vs).heap.content? id = w.heap.content? id := by
  induction vs generalizing w with
  | nil => rfl
  | cons v vs ih => exact (ih (w.hold v)).trans (content?_hold w v id)

theorem isValid_congr {w' : World} (hc : ∀ id, w'.heap.content? id = w.heap.content? id)
    (hclasses : w'.classes = w.classes) (v : Value) : w'.isValid v ↔ w.isValid v := by
  rw [isValid_iff_refers, isValid_iff_refers, hclasses]
  exact ⟨fun h => h.congr fun id => (hc id).symm, fun h => h.congr hc⟩

theorem steps_holdAll {vs : List Value} (hvs : ∀ v ∈ vs, w.isValid v) :
    Steps w (w.holdAll vs) := by
  induction vs generalizing w with
  | nil => exact .refl w
  | cons v vs ih =>
    have hstep : Step w (w.hold v) := .hold (hvs v (List.mem_cons_self ..))
    refine hstep.steps.trans (ih fun u hu => ?_)
    exact (isValid_congr (content?_hold w v) (reframes_hold w v).classes u).2
      (hvs u (List.mem_cons_of_mem v hu))

end World

namespace Run

variable {call : Caller} {s : State}

theorem holdAll_run {vs : List Value} (hvs : ∀ v ∈ vs, s.world.isValid v) :
    vs.forM hold s = .ok () { s with world := s.world.holdAll vs } := by
  induction vs generalizing s with
  | nil => rfl
  | cons v vs ih =>
    change (hold v >>= fun _ => vs.forM hold) s = _
    rw [bind_of_ok (hold_run (hvs v (List.mem_cons_self ..)))]
    apply ih
    intro u hu
    exact (isValid_congr (content?_hold s.world v) (reframes_hold s.world v).classes u).2
      (hvs u (List.mem_cons_of_mem v hu))

def pulsed (s : State) : State :=
  { s with
    budget := s.budget - 1
    world := s.world.moveAll (s.interference.headD [])
    interference := s.interference.tail }

theorem pulse_run (hb : 0 < s.budget) : pulse s = .ok () (pulsed s) := by
  unfold pulse pulsed
  obtain ⟨n, hn⟩ := Nat.exists_eq_succ_of_ne_zero (Nat.pos_iff_ne_zero.1 hb)
  rw [hn]
  rfl

theorem sameOwners_pulsed (s : State) : s.world.SameOwners (pulsed s).world :=
  Background.moveAll _ _

theorem isValid_pulsed (v : Value) :
    ((pulsed s).world.pushFrame .operation).isValid v ↔ s.world.isValid v := by
  have hown := sameOwners_pulsed s
  refine isValid_congr (w := s.world) (fun id => ?_) hown.classes v
  exact congrArg (Heap.content? · id) hown.heap

/-- The state in which an operation is carried out: its frame is open and holds the operands. -/
def opened (s : State) (vs : List Value) : State :=
  { pulsed s with world := ((pulsed s).world.pushFrame .operation).holdAll vs }

def closing (op : Op) :
    EStateM.Result Halt State op.Reply → EStateM.Result Halt State op.Reply
  | .ok reply s => .ok reply { s with world := s.world.popFrame (op.kept reply) }
  | .error (.error e) s => .error (.error e) { s with world := s.world.popFrame [] }
  | .error h s => .error h s

theorem framed_run {op : Op} (hops : ∀ v ∈ op.operands, s.world.isValid v) :
    framed .operation op.kept (do op.operands.forM hold; execute call op) (pulsed s) =
      closing op (execute call op (opened s op.operands)) := by
  have hvalid : ∀ v ∈ op.operands, ((pulsed s).world.pushFrame .operation).isValid v :=
    fun v hv => (isValid_pulsed v).2 (hops v hv)
  have hbody : (do op.operands.forM hold; execute call op : Run op.Reply)
      { pulsed s with world := (pulsed s).world.pushFrame .operation } =
        execute call op (opened s op.operands) :=
    bind_of_ok (holdAll_run (s := { pulsed s with
      world := (pulsed s).world.pushFrame .operation }) hvalid) _
  unfold framed
  rw [hbody]
  cases execute call op (opened s op.operands) with
  | ok reply s₂ => rfl
  | error h s₂ => cases h <;> rfl

/-- An operation is carried out in a frame of its own, after the moves of the workers. -/
theorem perform_eq {op : Op} (hb : 0 < s.budget) (hops : ∀ v ∈ op.operands, s.world.isValid v)
    (hdrop : op.isDrop = false) :
    perform call op s = closing op (execute call op (opened s op.operands)) := by
  refine (bind_of_ok (pulse_run hb) _).trans ?_
  rw [bind_run, framed_run hops]
  cases execute call op (opened s op.operands) with
  | ok reply s₂ =>
    cases op with
    | drop v => cases hdrop
    | _ => rfl
  | error h s₂ => cases h <;> rfl

theorem perform_run {op : Op} {reply : op.Reply} {s₂ : State} (hb : 0 < s.budget)
    (hops : ∀ v ∈ op.operands, s.world.isValid v) (hdrop : op.isDrop = false)
    (hx : execute call op (opened s op.operands) = .ok reply s₂) :
    perform call op s = .ok reply { s₂ with world := s₂.world.popFrame (op.kept reply) } := by
  rw [perform_eq hb hops hdrop, hx]
  rfl

/-! The world in which an operation is carried out is the one before, with handles for the
operands. -/

theorem holdAll_opened (s : State) (ops vs : List Value) :
    (opened s ops).world.holdAll vs = (opened s (ops ++ vs)).world :=
  List.foldl_append.symm

theorem world_opened (s : State) (vs : List Value) :
    (opened s vs).world = { (pulsed s).world with
      heap := s.world.heap.retainAll vs
      frames := ⟨.operation, vs.reverse⟩ :: s.world.frames } := by
  have hown := sameOwners_pulsed s
  have heq := holdAll_eq (w := (pulsed s).world.pushFrame .operation) rfl vs
  refine heq.trans ?_
  rw [List.append_nil, pushFrame, hown.heap, hown.frames]

theorem frames_opened (s : State) (vs : List Value) :
    (opened s vs).world.frames = ⟨.operation, vs.reverse⟩ :: s.world.frames := by
  rw [world_opened]

theorem get?_opened (s : State) (vs : List Value) (id : Nat) :
    (opened s vs).world.heap.get? id =
      (s.world.heap.get? id).map fun c => { c with count := c.count + refs id vs } := by
  rw [world_opened]
  exact Heap.get?_retainAll _ _ _

theorem sameClasses_opened (s : State) (vs : List Value) :
    s.world.SameClasses (opened s vs).world := by
  have hown := sameOwners_pulsed s
  rw [world_opened]
  exact ⟨hown.classes, hown.core, hown.runtime⟩

theorem sameContents_opened (s : State) (vs : List Value) :
    SameContents s.world (opened s vs).world := by
  intro id
  rw [world_opened]
  exact Heap.content?_retainAll _ _ _

theorem others_opened (s : State) (vs : List Value) :
    (opened s vs).world.others = s.world.others := by
  have hown := sameOwners_pulsed s
  rw [world_opened]
  unfold others
  rw [hown.classes, hown.globals, hown.targets]

theorem instance?_opened {vs : List Value} {o : ObjectId} {i : Instance}
    (hi : s.world.instance? o = some i) : (opened s vs).world.instance? o = some i :=
  ((sameContents_opened s vs).instance? o).trans hi

theorem heldBy_opened (s : State) {vs : List Value} {v : Value} (hv : v ∈ vs) :
    HeldBy (opened s vs).world.frames v := by
  rw [frames_opened]
  exact ⟨_, List.mem_cons_self .., by simp, List.mem_reverse.2 hv⟩

theorem steps_opened {vs : List Value} (hvs : ∀ v ∈ vs, s.world.isValid v) :
    Steps s.world (opened s vs).world := by
  have hpulse : Step s.world (pulsed s).world := .background (sameOwners_pulsed s)
  have hpush : Step (pulsed s).world ((pulsed s).world.pushFrame .operation) := .push rfl
  exact (hpulse.steps.tail hpush).trans
    (steps_holdAll fun v hv => (isValid_pulsed v).2 (hvs v hv))

/-! An operation that only takes handles -/

theorem get?_closed {vs : List Value} (hs : s.world.Sound) (hvs : ∀ v ∈ vs, s.world.isValid v)
    (keep : List Value) (id : Nat) : ((opened s vs).world.popFrame keep).heap.get? id =
      (s.world.heap.get? id).map fun c => { c with count := c.count + refs id keep } := by
  obtain ⟨below, rest, hf⟩ := hs.exists_frame
  have hheap : ((opened s vs).world.popFrame keep).heap =
      ((opened s vs).world.heap.retainAll keep).releaseAll vs.reverse := by
    rw [popFrame, frames_opened, hf]
  -- no handle of the frame is the last one to its cell
  have hlt : ∀ k, 0 < refs k vs.reverse →
      refs k vs.reverse < ((opened s vs).world.heap.retainAll keep).count k := by
    intro k hk
    rw [refs_reverse] at hk ⊢
    obtain ⟨c, hc, hpos⟩ := hs.exists_cell hvs hk
    rw [Heap.count, Heap.get?_retainAll, get?_opened, hc]
    simp only [Option.map_some, Option.getD_some]
    omega
  rw [hheap, Heap.get?_releaseAll hlt, Heap.get?_retainAll, get?_opened, Option.map_map,
    Option.map_map]
  congr 1
  funext c
  simp only [Function.comp_apply, Cell.mk.injEq, and_true, refs_reverse]
  omega

theorem perform_quiet {op : Op} {reply : op.Reply} (hs : s.world.Sound) (hb : 0 < s.budget)
    (hops : ∀ v ∈ op.operands, s.world.isValid v) (hdrop : op.isDrop = false)
    (hkept : ∀ v ∈ op.kept reply, s.world.isValid v)
    (hx : execute call op (opened s op.operands) = .ok reply { opened s op.operands with
      world := (opened s op.operands).world.holdAll (op.kept reply) }) :
    ∃ s', perform call op s = .ok reply s' ∧ ∀ id, s'.world.heap.get? id =
      (s.world.heap.get? id).map fun c =>
        { c with count := c.count + refs id (op.kept reply) } := by
  refine ⟨_, perform_run hb hops hdrop hx, fun id => ?_⟩
  dsimp only
  rw [holdAll_opened]
  exact get?_closed hs (fun v hv => (List.mem_append.1 hv).elim (hops v) (hkept v)) _ id

theorem heap_closed {vs : List Value} (hs : s.world.Sound) (hvs : ∀ v ∈ vs, s.world.isValid v) :
    ((opened s vs).world.popFrame []).heap = s.world.heap := by
  apply Heap.ext_get?
  · rw [(fades_popFrame _ _).length, world_opened]
    exact Heap.length_cells_retainAll _ _
  · intro id
    exact (get?_closed hs hvs [] id).trans Option.map_id'

/-! An operation that stores something exchanges what one instance owns. -/

theorem others_popFrame (w : World) (keep : List Value) : (w.popFrame keep).others = w.others := by
  unfold popFrame
  split
  · rfl
  · rfl
  · rfl

theorem others_putInstance (w : World) (o : ObjectId) (j : Instance) :
    (w.putInstance o j).others = w.others := by
  unfold World.putInstance
  cases w.instance? o <;> rfl

theorem accounts_of_sound {w w' : World} {h : Heap} {gone taken : List Value} (hs : w.Sound)
    (hs' : w'.Sound) (hothers : w'.others = w.others) (hcount : ∀ id, h.count id = w.heap.count id)
    (hfades : h.Fades w'.heap)
    (hmoved : ∀ id, refs id (w'.frames.flatMap Frame.held) + refs id h.owned + refs id gone =
      refs id (w.frames.flatMap Frame.held) + refs id w.heap.owned + refs id taken) :
    h.Accounts w'.heap gone taken := by
  refine ⟨hfades, fun id => ?_⟩
  have hroots := refs_perm w.roots_perm id
  have hroots' := refs_perm w'.roots_perm id
  have hc := hs.heap.counted id
  have hc' := hs'.heap.counted id
  have howned := hfades.refs_owned id
  have hm := hmoved id
  rw [hothers] at hroots'
  rw [hcount]
  simp only [refs_append] at hroots hroots' hc hc'
  omega

section Exchange

variable {o : ObjectId} {i j : Instance}

theorem fades_exchange (hi : s.world.instance? o = some i) (j : Instance) (vs keep : List Value) :
    (s.world.heap.setContent o (.instanceOf j)).Fades
      (((opened s vs).world.putInstance o j).popFrame keep).heap := by
  have hpop := fades_popFrame ((opened s vs).world.putInstance o j) keep
  refine ⟨?_, fun id x hx => ?_⟩
  · rw [hpop.length, length_cells_putInstance, world_opened]
    exact (Heap.length_cells_retainAll _ _).trans (List.length_modify _ _ _).symm
  · have hx := content?_putInstance (instance?_opened hi) j (hpop.content id x hx)
    rw [Heap.content?_setContent (Heap.instance?_eq_some_iff.1 hi)]
    split at hx
    · rename_i he
      rw [if_pos he, hx]
    · rename_i he
      rw [if_neg he, ← sameContents_opened s vs id]
      exact hx

theorem get?_putInstance_opened {vs : List Value} (hs : s.world.Sound)
    (hi : s.world.instance? o = some i)
    (hcover : ∀ id, refs id i.handles ≤ refs id j.handles + refs id vs) {id : Nat} {c : Cell}
    (hc : s.world.heap.get? id = some c) :
    ∃ x, ((opened s vs).world.putInstance o j).heap.get? id =
      some ⟨c.count + refs id vs + refs id j.handles - refs id i.handles, x⟩ := by
  have hown : ∀ k, 0 < refs k i.handles → ∃ c, s.world.heap.get? k = some c ∧ 0 < c.count :=
    fun _ => hs.exists_cell fun v hv => hs.isValid_of_mem_handles hi hv
  rw [get?_putInstance (instance?_opened hi), Heap.get?_setContent, get?_opened, hc]
  · by_cases he : id = o
    · exact ⟨.instanceOf j, by simp [he]⟩
    · exact ⟨c.content, by simp [he]⟩
  · intro k hpos
    obtain ⟨d, hd, -⟩ := hown k hpos
    rw [get?_opened, hd]
    rfl
  · intro k hpos
    obtain ⟨d, hd, hpos⟩ := hown k hpos
    have := hcover k
    rw [Heap.count, get?_opened, hd]
    simp only [Option.map_some, Option.getD_some]
    omega

/-- Nothing is destroyed when all that the instance gives up is taken or handed over. -/
theorem survives_exchange {ops keep : List Value} (hs : s.world.Sound)
    (hvs : ∀ v ∈ ops ++ keep, s.world.isValid v) (hi : s.world.instance? o = some i)
    (hcover : ∀ id, refs id i.handles ≤ refs id j.handles + refs id keep) {k : Nat}
    (hk : (s.world.heap.get? k).isSome) :
    ((((opened s (ops ++ keep)).world.putInstance o j).popFrame keep).heap.get? k).isSome := by
  have hcover' : ∀ id, refs id i.handles ≤ refs id j.handles + refs id (ops ++ keep) := by
    intro id
    have := hcover id
    rw [refs_append]
    omega
  obtain ⟨below, rest, hf⟩ := hs.exists_frame
  have hheap : (((opened s (ops ++ keep)).world.putInstance o j).popFrame keep).heap =
      (((opened s (ops ++ keep)).world.putInstance o j).heap.retainAll keep).releaseAll
        (ops ++ keep).reverse := by
    rw [popFrame, frames_putInstance, frames_opened, hf]
  obtain ⟨c, hc⟩ := Option.isSome_iff_exists.1 hk
  obtain ⟨x, hx⟩ := get?_putInstance_opened hs hi hcover' hc
  rw [hheap, Heap.get?_releaseAll, Heap.get?_retainAll, hx]
  · rfl
  · intro id hpos
    rw [refs_reverse] at hpos ⊢
    obtain ⟨d, hd, hlive⟩ := hs.exists_cell hvs hpos
    obtain ⟨y, hy⟩ := get?_putInstance_opened hs hi hcover' hd
    have := hcover id
    rw [Heap.count, Heap.get?_retainAll, hy]
    simp only [Option.map_some, Option.getD_some]
    omega

/-- The counts account for every handle that an operation moves: those that the instance gives up,
those that it takes, and those that are handed over. -/
theorem perform_exchange {op : Op} {reply : op.Reply} {gone taken : List Value}
    (hcall : Calls call) (hs : s.world.Sound) (hst : s.world.Staffed) (hb : 0 < s.budget)
    (hops : ∀ v ∈ op.operands, s.world.isValid v) (hdrop : op.isDrop = false)
    (hkept : ∀ v ∈ op.kept reply, s.world.isValid v) (hi : s.world.instance? o = some i)
    (hlaw : ∀ id, refs id j.handles + refs id gone = refs id i.handles + refs id taken)
    (hx : execute call op (opened s op.operands) = .ok reply { opened s op.operands with
      world := ((opened s op.operands).world.holdAll (op.kept reply)).putInstance o j }) :
    ∃ s', perform call op s = .ok reply s' ∧
      (s.world.heap.setContent o (.instanceOf j)).Accounts s'.world.heap gone
        (taken ++ op.kept reply) ∧
      ((∀ id, refs id gone ≤ refs id (taken ++ op.kept reply)) →
        (s.world.heap.setContent o (.instanceOf j)).freed s'.world.heap = []) := by
  rw [holdAll_opened] at hx
  have hrun := perform_run hb hops hdrop hx
  have hvs : ∀ v ∈ op.operands ++ op.kept reply, s.world.isValid v :=
    fun v hv => (List.mem_append.1 hv).elim (hops v) (hkept v)
  obtain ⟨hsteps, -, hframes⟩ := (ends_perform hcall hs hst op).of_ok hrun
  refine ⟨_, hrun, ?_, fun hcover => Heap.freed_eq_nil fun k hk => ?_⟩
  · apply accounts_of_sound hs (hsteps.sound hs)
    · rw [others_popFrame, others_putInstance, others_opened]
    · exact Heap.count_setContent _ _ _
    · exact fades_exchange hi j _ _
    · intro id
      obtain ⟨m, hc⟩ := Heap.content?_eq_some_iff.1 (Heap.instance?_eq_some_iff.1 hi)
      have hput : refs id (s.world.heap.setContent o (.instanceOf j)).owned + refs id i.handles =
          refs id s.world.heap.owned + refs id j.handles := by
        rw [Heap.setContent_eq hc]
        exact Heap.refs_owned_put hc _ id
      obtain ⟨below, rest, hf, hf'⟩ := hframes hdrop
      have hmoved := hlaw id
      rw [hf, hf']
      simp only [List.flatMap_cons, refs_append]
      omega
  · rw [Heap.get?_setContent, Option.isSome_map] at hk
    refine survives_exchange hs hvs hi (fun id => ?_) hk
    have hmoved := hlaw id
    have := hcover id
    rw [refs_append] at this
    omega

end Exchange

theorem perform_drop {v : Value} {f : Frame} {rest : List Frame} (hcall : Calls call)
    (hs : s.world.Sound) (hst : s.world.Staffed) (hb : 0 < s.budget)
    (hf : s.world.frames = f :: rest) (hv : v ∈ f.held) :
    ∃ s', perform call (.drop v) s = .ok () s' ∧ s.world.heap.Accounts s'.world.heap [v] [] := by
  have hops : ∀ u ∈ [v], s.world.isValid u := by
    intro u hu
    rw [List.mem_singleton.1 hu]
    apply hs.isValid_of_mem_roots
    have hmem : v ∈ s.world.frames.flatMap Frame.held :=
      List.mem_flatMap.2 ⟨f, hf ▸ List.mem_cons_self .., hv⟩
    simp [roots, hmem]
  have hframed : framed .operation (Op.drop v).kept _ (pulsed s) =
      closing (.drop v) (execute call (.drop v) (opened s [v])) := framed_run hops
  have hrun : perform call (.drop v) s = .ok () { pulsed s with
      world := ((opened s [v]).world.popFrame []).letGo v } :=
    (bind_of_ok (pulse_run hb) _).trans (bind_of_ok hframed _)
  obtain ⟨hsteps, -, -⟩ := (ends_perform hcall hs hst (.drop v)).of_ok hrun
  have hheap := heap_closed hs hops
  have hframes : ((opened s [v]).world.popFrame []).frames = f :: rest := by
    rw [world_opened, popFrame, hf]
    rfl
  have hletGo : ((opened s [v]).world.popFrame []).letGo v =
      { (opened s [v]).world.popFrame [] with
        heap := s.world.heap.releaseAll [v]
        frames := { f with held := f.held.erase v } :: rest } := by
    unfold letGo
    rw [hframes, hheap]
    exact if_pos (List.contains_iff_mem.2 hv)
  have hothers : (((opened s [v]).world.popFrame []).letGo v).others = s.world.others := by
    rw [hletGo]
    exact (others_popFrame (opened s [v]).world []).trans (others_opened s [v])
  refine ⟨_, hrun, accounts_of_sound hs (hsteps.sound hs) hothers (fun _ => rfl) ?_ fun id => ?_⟩
  · rw [hletGo]
    exact Heap.fades_releaseAll _ _
  · have herase : refs id f.held = refs id [v] + refs id (f.held.erase v) :=
      (refs_perm (List.perm_cons_erase hv) id).trans (refs_append id [v] _)
    rw [hletGo, hf]
    simp only [List.flatMap_cons, refs_append, refs_nil]
    omega

end Run

end ScriptPlayer
