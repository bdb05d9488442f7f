import ScriptPlayer.Proofs.Player.Session
import ScriptPlayer.Proofs.Run.Exchanges

/-! Reference counts are exact at every moment, and each access accounts for the handles that it
moves. -/
namespace ScriptPlayer

open Run

namespace World

variable {w w' : World}

def allHandles (w : World) : List Value := w.roots ++ w.heap.owned

/-- The counts are the numbers of handles, what has a handle exists, and nothing else does. -/
structure Exact (w : World) : Prop where
  counted : ∀ id, w.heap.count id = refs id w.allHandles
  alive : ∀ id, (w.heap.get? id).isSome ↔ 0 < refs id w.allHandles
  valid : ∀ v ∈ w.allHandles, w.isValid v

theorem Sound.exact (hs : w.Sound) : w.Exact where
  counted := hs.heap.counted
  alive id := by
    unfold allHandles
    rw [← hs.heap.counted]
    cases hc : w.heap.get? id with
    | none => simp [Heap.count_of_dead hc]
    | some c => simp [Heap.count_eq hc, hs.heap.live id c hc]
  valid v hv := isValid_iff_refers.2 (hs.heap.refers v hv)

def Destroyed (w : World) (id : Nat) : Prop := id < w.heap.cells.length ∧ w.heap.get? id = none

/-- What is destroyed stays so: its number is never used again. -/
theorem Later.destroyed (h : w.Later w') {id : Nat} (hd : w.Destroyed id) : w'.Destroyed id := by
  refine ⟨Nat.lt_of_lt_of_le hd.1 h.length, ?_⟩
  cases hc : w'.heap.get? id with
  | none => rfl
  | some c =>
    have hx : w'.heap.content? id = some c.content := by rw [Heap.content?, hc, Option.map_some]
    obtain ⟨x, hx, -⟩ := h.content id _ hd.1 hx
    obtain ⟨n, hc⟩ := Heap.content?_eq_some_iff.1 hx
    cases hd.2.symm.trans hc

end World

/-- How the handles are accounted for in a state and by what can happen next. -/
structure State.Accounted (s : State) : Prop where
  exact : s.world.Exact
  /-- also after an operation that ends with an error or a fault -/
  exact_after : ∀ depth op, (s.afterRun (perform (callFunction depth) op)).world.Exact
  destroyed_once : ∀ depth p id, s.world.Destroyed id →
    (s.afterRun (embed depth p)).world.Destroyed id
  destroyed_after : ∀ depth op id, s.world.Destroyed id →
    (s.afterRun (perform (callFunction depth) op)).world.Destroyed id
  /-- the frame that asked for an operation gains the handles of the reply and no others -/
  handed : ∀ depth op reply s', perform (callFunction depth) op s = .ok reply s' →
    op.isDrop = false → Kept s.world.frames (op.kept reply) s'.world.frames
  /-- an access that stores nothing, also one that fails, adds what it hands over -/
  found : ∀ depth op reply, 0 < s.budget → (∀ v ∈ op.operands, s.world.isValid v) →
    op.Finds s.world reply → ∃ s', perform (callFunction depth) op s = .ok reply s' ∧
      ∀ id, s'.world.heap.get? id = (s.world.heap.get? id).map fun c =>
        { c with count := c.count + refs id (op.kept reply) }
  /-- an access that stores gives up what was stored; when that is taken or handed over nothing is
  destroyed -/
  stored : ∀ depth op reply o j gone taken, 0 < s.budget →
    (∀ v ∈ op.operands, s.world.isValid v) → op.Stores s.world reply o j gone taken →
    ∃ s', perform (callFunction depth) op s = .ok reply s' ∧
      (s.world.heap.setContent o (.instanceOf j)).Accounts s'.world.heap gone
        (taken ++ op.kept reply) ∧
      ((∀ id, refs id gone ≤ refs id (taken ++ op.kept reply)) →
        (s.world.heap.setContent o (.instanceOf j)).freed s'.world.heap = [])
  dropped : ∀ depth v f rest, 0 < s.budget → s.world.frames = f :: rest → v ∈ f.held →
    ∃ s', perform (callFunction depth) (.drop v) s = .ok () s' ∧
      s.world.heap.Accounts s'.world.heap [v] []

theorem State.Reachable.accounted {s : State} (h : s.Reachable) : s.Accounted := by
  obtain ⟨hs, hst⟩ := h.sound
  have hsteps : ∀ depth op, World.Steps s.world
      (s.afterRun (perform (callFunction depth) op)).world := by
    intro depth op
    have hends := ends_perform (calls_callFunction depth) hs hst op
    unfold State.afterRun
    cases hrun : perform (callFunction depth) op s with
    | ok reply s' => exact (hends.of_ok hrun).1
    | error e s' => exact (hends.of_error hrun).1
  exact {
    exact := hs.exact
    exact_after := fun depth op => ((hsteps depth op).sound hs).exact
    destroyed_once := fun depth p id => (steps_embed hs hst depth p).later.destroyed
    destroyed_after := fun depth op id => (hsteps depth op).later.destroyed
    handed := fun depth op reply s' hrun hdrop => by
      obtain ⟨-, -, hkept⟩ := (ends_perform (calls_callFunction depth) hs hst op).of_ok hrun
      exact hkept hdrop
    found := fun depth op reply hb hops hf => perform_finds hs hb hops hf
    stored := fun depth op reply o j gone taken hb hops hx =>
      perform_stores (calls_callFunction depth) hs hst hb hops hx
    dropped := fun depth v f rest hb hf hv =>
      perform_drop (calls_callFunction depth) hs hst hb hf hv }

def keepObject : Session :=
  .ask (.perform .newObject) fun o => .ask (.assign 0 (.object o)) fun _ => .done

theorem accounted_keepObject :
    let start : State := ⟨World.initial.withPlaces 1, [], 1, []⟩
    let s : State := { start.afterRun (embed 1 keepObject) with budget := 1, interference := [] }
    s.Reachable ∧ s.world.handleCount (s.world.place 0) = 1 ∧ s.Accounted :=
  have h : State.Reachable _ := .embed (.core 1 1 []) 1 keepObject 1 []
  ⟨h, by decide +kernel, State.Reachable.accounted h⟩

end ScriptPlayer
