import ScriptPlayer.Proofs.Player.Definitions
import ScriptPlayer.Proofs.Player.EventClass
import ScriptPlayer.Proofs.Run.Dispatch

/-! A dispatch goes by the listeners that are registered when it begins. The listeners are scripts
and may do anything meanwhile, to the list as well. -/
namespace ScriptPlayer

open World Run

/-! No listener is registered twice for a type. -/

namespace World

variable {w w' : World}

def RegistersOnce (w : World) : Prop :=
  ∀ o i l timer, w.instance? o = some i → i.backing = .host (.eventTarget l timer) →
    l.entries.Nodup

theorem Step.registersOnce (h : Step w w') (hw : w.RegistersOnce) : w'.RegistersOnce := by
  intro o j l timer hj hb
  rcases h.origin hj with ⟨i, hi, hbecomes⟩ | ⟨-, cls, spec, rfl⟩
  · cases hbecomes with
    | guard active => cases hb
    | update hu =>
      cases hu with
      | same | slot | unslot | bind | install => exact hw o _ l timer hi hb
      | bytes | entry | unentry | video => cases hb
      | listen l' timer' kind f h' =>
        cases hb
        exact Listeners.nodup_add (hw o i l' timer hi h') kind f
      | unlisten l' timer' kind f h' =>
        cases hb
        exact Listeners.nodup_remove (hw o i l' timer hi h') kind f
      | timer l' old new h' =>
        cases hb
        exact hw o i l old hi h'
  · cases spec <;> cases hb <;> exact List.nodup_nil

theorem Steps.registersOnce (h : Steps w w') (hw : w.RegistersOnce) : w'.RegistersOnce :=
  h.invariant (fun _ _ hw hstep => hstep.registersOnce hw) hw

theorem registersOnce_blank : World.blank.RegistersOnce :=
  fun o i _ _ hi _ => absurd hi (by simp [blank, instance?, Heap.instance?, Heap.get?, Heap.empty])

theorem RegistersOnce.withPlaces (h : w.RegistersOnce) (n : Nat) :
    (w.withPlaces n).RegistersOnce := h

end World

theorem State.Reachable.registersOnce {s : State} (h : s.Reachable) : s.world.RegistersOnce := by
  induction h with
  | core places budget moves =>
    exact (steps_initial.1.registersOnce registersOnce_blank).withPlaces places
  | player o threads places budget moves =>
    exact ((steps_ofOptions o threads).1.registersOnce registersOnce_blank).withPlaces places
  | embed h depth p budget moves ih =>
    exact (steps_embed h.sound.1 h.sound.2 depth p).registersOnce ih

/-- What the embedder gets of a dispatch: the number of listeners, unless one of them has brought
all to an end. -/
def Run.answered (n : Nat) :
    EStateM.Result Halt State Unit → EStateM.Result Halt State (Except ScriptError Nat)
  | .ok _ s => .ok (.ok n) (called s)
  | .error e s => .error e s

/-- How the dispatches of a type to an object with these listeners go from a state on. -/
structure State.Dispatches (s : State) (o : ObjectId) (l : Listeners) (kind : String) : Prop where
  /-- each function is listed once -/
  nodup : (l.forKind kind).Nodup
  none_iff : (l.forKind kind).length = 0 ↔ l.has kind = false
  /-- without listeners nothing is called and no event is made: all cells are as they were -/
  idle : ∀ depth, 0 < s.budget → l.has kind = false → ∃ s',
    perform (callFunction depth) (.dispatch o kind) s = .ok (.ok 0) s' ∧
      s'.world.heap = s.world.heap
  /-- with listeners an event is made, and then those that were listed at the start are called, and
  only they; this decides the result, whatever they do -/
  busy : ∀ depth r, 1 < s.budget → s.world.runtime = some r → l.has kind →
    ∃ event s₁ out, s.Announces r.event o kind event s₁ ∧
      Notifies (callFunction (depth + 1)) o event (l.forKind kind) s₁ out ∧
      perform (callFunction (depth + 1)) (.dispatch o kind) s =
        answered (l.forKind kind).length out
  /-- what a listener raises is not the result -/
  unraised : ∀ depth r x s', 1 < s.budget → s.world.runtime = some r →
    perform (callFunction (depth + 1)) (.dispatch o kind) s ≠ .ok (.error x) s'

theorem State.Announces.of_opened {s s₁ : State} {vs : List Value} {cls : ClassId}
    {o event : ObjectId} {kind : String} (hvs : ∀ v ∈ vs, s.world.isValid v)
    (h : (opened s vs).Announces cls o kind event s₁) : s.Announces cls o kind event s₁ where
  fresh := by
    rw [h.fresh, world_opened]
    exact Heap.length_cells_retainAll _ _
  steps := (steps_opened hvs).trans h.steps
  cls := h.cls
  type := h.type
  target := h.target
  others o' i hne hi := ((sameContents_opened s vs).instance? o').symm.trans (h.others o' i hne hi)
  listeners := by
    rw [h.listeners]
    unfold listeners?
    rw [(sameContents_opened s vs).instance? o, (sameClasses_opened s vs).classes]

theorem State.Reachable.dispatches {s : State} (h : s.Reachable) {o : ObjectId} {l : Listeners}
    (hl : s.world.listeners? o = some l) (kind : String) : s.Dispatches o l kind := by
  obtain ⟨hs, hst⟩ := h.sound
  obtain ⟨i, timer, hi, -, hbacking⟩ := World.exists_of_listeners? hl
  have hops : ∀ v ∈ (Op.dispatch o kind).operands, s.world.isValid v := isValid_receiver hi
  have hopened := steps_opened hops
  have hs₁ := hopened.sound hs
  have hl₁ : (opened s (Op.dispatch o kind).operands).world.listeners? o = some l := by
    unfold listeners?
    rw [(sameContents_opened s _).instance? o, (sameClasses_opened s _).classes]
    exact hl
  have hperform : ∀ call : Caller, 0 < s.budget → perform call (.dispatch o kind) s =
      closing (.dispatch o kind)
        (attempt (dispatch call o kind) (opened s (Op.dispatch o kind).operands)) :=
    fun call hb => perform_eq hb hops rfl
  have hbusy : ∀ depth r, 1 < s.budget → s.world.runtime = some r → l.has kind →
      ∃ event s₁ out, s.Announces r.event o kind event s₁ ∧
        Notifies (callFunction (depth + 1)) o event (l.forKind kind) s₁ out ∧
        perform (callFunction (depth + 1)) (.dispatch o kind) s =
          answered (l.forKind kind).length out := by
    intro depth r hb hr hk
    have hst₁ := hopened.staffed hst
    obtain ⟨event, s₁, out, hevent, hnotifies, hrun⟩ := dispatch_run hs₁ hst₁
      (Nat.sub_pos_of_lt hb) ((sameClasses_opened s _).runtime.trans hr)
      ((h.makesEvents r hr).later hst.toRegistered (hst.event r hr) hopened.later hs₁)
      (heldBy_opened s (List.mem_singleton_self _)) hl₁ hk depth
    refine ⟨event, s₁, out, hevent.of_opened hops, hnotifies, ?_⟩
    rw [hperform _ (Nat.lt_of_succ_lt hb)]
    cases out with
    | ok _ s₂ =>
      rw [attempt_of_ok hrun]
      rfl
    | error e s₂ =>
      cases e with
      | error x => exact absurd hnotifies Notifies.not_raised
      | abort _ | exhausted =>
        unfold attempt
        rw [hrun]
        rfl
  constructor
  case nodup => exact Listeners.nodup_forKind (h.registersOnce o i l timer hi hbacking) kind
  case none_iff => rw [List.length_eq_zero_iff, l.forKind_eq_nil_iff kind]
  case idle =>
    intro depth hb hk
    refine ⟨called (opened s (Op.dispatch o kind).operands), ?_, heap_closed hs hops⟩
    rw [hperform _ hb, attempt_of_ok (dispatch_idle hl₁ hk)]
    rfl
  case busy => exact hbusy
  case unraised =>
    intro depth r x s' hb hr hrun
    cases hk : l.has kind with
    | false =>
      rw [hperform _ (Nat.lt_of_succ_lt hb), attempt_of_ok (dispatch_idle hl₁ hk)] at hrun
      cases hrun
    | true =>
      obtain ⟨event, s₁, out, -, -, hout⟩ := hbusy depth r hb hr hk
      rw [hout] at hrun
      cases out with
      | ok _ s₂ => cases hrun
      | error e s₂ => cases hrun

def quarrel : Session :=
  .ask (.enter fun captured this _ =>
    match captured with
    | [.function f, .function g] =>
      .perform (.removeListener this "turn" f) fun _ =>
      .perform (.addListener this "turn" g) fun _ => .done .undefined
    | _ => .done .undefined) fun first =>
  .ask (.enter fun _ _ _ => .fail (.type "no")) fun second =>
  .ask (.enter fun _ this args =>
    .perform (.trace (.object this :: args)) fun _ => .done .undefined) fun third =>
  .ask (.perform .look) fun w =>
  .ask (.perform (.instantiate (w.runtime.elim 0 PlayerClasses.eventDispatcher) none)) fun o =>
  .ask (.perform (.newFunction "third" [] (.script third))) fun h =>
  .ask (.perform (.newFunction "second" [] (.script second))) fun g =>
  .ask (.perform (.newFunction "fourth" [] (.script third))) fun h' =>
  .ask (.perform (.newFunction "first" [.function h, .function h'] (.script first))) fun f =>
  .ask (.perform (.addListener o "turn" f)) fun _ =>
  .ask (.perform (.addListener o "turn" g)) fun _ =>
  .ask (.perform (.addListener o "turn" h)) fun _ =>
  .ask (.perform (.addListener o "turn" h)) fun _ =>
  .ask (.assign 0 (.object o)) fun _ => .done

theorem dispatches_quarrel :
    let start : State := ⟨(World.ofOptions .defaults 1).withPlaces 1, [], 99, []⟩
    let s : State := { start.afterRun (embed 3 quarrel) with budget := 99, interference := [] }
    let dispatch : Run (Except ScriptError Nat) := perform (callFunction 3) (.dispatch 21 "turn")
    s.Reachable ∧ (∃ s', dispatch s = .ok (.ok 3) s') ∧
      (s.afterRun dispatch).world.trace =
        [[.object 21 ⟨"flash.events", "EventDispatcher"⟩, .object 26 ⟨"flash.events", "Event"⟩]] ∧
      (s.afterRun dispatch).world.listeners? 21 =
        some ⟨[("turn", 25), ("turn", 23), ("turn", 24)]⟩ ∧
      s.world.listeners? 21 = some ⟨[("turn", 25), ("turn", 23), ("turn", 22)]⟩ ∧
      s.Dispatches 21 ⟨[("turn", 25), ("turn", 23), ("turn", 22)]⟩ "turn" :=
  have h : State.Reachable _ := .embed (.player .defaults 1 1 99 []) 3 quarrel 99 []
  ⟨h, exists_of_gives (α := Except ScriptError Nat) (by decide +kernel), by decide +kernel,
    by decide +kernel, by decide +kernel, State.Reachable.dispatches h (by decide +kernel) "turn"⟩

end ScriptPlayer
