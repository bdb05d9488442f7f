import ScriptPlayer.Player.Session
import ScriptPlayer.Proofs.Timer.History
import ScriptPlayer.Proofs.World.Background

/-! What a run does to the world, change by change. A relation that adds up and holds of every
change holds between the world that a run finds and the one that it leaves, whether the run returns,
fails or is cut off; so what is to be said of whole runs is shown of single changes. -/
namespace ScriptPlayer

namespace World

/-- The changes that runs are made of. -/
inductive Change (w : World) : World → Prop
  | hold (v : Value) : Change w (w.hold v)
  | letGo (v : Value) : Change w (w.letGo v)
  | push (p : Purpose) : Change w (w.pushFrame p)
  | pop (keep : List Value) : Change w (w.popFrame keep)
  | assign (place : Nat) (v : Value) : Change w (w.assign place v)
  | trace (items : List Snapshot) : Change w { w with trace := items :: w.trace }
  | defineGlobal (name : QName) (v : Value) : Change w (w.defineGlobal name v)
  | registerClass {d : ClassDecl} {c : ClassId} {w' : World}
      (h : w.registerClass d = .ok (c, w')) : Change w w'
  | newFunction (f : Function) : Change w (w.newFunction f).2
  | spawn (cls : ClassId) (spec : BackingSpec) : Change w (w.spawn cls spec).2
  /-- an instance that stays the timer that it was, or none -/
  | put {o : ObjectId} {i j : Instance} (hi : w.instance? o = some i)
      (hj : j.timer? = i.timer?) : Change w (w.putInstance o j)
  | screen (i : ScreenId) (screen : Screen) : Change w (w.setScreen i screen)
  | newSource (source : FrameSource) : Change w (w.newSource source).2
  | setSource (i : SourceId) (source : FrameSource) : Change w (w.setSource i source)
  | tick (t : Ticker) : Change w (w.tick t).2
  | submitDecoder (t : Ticker) (interval : Nanos) : Change w (w.submitDecoder t interval)
  | move {m : Move} {w' : World} (h : w.move m = some w') : Change w w'
  | clock (t : Nanos) : Change w { w with clockwork := { w.clockwork with now := t } }
  | initTimer {o : ObjectId} {args : List Value} {s s' : State} (hs : s.world = w)
      (h : Run.initTimer o args s = .ok () s') : Change w s'.world
  | setTimerDelay {o : ObjectId} {args : List Value} {s s' : State} (hs : s.world = w)
      (h : Run.setTimerDelay o args s = .ok () s') : Change w s'.world
  | startTimer {o : ObjectId} {s s' : State} (hs : s.world = w)
      (h : Run.startTimer o s = .ok () s') : Change w s'.world
  | stopTimer {o : ObjectId} {s s' : State} (hs : s.world = w)
      (h : Run.stopTimer o s = .ok () s') : Change w s'.world
  | resetTimer {o : ObjectId} {s s' : State} (hs : s.world = w)
      (h : Run.resetTimer o s = .ok () s') : Change w s'.world

/-- A relation between worlds, for each thing that the event loop may be at, that adds up and holds
of every change and of an event that is taken and handled. -/
class Cumulative (R : Loop → World → World → Prop) : Prop where
  preorder (loop : Loop) : IsPreorder World (R loop)
  change {loop : Loop} {w w' : World} (h : w.Change w') : R loop w w'
  /-- whatever comes of the dispatch that the loop has taken -/
  dispatch {r : RunId} {kind : String} {s s' : State} {w : World}
      (htake : Run.takeEvent s = .ok (some (.dispatch r kind)) s')
      (h : R (.handling (.dispatch r kind)) s'.world w) : R .idle s.world w
  handle {e : Event} {call : Caller} {s s' s'' : State} (he : ∀ r kind, e ≠ .dispatch r kind)
      (htake : Run.takeEvent s = .ok (some e) s') (h : Run.handle call e s' = .ok () s'') :
      R .idle s.world s''.world

attribute [instance] Cumulative.preorder

instance {R : Loop → World → World → Prop} [Cumulative R] (loop : Loop) : Background (R loop) where
  move h := Cumulative.change (.move h)
  clock _ t := Cumulative.change (.clock t)

end World

open World

namespace Run

variable {α β : Type} {m : Run α} {s : State}

/-- A relation between the world that a run finds and the one that it leaves, however it ends. -/
def Relates (R : World → World → Prop) (m : Run α) (s : State) : Prop :=
  R s.world (s.afterRun m).world

section Preorder

variable {R : World → World → Prop}

theorem Relates.of_ok (h : Relates R m s) {a : α} {s' : State} (hm : m s = .ok a s') :
    R s.world s'.world := by
  unfold Relates State.afterRun at h
  rwa [hm] at h

theorem Relates.of_error (h : Relates R m s) {e : Halt} {s' : State} (hm : m s = .error e s') :
    R s.world s'.world := by
  unfold Relates State.afterRun at h
  rwa [hm] at h

theorem relates_of_ends (hok : ∀ a s', m s = .ok a s' → R s.world s'.world)
    (herror : ∀ e s', m s = .error e s' → R s.world s'.world) : Relates R m s := by
  unfold Relates State.afterRun
  cases hm : m s with
  | ok a s' => exact hok a s' hm
  | error e s' => exact herror e s' hm

theorem relates_world_bind {k : World → Run β} (h : Relates R (k s.world) s) :
    Relates R (world >>= k) s := h

theorem relates_modifyWorld {f : World → World} (h : R s.world (f s.world)) :
    Relates R (modifyWorld f) s := h

theorem relates_updateWorld {f : World → α × World} (h : R s.world (f s.world).2) :
    Relates R (updateWorld f) s := h

theorem Relates.attempt (h : Relates R m s) : Relates R (attempt m) s := by
  unfold Relates State.afterRun Run.attempt
  cases hm : m s with
  | ok a s' => exact h.of_ok hm
  | error e s' =>
    cases e with
    | error e | abort f | exhausted => exact h.of_error hm

variable [IsPreorder World R]

theorem relates_pure (a : α) (s : State) : Relates R (pure a) s := refl_of R _

theorem relates_throw (e : Halt) (s : State) : Relates R (throw e : Run α) s := refl_of R _

theorem relates_of_bind {w : World} {k : α → Run β} (h : R w (s.afterRun m).world)
    (hk : ∀ a s', m s = .ok a s' → Relates R (k a) s') : R w (s.afterRun (m >>= k)).world := by
  unfold State.afterRun at h
  cases hm : m s with
  | ok a s' =>
    rw [hm] at h
    have hrest : R s'.world (s'.afterRun (k a)).world := hk a s' hm
    unfold State.afterRun at hrest ⊢
    rw [bind_of_ok hm]
    exact trans_of R h hrest
  | error e s' =>
    rw [hm] at h
    unfold State.afterRun
    rw [bind_of_error hm]
    exact h

theorem Relates.bind {k : α → Run β} (h : Relates R m s)
    (hk : ∀ a s', m s = .ok a s' → Relates R (k a) s') : Relates R (m >>= k) s :=
  relates_of_bind h hk

theorem Relates.discard (h : Relates R m s) : Relates R (discard m) s :=
  h.bind fun _ _ _ => relates_pure _ _

theorem relates_of_reads (hm : Reads m) (s : State) : Relates R m s := by
  refine relates_of_ends (fun a s' hs => ?_) fun e s' hs => ?_
  all_goals
    have hr := hm s
    rw [hs] at hr
    obtain rfl : s' = s := hr
    exact refl_of R _

theorem relates_reads_bind {k : α → Run β} (hm : Reads m)
    (h : ∀ a, m s = .ok a s → Relates R (k a) s) : Relates R (m >>= k) s := by
  refine (relates_of_reads hm s).bind fun a s' hs => ?_
  obtain rfl := hm.eq_of_ok hs
  exact h a hs

theorem relates_instanceOf_bind {o : ObjectId} {k : Instance → Run β}
    (h : ∀ i, s.world.instance? o = some i → Relates R (k i) s) :
    Relates R (instanceOf o >>= k) s := by
  refine relates_reads_bind (reads_instanceOf o) fun i hi => ?_
  cases hw : s.world.instance? o with
  | none =>
    rw [instanceOf_dangling hw] at hi
    cases hi
  | some i' =>
    rw [instanceOf_run hw] at hi
    obtain rfl := (EStateM.Result.ok.inj hi).1
    exact h i' hw

theorem relates_ofExcept_bind {ε γ : Type} {lift : Except ε γ → Run γ}
    (hok : ∀ a, lift (.ok a) = pure a) (herror : ∀ e, ∃ h : Halt, lift (.error e) = throw h)
    {r : Except ε γ} {k : γ → Run β} (h : ∀ a, r = .ok a → Relates R (k a) s) :
    Relates R (lift r >>= k) s := by
  cases r with
  | ok a =>
    rw [hok]
    exact h a rfl
  | error e =>
    obtain ⟨x, hx⟩ := herror e
    rw [hx]
    exact refl_of R _

theorem relates_ofFatal_bind {r : Except Fatal α} {k : α → Run β}
    (h : ∀ a, r = .ok a → Relates R (k a) s) : Relates R (ofFatal r >>= k) s :=
  relates_ofExcept_bind (fun _ => rfl) (fun f => ⟨.abort f, rfl⟩) h

theorem relates_ofHalt_bind {r : Except Halt α} {k : α → Run β}
    (h : ∀ a, r = .ok a → Relates R (k a) s) : Relates R (ofHalt r >>= k) s :=
  relates_ofExcept_bind (fun _ => rfl) (fun e => ⟨e, rfl⟩) h

theorem relates_forM {l : List α} {f : α → Run Unit} (hf : ∀ a ∈ l, ∀ s, Relates R (f a) s)
    (s : State) : Relates R (l.forM f) s := by
  induction l generalizing s with
  | nil => exact relates_pure _ s
  | cons a l ih =>
    change Relates R (f a >>= fun _ => l.forM f) s
    exact (hf a List.mem_cons_self s).bind fun _ s' _ =>
      ih (fun b hb => hf b (List.mem_cons_of_mem a hb)) s'

end Preorder

section Changes

variable {R : Loop → World → World → Prop} [Cumulative R] {loop : Loop}

theorem Relates.framed {p : Purpose} {keep : α → List Value}
    (h : Relates (R loop) m { s with world := s.world.pushFrame p }) :
    Relates (R loop) (framed p keep m) s := by
  have hpush : R loop s.world (s.world.pushFrame p) := Cumulative.change (.push p)
  have hpop (w : World) (vs : List Value) : R loop w (w.popFrame vs) := Cumulative.change (.pop vs)
  unfold Relates State.afterRun Run.framed
  cases hm : m { s with world := s.world.pushFrame p } with
  | ok a s' => exact trans_of (R loop) (trans_of (R loop) hpush (h.of_ok hm)) (hpop _ _)
  | error e s' =>
    have hrun := trans_of (R loop) hpush (h.of_error hm)
    cases e with
    | error e => exact trans_of (R loop) hrun (hpop _ _)
    | abort f | exhausted => exact hrun

theorem Relates.forEffect
    (h : Relates (R loop) m { s with world := s.world.pushFrame .operation }) :
    Relates (R loop) (forEffect m) s :=
  h.discard.framed

theorem reads_requireValid (v : Value) : Reads (requireValid v) := by
  apply reads_world.bind
  intro w
  split
  · exact reads_pure _
  · exact reads_throw _

theorem relates_hold (v : Value) (s : State) : Relates (R loop) (hold v) s :=
  relates_reads_bind (reads_requireValid v) fun _ _ =>
    relates_modifyWorld (Cumulative.change (.hold v))

theorem relates_holdAll (vs : List Value) (s : State) : Relates (R loop) (vs.forM hold) s :=
  relates_forM (fun v _ => relates_hold v) s

theorem relates_pulse (s : State) : Relates (R loop) pulse s := by
  unfold Relates State.afterRun pulse
  cases s.budget with
  | zero => exact refl_of (R loop) _
  | succ budget => exact Background.moveAll _ _

end Changes

end Run

end ScriptPlayer
