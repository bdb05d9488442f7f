import ScriptPlayer.Proofs.Player.Requests
import ScriptPlayer.Proofs.Player.Setup
import ScriptPlayer.Proofs.Run.Leads

/-! Every state that a player can be in has a history. What an embedder asks for is done entry by
entry, and between its steps the event loop is idle; so what holds of all histories holds of all
that a player can do. -/
namespace ScriptPlayer

open World

namespace Run

variable {R : Loop → World → World → Prop} [Cumulative R] {loop : Loop}

theorem relates_native (b : Builtin) (s : State) : Relates (R loop) (native b) s :=
  relates_newFunction b.name [] (.builtin b) s

theorem relates_members (members : List (TraitKind × Builtin))
    (traits : List (TraitKind × QName × FunctionId)) (s : State) :
    Relates (R loop) (forIn members traits fun (kind, b) traits => do
      let f ← native b
      return .yield (traits ++ [(kind, QName.pub b.name, f)])) s := by
  induction members generalizing s traits with
  | nil => exact relates_pure _ _
  | cons e members ih =>
    rw [List.forIn_cons, bind_assoc]
    exact (relates_native e.2 s).bind fun f s₁ _ => ih _ s₁

theorem relates_registerBuiltins (c : BuiltinClass) (s : State) :
    Relates (R loop) (registerBuiltins c) s := by
  apply (relates_members c.members [] s).bind
  intro traits s₁ _
  dsimp only
  cases c.constructor? with
  | none => exact relates_registerClass _ s₁
  | some b =>
    dsimp only
    rw [map_eq_pure_bind, bind_assoc]
    exact (relates_native b s₁).bind fun f s₂ _ => relates_registerClass _ s₂

theorem relates_defineUtility (b : Builtin) (s : State) : Relates (R loop) (defineUtility b) s :=
  (relates_native b s).bind fun f _ _ =>
    relates_modifyWorld (Cumulative.change (.defineGlobal _ (.function f)))

theorem relates_setupCore (hstaff : ∀ (w : World) core, R loop w { w with core := core })
    (s : State) : Relates (R loop) setupCore s := by
  apply Relates.forEffect
  apply (relates_registerBuiltins _ _).bind
  intro object s₁ _
  apply (relates_registerBuiltins _ s₁).bind
  intro byteArray s₂ _
  apply (relates_registerBuiltins _ s₂).bind
  intro dictionary s₃ _
  apply (relates_registerBuiltins _ s₃).bind
  intro proxy s₄ _
  have hcore : Relates (R loop) (modifyWorld fun w =>
      { w with core := ⟨object, byteArray, dictionary, proxy⟩ }) s₄ := hstaff _ _
  apply hcore.bind
  intro _ s₅ _
  apply (relates_defineUtility _ s₅).bind
  intro _ s₆ _
  apply (relates_defineUtility _ s₆).bind
  intro _ s₇ _
  apply (relates_defineUtility _ s₇).bind
  intro _ s₈ _
  exact relates_defineUtility _ s₈

theorem relates_setupPlayer
    (hstaff : ∀ (w : World) runtime, R loop w { w with runtime := some runtime }) (s : State) :
    Relates (R loop) setupPlayer s := by
  apply Relates.forEffect
  apply relates_world_bind
  apply (relates_registerBuiltins _ _).bind
  intro event s₁ _
  apply (relates_registerBuiltins _ s₁).bind
  intro eventDispatcher s₂ _
  apply (relates_registerBuiltins _ s₂).bind
  intro timer s₃ _
  apply (relates_registerBuiltins _ s₃).bind
  intro displayObject s₄ _
  apply (relates_registerBuiltins _ s₄).bind
  intro netStream s₅ _
  apply (relates_registerBuiltins _ s₅).bind
  intro soundTransform s₆ _
  apply (relates_registerBuiltins _ s₆).bind
  intro video s₇ _
  exact hstaff s₇.world _

/-! Set-ups and the embedder's steps are stretches of history -/

theorem leads_setupCore (s : State) : Leads loop setupCore s :=
  relates_setupCore (R := fun loop w w' => w.LeadsTo loop w')
    (fun _ _ => Quiet.leadsTo (quiet_of_eq rfl rfl rfl)) s

theorem leads_setupPlayer (s : State) : Leads loop setupPlayer s :=
  relates_setupPlayer (R := fun loop w w' => w.LeadsTo loop w')
    (fun _ _ => Quiet.leadsTo (quiet_of_eq rfl rfl rfl)) s

theorem leads_embed (depth : Nat) (p : Session) (s : State) : Leads .idle (embed depth p) s :=
  relates_embed (R := fun loop w w' => w.LeadsTo loop w') depth p s

end Run

namespace World

theorem leadsTo_after {w : World} {m : Run Unit} {loop : Loop}
    (h : Run.Leads loop m ⟨w, [], 0, []⟩) : w.LeadsTo loop (w.after m) := by
  have hrun : Run.Relates (fun w w' => w.LeadsTo loop w') m ⟨w, [], 0, []⟩ := h
  unfold after
  cases hm : m ⟨w, [], 0, []⟩ with
  | ok _ s => exact hrun.of_ok hm
  | error _ s => exact hrun.of_error hm

theorem leadsTo_initial : World.blank.LeadsTo .idle .initial :=
  leadsTo_after (Run.leads_setupCore _)

theorem leadsTo_ofOptions (o : Options) (threads : Nat) :
    World.blank.LeadsTo .idle (.ofOptions o threads) := by
  have hquiet : World.initial.Quiet { World.initial with
      pool := .ofThreads threads
      minDelay := o.minDelay
      fallbackRate := o.fallbackRate } := quiet_of_eq rfl rfl rfl
  exact (leadsTo_initial.trans hquiet.leadsTo).trans (leadsTo_after (Run.leads_setupPlayer _))

theorem leadsTo_withPlaces (w : World) (n : Nat) : w.LeadsTo .idle (w.withPlaces n) := by
  have hquiet : w.Quiet (w.withPlaces n) := quiet_of_eq rfl rfl rfl
  exact hquiet.leadsTo

end World

theorem State.Reachable.leadsTo {s : State} (h : s.Reachable) :
    World.blank.LeadsTo .idle s.world := by
  induction h with
  | core places budget moves => exact leadsTo_initial.trans (leadsTo_withPlaces _ places)
  | player o threads places budget moves =>
    exact (leadsTo_ofOptions o threads).trans (leadsTo_withPlaces _ places)
  | embed h depth p budget moves ih => exact ih.trans (Run.leads_embed depth p _)

/-- Every state that can be reached has a history, and the event loop is idle then. -/
theorem State.Reachable.exists_history {s : State} (h : s.Reachable) :
    ∃ l, History l ⟨s.world, .idle⟩ := by
  obtain ⟨l, hl⟩ := h.leadsTo
  exact ⟨[] ++ l, (History.fresh untimed_blank).append hl⟩

end ScriptPlayer
