import ScriptPlayer.Player.Session
import ScriptPlayer.Proofs.Player.Setup

/-! Whatever an embedder does goes through steps, so what the steps keep holds in every state that
can be reached. -/
namespace ScriptPlayer

open World

namespace Run

variable {call : Caller} {s : State}

/-! Events -/

theorem ends_deliver (hcall : Calls call) (hs : s.world.Sound) (hst : s.world.Staffed)
    (target : TargetId) (kind : String) :
    Ends Gains (deliver call target kind) s fun _ _ => True := by
  apply ends_world_bind
  cases s.world.targets.lookup target with
  | none => exact ends_pure trivial
  | some o =>
    have hstep : Step s.world (s.world.pushFrame .operation) := .push rfl
    have hs' := hstep.sound hs
    have hbody : Ends Gains (do hold (.object o); dispatch call o kind)
        { s with world := s.world.pushFrame .operation } fun _ _ => True := by
      apply (ends_hold hs').bind hs'
      intro _ s₁ hst₁ hs₁ hg hv
      exact ends_dispatch hcall hs₁ (hst₁.staffed (hstep.staffed hst))
        (heldBy_of_inHand rfl hg hv.1) kind
    have hrun := ends_forEffect hs (hbody.weaken fun _ _ => Gains.reheld)
    exact hrun.attempt.bind hs fun _ _ _ _ _ _ => ends_pure trivial

theorem ends_handle (hcall : Calls call) (hs : s.world.Sound) (hst : s.world.Staffed) (e : Event) :
    Ends Gains (handle call e) s fun _ _ => True := by
  cases e with
  | dispatch target kind => exact ends_deliver hcall hs hst target kind
  | sync r =>
    have hrun : Ends Gains (modifyWorld fun w =>
        { w with clockwork := { w.clockwork with queue := w.clockwork.queue.signal r } }) s
        fun _ w => s.world.SameOwners w := ends_background ⟨rfl, rfl, rfl, rfl, rfl, rfl, rfl⟩
    exact hrun.imp fun _ _ _ _ _ => trivial
  | retire target =>
    have hstep : Step s.world
        (s.world.putTargets (s.world.targets.filter fun e => e.1 != target)) :=
      .retarget fun e he => Or.inl (List.mem_of_mem_filter he)
    exact ⟨hstep.steps, .same _, trivial⟩

theorem ends_takeEvent : Ends Gains takeEvent s fun _ _ => True :=
  ends_updateWorld (.background ⟨rfl, rfl, rfl, rfl, rfl, rfl, rfl⟩) (.same _) trivial

theorem ends_pump (hcall : Calls call) (fuel : Nat) (hs : s.world.Sound) (hst : s.world.Staffed) :
    Ends Gains (pump call fuel) s fun _ _ => True := by
  induction fuel generalizing s with
  | zero => exact ends_throw _
  | succ fuel ih =>
    apply ends_pulse.bind hs
    intro _ s₁ hst₁ hs₁ _ _
    apply ends_takeEvent.bind hs₁
    intro e s₂ hst₂ hs₂ _ _
    have hstaff₂ := hst₂.staffed (hst₁.staffed hst)
    cases e with
    | none => exact ends_pure trivial
    | some e =>
      apply (ends_handle hcall hs₂ hstaff₂ e).bind hs₂
      intro _ s₃ hst₃ hs₃ _ _
      exact (ih hs₃ (hst₃.staffed hstaff₂)).bind hs₃ fun _ _ _ _ _ _ => ends_pure trivial

/-! Waiting -/

theorem ends_settle : Ends Gains settle s fun _ _ => True :=
  (ends_background (Background.settle _)).imp fun _ _ _ _ _ => trivial

theorem ends_awaitEvents (wanted : Nat) (deadline : Option Nanos) (fuel : Nat)
    (hs : s.world.Sound) : Ends Gains (awaitEvents wanted deadline fuel) s fun _ _ => True := by
  induction fuel generalizing s with
  | zero => exact ends_throw _
  | succ fuel ih =>
    apply ends_world_bind
    split
    · exact ends_pure trivial
    · split
      · rename_i w hw
        have hown : s.world.SameOwners w := Background.advance hw
        have hrun : Ends Gains (modifyWorld fun _ => w) s fun _ w => s.world.SameOwners w :=
          ends_background hown
        exact hrun.bind hs fun _ s₁ _ hs₁ _ _ => ih hs₁
      · have hrun : Ends Gains (modifyWorld fun w => w.setClock (deadline.getD 0)) s
            fun _ w => s.world.SameOwners w := ends_background (Background.setClock _ _)
        exact hrun.bind hs fun _ _ _ _ _ _ => ends_pure trivial

theorem ends_await (wanted : Nat) (deadline : Option Nanos) (fuel : Nat) (hs : s.world.Sound) :
    Ends Gains (await wanted deadline fuel) s fun _ _ => True :=
  ends_settle.bind hs fun _ _ _ hs₁ _ _ => ends_awaitEvents wanted deadline fuel hs₁

theorem ends_pumpTimeout (hcall : Calls call) (hs : s.world.Sound) (hst : s.world.Staffed)
    (span : Nanos) (fuel : Nat) : Ends Gains (pumpTimeout call span fuel) s fun _ _ => True := by
  apply ends_reads_bind (reads_world.bind fun _ => reads_pure _)
  intro deadline _
  apply (ends_await 1 deadline fuel hs).bind hs
  intro came s₁ hst₁ hs₁ _ _
  split
  · exact ends_pump hcall fuel hs₁ (hst₁.staffed hst)
  · exact ends_pure trivial

theorem ends_pumpUntil (hcall : Calls call) (deadline : Option Nanos) (done : World → Bool)
    (fuel : Nat) (hs : s.world.Sound) (hst : s.world.Staffed) :
    Ends Gains (pumpUntil call deadline done fuel) s fun _ _ => True := by
  induction fuel generalizing s with
  | zero => exact ends_throw _
  | succ fuel ih =>
    apply ends_world_bind
    split
    · exact ends_pure trivial
    · apply (ends_await 1 deadline (fuel + 1) hs).bind hs
      intro came s₁ hst₁ hs₁ _ _
      have hstaff₁ := hst₁.staffed hst
      split
      · apply ((ends_pump hcall (fuel + 1) hs₁ hstaff₁).discard hs₁).bind hs₁
        intro _ s₂ hst₂ hs₂ _ _
        exact ih hs₂ (hst₂.staffed hstaff₁)
      · apply ends_world_bind
        exact ends_pure trivial

theorem ends_waitPending (hs : s.world.Sound) (wanted fuel : Nat) :
    Ends Gains (waitPending wanted fuel) s fun _ _ => True := by
  apply ((ends_await wanted none fuel hs).discard hs).bind hs
  intro _ s₁ _ _ _ _
  apply ends_world_bind
  exact ends_pure trivial

/-! Videos -/

theorem ends_renderVideo (hs : s.world.Sound) (o : ObjectId) :
    Ends Gains (renderVideo o) s fun _ _ => True := by
  apply (ends_render hs o).bind hs
  intro outcome s₁ _ hs₁ _ _
  apply ends_reads_bind ((reads_videoOf o).bind fun _ => reads_pure _)
  intro ticker _
  split
  · rename_i interval ticker _
    have hrun : Ends Gains (modifyWorld (·.submitDecoder ticker interval)) s₁ fun _ w =>
        s₁.world.SameOwners w := ends_background ⟨rfl, rfl, rfl, rfl, rfl, rfl, rfl⟩
    exact hrun.bind hs₁ fun _ _ _ _ _ _ => ends_pure trivial
  · exact ends_pure trivial

theorem ends_renderUntil (o : ObjectId) (byte : UInt8) (fuel : Nat) (hs : s.world.Sound) :
    Ends Gains (renderUntil o byte fuel) s fun _ _ => True := by
  induction fuel generalizing s with
  | zero => exact ends_throw _
  | succ fuel ih =>
    apply ((ends_renderVideo hs o).discard hs).bind hs
    intro _ s₁ _ hs₁ _ _
    apply ends_reads_bind (reads_videoOf o)
    intro video _
    split
    · exact ends_pure trivial
    · apply ends_settle.bind hs₁
      intro _ s₂ _ hs₂ _ _
      apply ends_world_bind
      split
      · rename_i w hw
        have hrun : Ends Gains (modifyWorld fun _ => w) s₂ fun _ w => s₂.world.SameOwners w :=
          ends_background (Background.advance hw)
        exact hrun.bind hs₂ fun _ s₃ _ hs₃ _ _ => ih hs₃
      · exact ends_pure trivial

/-! Requests. Putting a value into a place changes the outermost frame, so only what the frames are
for stays the same. -/

/-- The same frames are open. -/
def SamePurposes (fs fs' : List Frame) : Prop := fs'.map Frame.purpose = fs.map Frame.purpose

instance : IsPreorder (List Frame) SamePurposes where
  refl _ := rfl
  trans _ _ _ h h' := h'.trans h

theorem ends_answer (hcall : Calls call) (hs : s.world.Sound) (hst : s.world.Staffed)
    (r : Request) : Ends SamePurposes (answer call r) s fun _ _ => True := by
  have hgains : ∀ {α : Type} {m : Run α} {Q : α → World → Prop}, Ends Gains m s Q →
      Ends SamePurposes m s fun _ _ => True :=
    fun h => (h.weaken fun _ _ hg => hg.reheld.purposes).imp fun _ _ _ _ _ => trivial
  cases r with
  | perform op =>
    exact ((ends_perform hcall hs hst op).weaken fun _ _ hr => hr.purposes).imp
      fun _ _ _ _ _ => trivial
  | assign place v =>
    apply ends_requireValid_bind
    intro hv
    exact ⟨(Step.assign place hv).steps, purposes_assign s.world place v, trivial⟩
  | enter body => exact ⟨.refl _, rfl, trivial⟩
  | newSource source =>
    have hown : s.world.SameOwners (s.world.newSource source).2 :=
      ⟨rfl, rfl, rfl, rfl, rfl, rfl, rfl⟩
    exact ⟨(Step.background hown).steps, rfl, trivial⟩
  | settle => exact hgains ends_settle
  | pump fuel => exact hgains (ends_pump hcall fuel hs hst)
  | pumpTimeout span fuel => exact hgains (ends_pumpTimeout hcall hs hst span fuel)
  | pumpUntil deadline done fuel => exact hgains (ends_pumpUntil hcall deadline done fuel hs hst)
  | waitPending wanted fuel => exact hgains (ends_waitPending hs wanted fuel)
  | renderVideo o => exact hgains (ends_renderVideo hs o)
  | renderUntil o byte fuel => exact hgains (ends_renderUntil o byte fuel hs)

theorem ends_converse (hcall : Calls call) (p : Session) (hs : s.world.Sound)
    (hst : s.world.Staffed) : Ends SamePurposes (converse call p) s fun _ _ => True := by
  induction p generalizing s with
  | done => exact ends_pure trivial
  | stop h => exact ends_throw _
  | ask r next ih =>
    apply (ends_answer hcall hs hst r).bind hs
    intro reply s₁ hst₁ hs₁ _ _
    exact ih reply hs₁ (hst₁.staffed hst)

theorem steps_embed (hs : s.world.Sound) (hst : s.world.Staffed) (depth : Nat) (p : Session) :
    Steps s.world (s.afterRun (embed depth p)).world := by
  have hpush : Step s.world (s.world.pushFrame .operation) := .push rfl
  have hrun := ends_converse (s := { s with world := s.world.pushFrame .operation })
    (calls_callFunction depth) p (hpush.sound hs) (hpush.staffed hst)
  -- the frame of the step is open again on top of the embedder's, so closing it is a step
  have hpop : ∀ s' : State, SamePurposes (s.world.pushFrame .operation).frames s'.world.frames →
      Step s'.world (s'.world.popFrame []) := by
    intro s' hf
    obtain ⟨f, rest, hframes⟩ := hs.exists_frame
    have hf : s'.world.frames.map Frame.purpose =
        .operation :: f.purpose :: rest.map Frame.purpose := by
      rw [hf, pushFrame, hframes]
      rfl
    obtain ⟨g, gs, hg, hp, hgs⟩ := List.map_eq_cons_iff.1 hf
    obtain ⟨below, rest', rfl, -, -⟩ := List.map_eq_cons_iff.1 hgs
    exact .pop hg (by rw [hp]; rfl) fun v hv => absurd hv List.not_mem_nil
  unfold State.afterRun embed framed
  cases hm : converse (callFunction depth) p { s with world := s.world.pushFrame .operation } with
  | ok a s' =>
    obtain ⟨hsteps, hsame, -⟩ := hrun.of_ok hm
    exact (hpush.steps.trans hsteps).tail (hpop s' hsame)
  | error e s' =>
    obtain ⟨hsteps, hsame⟩ := hrun.of_error hm
    cases e with
    | error x => exact (hpush.steps.trans hsteps).tail (hpop s' (hsame x rfl))
    | abort f => exact hpush.steps.trans hsteps
    | exhausted => exact hpush.steps.trans hsteps

end Run

namespace World

/-- The embedder's places are empty at first. -/
theorem Initial.sound_withPlaces {w : World} (h : w.Initial) (n : Nat) :
    (w.withPlaces n).Sound := by
  obtain ⟨hheap, hguards, -, -⟩ := h.sound
  have hplaces : ∀ v ∈ List.replicate n Value.undefined, v = .undefined :=
    fun v hv => (List.mem_replicate.1 hv).2
  refine ⟨?_, fun o => ?_, ⟨by rintro o ⟨⟩, trivial⟩, ⟨_, rfl, rfl⟩⟩
  · apply hheap.outside_congr
    · intro id
      have hrefs : refs id (List.replicate n Value.undefined) = 0 :=
        refs_eq_zero_iff.2 fun v hv => by rw [hplaces v hv]; simp [Value.cell?]
      simp [roots, withPlaces, h.frames, hrefs]
    · intro v hv
      by_cases hmem : v ∈ w.roots
      · exact hheap.refers_outside hmem
      · have hv : v ∈ List.replicate n Value.undefined := by
          simp only [roots, withPlaces, h.frames, List.flatMap_cons, List.flatMap_nil,
            List.append_nil, List.mem_append] at hv hmem
          tauto
        rw [hplaces v hv]
        trivial
  · have hcalls := hguards o
    rw [overrideCalls, h.frames] at hcalls
    exact hcalls

theorem Initial.staffed_withPlaces {w : World} (h : w.Initial) (n : Nat) :
    (w.withPlaces n).Staffed :=
  ⟨⟨h.staffed.classes, h.staffed.instances⟩, h.staffed.object, h.staffed.event⟩

end World

/-- In every state that can be reached the counts are exact, guards match calls, and classes in use
are registered. -/
theorem State.Reachable.sound {s : State} (h : s.Reachable) : s.world.Sound ∧ s.world.Staffed := by
  induction h with
  | core places budget moves =>
    exact ⟨initial_initial.sound_withPlaces places, initial_initial.staffed_withPlaces places⟩
  | player o threads places budget moves =>
    exact ⟨(initial_ofOptions o threads).sound_withPlaces places,
      (initial_ofOptions o threads).staffed_withPlaces places⟩
  | embed h depth p budget moves ih =>
    have hst := Run.steps_embed ih.1 ih.2 depth p
    exact ⟨hst.sound ih.1, hst.staffed ih.2⟩

end ScriptPlayer
