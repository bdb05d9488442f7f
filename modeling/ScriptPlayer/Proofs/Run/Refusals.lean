import ScriptPlayer.Proofs.Run.Replies

/-! Which accesses are refused for want of an index. An access by a key may call a function, and
what the function does may be refused; the rules here tell such refusals from those of the access
itself. -/
namespace ScriptPlayer

open World

namespace Run

variable {α β : Type} {call : Caller} {s s' : State} {o : ObjectId} {i : Instance} {key : Key}

/-- The run aborts for want of an index only where a function that it calls has ended so. So it
never does if no function does. -/
def Spares (call : Caller) (m : Run α) (s : State) : Prop :=
  ∀ c s', m s = .error (.abort (.notIndexable c)) s' →
    ∃ f this args s₁, call f this args s₁ = .error (.abort (.notIndexable c)) s'

namespace Spares

variable {m : Run α}

theorem of_ok {a : α} (h : m s = .ok a s') : Spares call m s := by
  intro c s₂ he
  rw [h] at he
  cases he

theorem of_error {e : Halt} (h : m s = .error e s') (he : ∀ c, e ≠ .abort (.notIndexable c)) :
    Spares call m s := by
  intro c s₂ hm
  rw [h] at hm
  exact absurd (EStateM.Result.error.inj hm).1 (he c)

theorem congr {m' : Run α} (h : m s = m' s) (hm : Spares call m' s) : Spares call m s :=
  fun c s' he => hm c s' (h.symm.trans he)

theorem bind {k : α → Run β} (hm : Spares call m s)
    (hk : ∀ a s₁, m s = .ok a s₁ → Spares call (k a) s₁) : Spares call (m >>= k) s := by
  intro c s' h
  rcases cases_of_bind_error h with h | ⟨a, s₁, ha, h⟩
  · exact hm c s' h
  · exact hk a s₁ ha c s' h

theorem attempt (hm : Spares call m s) : Spares call (attempt m) s := by
  intro c s' h
  unfold Run.attempt at h
  cases hrun : m s with
  | ok a s₁ =>
    rw [hrun] at h
    cases h
  | error e s₁ =>
    rw [hrun] at h
    cases e with
    | error x => cases h
    | abort f =>
      cases h
      exact hm c _ hrun
    | exhausted => cases h

theorem framed {purpose : Purpose} {keep : α → List Value}
    (hm : Spares call m { s with world := s.world.pushFrame purpose }) :
    Spares call (framed purpose keep m) s := by
  intro c s' h
  unfold Run.framed at h
  cases hrun : m { s with world := s.world.pushFrame purpose } with
  | ok a s₁ =>
    rw [hrun] at h
    cases h
  | error e s₁ =>
    rw [hrun] at h
    cases e with
    | error x => cases h
    | abort f =>
      cases h
      exact hm c _ hrun
    | exhausted => cases h

theorem called (f : FunctionId) (this : ObjectId) (args : List Value) (s : State) :
    Spares call (call f this args) s :=
  fun _ _ h => ⟨f, this, args, s, h⟩

theorem hold (v : Value) (s : State) : Spares call (hold v) s := by
  by_cases hv : s.world.isValid v
  · exact of_ok (hold_run hv)
  · exact of_error (bind_of_error (requireValid_dangling hv) _) fun c => nofun

theorem holds (vs : List Value) (s : State) : Spares call (vs.forM Run.hold) s := by
  induction vs generalizing s with
  | nil => exact of_ok rfl
  | cons v vs ih => exact (hold v s).bind fun _ s₁ _ => ih s₁

theorem instanceOf (o : ObjectId) (s : State) : Spares call (instanceOf o) s := by
  cases hi : s.world.instance? o with
  | some i => exact of_ok (instanceOf_run hi)
  | none => exact of_error (instanceOf_dangling hi) fun c => nofun

theorem pulse (s : State) : Spares call pulse s := by
  rcases Nat.eq_zero_or_pos s.budget with hzero | hpos
  · have hrun : Run.pulse s = .error .exhausted s := by
      unfold Run.pulse
      rw [hzero]
    exact of_error hrun fun c => nofun
  · exact of_ok (pulse_run hpos)

theorem forEffect {m : Run α} (hm : ∀ s, Spares call m s) (s : State) :
    Spares call (forEffect m) s := by
  have hdiscard : ∀ s₁, Spares call (discard m) s₁ := fun s₁ =>
    ((hm s₁).bind (k := fun _ => pure ()) fun _ _ _ => of_ok rfl).congr rfl
  exact (hdiscard _).framed

theorem conclude (o : ObjectId) (found : Found) (s : State) :
    Spares call (conclude call o found) s := by
  cases found with
  | value v => exact (hold v s).bind fun _ _ _ => of_ok rfl
  | getter f => exact (called f o [] s).bind fun _ _ _ => of_ok rfl
  | absent => exact of_ok rfl

theorem getDefault (o : ObjectId) (name : QName) (s : State) :
    Spares call (getDefault call o name) s := by
  cases hi : s.world.instance? o with
  | none => exact of_error (bind_of_error (instanceOf_dangling hi) _) fun c => nofun
  | some i =>
    intro c s' h
    rw [getDefault_run hi] at h
    exact conclude o _ s c s' h

theorem setGuard (o : ObjectId) (active : Bool) (s : State) :
    Spares call (setGuard o active) s := by
  refine (instanceOf o s).bind fun i s₁ _ => ?_
  split <;> exact of_ok rfl

theorem guarded (o : ObjectId) {m : Run Value} (hm : ∀ s, Spares call m s) (s : State) :
    Spares call (guarded o m) s := by
  refine (setGuard o true s).bind fun _ s₁ _ => ?_
  refine (hm _).framed.attempt.bind fun reply s₂ _ => ?_
  cases reply with
  | ok v => exact (setGuard o false s₂).bind fun _ _ _ => of_ok rfl
  | error e =>
    exact (setGuard o false s₂).bind fun _ _ _ => of_error rfl fun c => nofun

theorem interceptGet (o : ObjectId) (key : Key) (s : State) :
    Spares call (interceptGet call o key) s := by
  refine (instanceOf o s).bind fun i s₁ _ => ?_
  split
  · refine (getDefault o overrideName s₁).bind fun found s₂ _ => ?_
    split
    · refine (of_ok (m := world) rfl).bind fun w s₃ _ => ?_
      exact (guarded o (called _ o _) s₃).bind fun _ _ _ => of_ok rfl
    · exact of_error rfl fun c => nofun
    · exact of_ok rfl
  · exact of_ok rfl

theorem operation {ops : List Value} {keep : α → List Value} {k : α → Run β}
    (hm : ∀ s₁, SameContents s.world s₁.world → Spares call m s₁)
    (hk : ∀ a s₁, Spares call (k a) s₁) :
    Spares call (do Run.pulse; k (← Run.framed .operation keep (do ops.forM Run.hold; m))) s := by
  refine (pulse s).bind fun _ s₁ hpulse => ?_
  obtain rfl := eq_pulsed hpulse
  refine ((holds ops _).bind fun _ s₂ hheld => hm s₂ ?_).framed.bind fun a s₃ _ => hk a s₃
  rw [holdAll_run (isValid_of_holds hheld)] at hheld
  obtain rfl := (EStateM.Result.ok.inj hheld).2
  exact sameContents_opened s ops

end Spares

end Run

end ScriptPlayer
