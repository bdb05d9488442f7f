import Mathlib.Order.Defs.Unbundled
import ScriptPlayer.Player.Clock

/-! What goes on in the background: what a worker can do in a move, and what follows from it for any
schedule. A relation that adds up and holds of every move of a worker and of the clock holds between
the worlds before and after all the moves, and across any wait. -/
namespace ScriptPlayer.World

variable {w w' : World}

def enter (w : World) (d : DecoderId) (phase : DecoderPhase) : World :=
  w.modifyDecoder d fun decoder => { decoder with phase := phase }

theorem stepDecoder_cases {d : DecoderId} (h : w.stepDecoder d = some w') :
    ∃ decoder, w.decoders[d]? = some decoder ∧
      ((decoder.phase ≠ .ticking ∧ ∃ phase, w' = w.enter d phase) ∨
      (decoder.phase = .ticking ∧ w' = (w.tick decoder.ticker).2.enter d .testing)) := by
  obtain ⟨decoder, hd, h⟩ := Option.bind_eq_some_iff.1 h
  refine ⟨decoder, hd, ?_⟩
  dsimp only at h
  split at h
  · rename_i hphase
    exact .inl ⟨by simp [hphase], _, (Option.some.inj h).symm⟩
  · rename_i hphase
    exact .inl ⟨by simp [hphase], _, (Option.some.inj h).symm⟩
  · rename_i hphase
    exact .inr ⟨hphase, (Option.some.inj h).symm⟩
  · cases h

/-- A move concerns the pool alone, or the run of a timer, or a decoder. -/
theorem move_cases {m : Move} (h : w.move m = some w') :
    (∃ pool, w' = { w with pool := pool }) ∨
    (∃ r c, w.clockwork.stepRun r = some c ∧ w' = { w with clockwork := c }) ∨
    ∃ d, w.stepDecoder d = some w' := by
  cases m with
  | start k =>
    obtain ⟨r, -, rfl⟩ := Option.map_eq_some_iff.1 h
    exact .inl ⟨_, rfl⟩
  | step k =>
    obtain ⟨job, -, h⟩ := Option.bind_eq_some_iff.1 h
    split at h
    · obtain ⟨pool, -, rfl⟩ := Option.map_eq_some_iff.1 h
      exact .inl ⟨pool, rfl⟩
    · cases job with
      | timer r =>
        obtain ⟨c, hc, rfl⟩ := Option.map_eq_some_iff.1 h
        exact .inr (.inl ⟨r, c, hc, rfl⟩)
      | decode d => exact .inr (.inr ⟨d, h⟩)

/-- A relation that adds up and holds of the moves of workers and of the clock. -/
class Background (R : World → World → Prop) : Prop extends IsPreorder World R where
  move {w w' : World} {m : Move} (h : w.move m = some w') : R w w'
  clock (w : World) (t : Nanos) : R w { w with clockwork := { w.clockwork with now := t } }

namespace Background

variable {R : World → World → Prop} [Background R]

theorem moveAll (w : World) (moves : List Move) : R w (w.moveAll moves) := by
  unfold World.moveAll
  induction moves generalizing w with
  | nil => exact refl_of R w
  | cons m moves ih =>
    rw [List.foldl_cons]
    cases h : w.move m with
    | none => exact ih w
    | some w' => exact trans_of R (move h) (ih w')

theorem sweep (w : World) : R w w.sweep.2 := by
  unfold World.sweep
  apply List.foldlRecOn (motive := fun r : Bool × World => R w r.2)
  · exact refl_of R w
  · intro r hr k _
    dsimp only
    split
    · rename_i w' hw'
      obtain ⟨m, -, hm⟩ := Option.bind_eq_some_iff.1 hw'
      exact trans_of R hr (move hm)
    · exact hr

theorem settleBy (fuel : Nat) (w : World) : R w (World.settleBy fuel w) := by
  induction fuel generalizing w with
  | zero => exact refl_of R w
  | succ fuel ih =>
    have hsweep : R w w.sweep.2 := sweep w
    unfold World.settleBy
    split
    · rename_i w' hw'
      rw [hw'] at hsweep
      exact trans_of R hsweep (ih w')
    · rename_i w' hw'
      rw [hw'] at hsweep
      exact hsweep

theorem settle (w : World) : R w w.settle := settleBy _ w

theorem setClock (w : World) (t : Nanos) : R w (w.setClock t) :=
  trans_of R (clock w _) (settle _)

theorem advance {among : Job → Bool} {deadline : Option Nanos}
    (h : w.advance? among deadline = some w') : R w w' := by
  obtain ⟨t, -, h⟩ := Option.bind_eq_some_iff.1 h
  split at h
  · cases h
  · obtain rfl := Option.some.inj h
    exact setClock w t

end Background

end ScriptPlayer.World
