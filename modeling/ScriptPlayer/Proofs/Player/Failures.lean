import ScriptPlayer.Proofs.Player.Definitions
import ScriptPlayer.Proofs.Run.Unaided

/-! Operations that fail change nothing. An error that the player raises by itself comes before
anything has been stored, and whatever the operation has taken by then it gives up again. -/
namespace ScriptPlayer

open World Run

variable {s : State}

/-- When an operation that has run no function of a script ends with an error, every cell is there
with what it held and with its count, and the frames, classes, globals and timers kept alive are the
same; no workers' state has changed but by their own moves. So the counts go on to be those that
they would be had the handles that were passed merely been given up. -/
theorem State.Reachable.unharmed_of_error (h : s.Reachable) {depth : Nat} {op : Op}
    {reply : op.Reply} {s' : State} {e : ScriptError}
    (hrun : perform (callFunction depth) op s = .ok reply s')
    (he : op.error? reply = some e) (hunaided : isUnaided op s) :
    s.world.Unharmed s'.world ∧ ∀ vs id,
      (s'.world.letGoAll vs).heap.get? id = (s.world.letGoAll vs).heap.get? id := by
  obtain ⟨hs, hst⟩ := h.sound
  have hends := ends_perform (calls_callFunction depth) hs hst op
  have hs' : s'.world.Sound := (hends.of_ok hrun).1.sound hs
  have hunharmed := unharmed_of_refusing hs (perform_refusing hunaided hrun) he hs'
  exact ⟨hunharmed, get?_letGoAll_congr hunharmed.cells hunharmed.frames⟩

def startOne : Session :=
  .ask (.perform .look) fun w =>
  .ask (.perform (.construct (w.runtime.elim 0 PlayerClasses.timer) none [.int 5])) fun r =>
  match r with
  | .error _ => .done
  | .ok o =>
    .ask (.perform (.callMethod o (QName.pub "start") [])) fun _ =>
    .ask (.assign 0 (.object o)) fun _ => .done

/-- No timer has a negative delay. The instance that was to be one is gone again, with the functions
that were made for it. -/
theorem unharmed_negativeDelay :
    let start : State := ⟨(World.ofOptions .defaults 1).withPlaces 1, [], 99, []⟩
    let s : State := { start.afterRun (embed 3 startOne) with budget := 99, interference := [] }
    let timer : ClassId := s.world.runtime.elim 0 PlayerClasses.timer
    let make : Run (Except ScriptError ObjectId) :=
      perform (callFunction 3) (.construct timer none [.int (-1)])
    s.Reachable ∧ s.world.heap.cells.length < (s.afterRun make).world.heap.cells.length ∧
      ∃ s', make s = .ok (.error (.badDelay "-1")) s' ∧ s.world.Unharmed s'.world ∧ ∀ vs id,
        (s'.world.letGoAll vs).heap.get? id = (s.world.letGoAll vs).heap.get? id := by
  intro start s timer make
  have h : s.Reachable := .embed (.player .defaults 1 1 99 []) 3 startOne 99 []
  obtain ⟨s', hmake⟩ : ∃ s', make s = .ok (.error (.badDelay "-1")) s' :=
    exists_of_gives (by decide +kernel)
  exact ⟨h, by decide +kernel, s', hmake,
    State.Reachable.unharmed_of_error h hmake rfl (by decide +kernel)⟩

end ScriptPlayer
