import ScriptPlayer.Proofs.Player.Accounts
import ScriptPlayer.Proofs.Run.Copies

/-! Copies of bytes in every reachable state: what they deliver, when they abort, that they can be
split, and that a script's method copies as the player does. -/
namespace ScriptPlayer

open Run

def World.IsFreshArray (w : World) (o : ObjectId) : Prop :=
  ∃ d, w.bytes? o = some d ∧ d.bytes = none

/-- What copies from an array with the storage `b` do. -/
structure ByteCopies (depth : Nat) (s : State) (source : ObjectId) (i : Instance)
    (b : ByteBuffer) : Prop where
  /-- The target may be the source itself. -/
  copies : ∀ dest j d n, s.world.instance? dest = some j → j.backing = .bytes d →
    b.position + n ≤ b.length → d.Fits n →
    ∃ s', perform (callFunction depth) (.copyBytes source dest 0 n) s = .ok () s' ∧
      s.world.Copies s'.world source dest i j b d n
  short : ∀ dest j d n, s.world.instance? dest = some j → j.backing = .bytes d →
    b.length < b.position + n →
    ∃ s', perform (callFunction depth) (.copyBytes source dest 0 n) s =
      .error (.abort .sliceRange) s' ∧ SameContents s.world s'.world
  narrow : ∀ dest j d n, s.world.instance? dest = some j → j.backing = .bytes d →
    b.position + n ≤ b.length → ¬d.Fits n →
    ∃ s', perform (callFunction depth) (.copyBytes source dest 0 n) s =
      .error (.abort (.bufferTooSmall d.length n)) s'
  /-- Two parts bring what the whole brings. -/
  parts : ∀ x y z n m, s.world.IsFreshArray x → s.world.IsFreshArray y →
    s.world.IsFreshArray z → x ≠ y → source ≠ x → source ≠ y → source ≠ z → 1 < s.budget →
    b.position + (n + m) ≤ b.length →
    ∃ s₁ s₂ s₃ first second whole,
      perform (callFunction depth) (.copyBytes source x 0 n) s = .ok () s₁ ∧
      perform (callFunction depth) (.copyBytes source y 0 m) s₁ = .ok () s₂ ∧
      perform (callFunction depth) (.copyBytes source z 0 (n + m)) s = .ok () s₃ ∧
      s₂.world.bytes? x = some first ∧ s₂.world.bytes? y = some second ∧
      s₃.world.bytes? z = some whole ∧ first.toList ++ second.toList = whole.toList ∧
      s₂.world.instance? source = s₃.world.instance? source ∧
      s₃.world.bytes? source = some (b.setPosition (b.position + (n + m)))
  /-- Nor do the parts come through where the whole does not. -/
  parts_short : ∀ x y n m, s.world.IsFreshArray x → s.world.IsFreshArray y → x ≠ y →
    source ≠ x → source ≠ y → 1 < s.budget → b.length < b.position + (n + m) →
    ∀ s₁, perform (callFunction depth) (.copyBytes source x 0 n) s = .ok () s₁ →
      ∃ s₂, perform (callFunction depth) (.copyBytes source y 0 m) s₁ =
        .error (.abort .sliceRange) s₂
  /-- A script reads bytes just as the player copies them. -/
  method : ∀ dest d name f v₁ v₂ more n, s.world.bytes? dest = some d →
    s.world.HasMethod source name f .readBytes →
    (∀ v ∈ Value.object dest :: v₁ :: v₂ :: more, s.world.isValid v) → v₁.toInt = 0 →
    0 ≤ v₂.toInt → v₂.toInt.toInt.toNat = n → 1 < s.budget →
    (∃ s₁ s₂, perform (callFunction depth) (.copyBytes source dest 0 n) s = .ok () s₁ ∧
      perform (callFunction (depth + 1))
        (.callMethod source name (.object dest :: v₁ :: v₂ :: more)) s =
          .ok (Except.ok Value.undefined) s₂ ∧ s₂.world.heap = s₁.world.heap) ∨
    ∃ e s₁ s₂, perform (callFunction depth) (.copyBytes source dest 0 n) s =
        .error (.abort e) s₁ ∧
      perform (callFunction (depth + 1))
        (.callMethod source name (.object dest :: v₁ :: v₂ :: more)) s = .error (.abort e) s₂

namespace Run

variable {call : Caller} {s : State} {source : ObjectId} {i : Instance} {b : ByteBuffer}

theorem exists_copyBytes_fresh {x : ObjectId} {n : Nat} (hcall : Calls call)
    (hs : s.world.Sound) (hst : s.world.Staffed) (hbudget : 0 < s.budget)
    (hi : s.world.instance? source = some i) (hb : i.backing = .bytes b)
    (hx : s.world.IsFreshArray x) (hne : source ≠ x) (hroom : b.position + n ≤ b.length) :
    ∃ s', perform call (.copyBytes source x 0 n) s = .ok () s' ∧
      s'.budget = s.budget - 1 ∧ s'.world.Sound ∧ s'.world.Staffed ∧
      s'.world.instance? source = some (i.withBytes (b.setPosition (b.position + n))) ∧
      (∃ new, s'.world.bytes? x = some new ∧ new.toList = b.chunk n) ∧
      ∀ id, id ≠ source → id ≠ x → s'.world.instance? id = s.world.instance? id := by
  obtain ⟨d, hd, hnone⟩ := hx
  obtain ⟨j, hj, hbacking⟩ := World.bytes?_eq_some_iff.1 hd
  obtain ⟨s', hrun, hbudget', hheap⟩ :=
    perform_copyBytes hs hbudget hi hb hj hbacking call hroom (.inl hnone)
  have hcopies := World.copies_copied hi hj hroom (.inl hnone) hheap
  obtain ⟨hsteps, -, -⟩ := (ends_perform hcall hs hst (.copyBytes source x 0 n)).of_ok hrun
  obtain ⟨new, hnew, hreceived, -⟩ := hcopies.receives
  exact ⟨s', hrun, hbudget', hsteps.sound hs, hsteps.staffed hst, hcopies.gives hne,
    ⟨new, World.bytes?_eq_some_iff.2 ⟨_, hnew, rfl⟩, hreceived.toList_eq hnone⟩,
    fun id hsource hid => Heap.instance?_congr (hcopies.others id hsource hid)⟩

end Run

theorem World.IsFreshArray.congr {w w' : World} {o : ObjectId} (h : w.IsFreshArray o)
    (ho : w'.instance? o = w.instance? o) : w'.IsFreshArray o := by
  obtain ⟨d, hd, hnone⟩ := h
  refine ⟨d, ?_, hnone⟩
  rw [World.bytes?, ho]
  exact hd

theorem State.Reachable.byteCopies {s : State} (h : s.Reachable) (depth : Nat)
    (hbudget : 0 < s.budget) {source : ObjectId} {i : Instance} {b : ByteBuffer}
    (hi : s.world.instance? source = some i) (hb : i.backing = .bytes b) :
    ByteCopies depth s source i b := by
  obtain ⟨hs, hst⟩ := h.sound
  have hcall := calls_callFunction depth
  constructor
  case copies =>
    intro dest j d n hj hd hroom hfits
    obtain ⟨s', hrun, -, hheap⟩ :=
      perform_copyBytes hs hbudget hi hb hj hd _ hroom hfits
    exact ⟨s', hrun, World.copies_copied hi hj hroom hfits hheap⟩
  case short =>
    intro dest j d n hj _ hshort
    exact perform_copyBytes_short hbudget hi hb hj _ hshort
  case narrow =>
    intro dest j d n hj hd hroom hfits
    obtain ⟨hsome, hnarrow⟩ := ByteBuffer.not_fits_iff.1 hfits
    exact perform_copyBytes_narrow hs hbudget hi hb hj hd _ hroom hsome hnarrow
  case parts =>
    intro x y z n m hx hy hz hxy hsx hsy hsz hbudget₂ hroom
    obtain ⟨s₁, hrun₁, hbudget₁, hs₁, hst₁, hi₁, ⟨first, hx₁, hchunk₁⟩, hothers₁⟩ :=
      exists_copyBytes_fresh hcall hs hst hbudget hi hb hx hsx (n := n) (by omega)
    have hy₁ := hy.congr (hothers₁ y hsy.symm hxy.symm)
    have hroom₁ : b.position + n + m ≤ (b.setPosition (b.position + n)).length := by
      rw [ByteBuffer.length_setPosition]
      omega
    obtain ⟨s₂, hrun₂, -, -, -, hi₂, ⟨second, hy₂, hchunk₂⟩, hothers₂⟩ :=
      exists_copyBytes_fresh hcall hs₁ hst₁ (by omega) hi₁ rfl hy₁ hsy hroom₁
    obtain ⟨s₃, hrun₃, -, -, -, hi₃, ⟨whole, hz₃, hchunk₃⟩, -⟩ :=
      exists_copyBytes_fresh hcall hs hst hbudget hi hb hz hsz hroom
    have hx₂ : s₂.world.bytes? x = some first := by
      rw [World.bytes?, hothers₂ x hsx.symm hxy]
      exact hx₁
    refine ⟨s₁, s₂, s₃, first, second, whole, hrun₁, hrun₂, hrun₃, hx₂, hy₂, hz₃, ?_, ?_, ?_⟩
    · rw [hchunk₁, hchunk₂, hchunk₃, ByteBuffer.chunk_append]
    · rw [hi₂, hi₃, ← Nat.add_assoc]
      rfl
    · exact World.bytes?_eq_some_iff.2 ⟨_, hi₃, rfl⟩
  case parts_short =>
    intro x y n m hx hy hxy hsx hsy hbudget₂ hshort s₁ hrun₁
    by_cases hroom : b.position + n ≤ b.length
    · obtain ⟨s₁', hrun₁', hbudget₁, -, -, hi₁, -, hothers₁⟩ :=
        exists_copyBytes_fresh hcall hs hst hbudget hi hb hx hsx hroom
      obtain rfl := (EStateM.Result.ok.inj (hrun₁.symm.trans hrun₁')).2
      obtain ⟨d, hd, -⟩ := hy
      obtain ⟨j, hj, -⟩ := World.bytes?_eq_some_iff.1 hd
      have hj₁ := (hothers₁ y hsy.symm hxy.symm).trans hj
      have hshort₁ : (b.setPosition (b.position + n)).length < b.position + n + m := by
        rw [ByteBuffer.length_setPosition]
        omega
      obtain ⟨s₂, hrun₂, -⟩ := perform_copyBytes_short (by omega) hi₁ rfl hj₁ _ hshort₁
      exact ⟨s₂, hrun₂⟩
    · obtain ⟨d, hd, -⟩ := hx
      obtain ⟨j, hj, -⟩ := World.bytes?_eq_some_iff.1 hd
      obtain ⟨s', hrun', -⟩ :=
        perform_copyBytes_short hbudget hi hb hj (callFunction depth) (Nat.lt_of_not_le hroom)
      cases hrun'.symm.trans hrun₁
  case method =>
    intro dest d name f v₁ v₂ more n hd hm hargs h₁ h₂ hn hbudget₂
    obtain ⟨j, hj, hbacking⟩ := World.bytes?_eq_some_iff.1 hd
    exact perform_readBytes hs hbudget₂ hm hi hb hj hbacking hargs h₁ h₂ hn

def twoArrays : Session :=
  .ask (.perform .look) fun w =>
  .ask (.perform (.construct w.core.byteArray none [])) fun
  | .error _ => .done
  | .ok source =>
    .ask (.perform (.editBytes source (.adopt [5, 6, 7, 8]))) fun _ =>
    .ask (.perform (.editBytes source (.seek 1))) fun _ =>
    .ask (.assign 0 (.object source)) fun _ =>
    .ask (.perform (.construct w.core.byteArray none [])) fun
    | .error _ => .done
    | .ok dest => .ask (.assign 1 (.object dest)) fun _ => .done

theorem byteCopies_twoArrays :
    let start : State := ⟨World.initial.withPlaces 2, [], 40, []⟩
    let s : State := { start.afterRun (embed 3 twoArrays) with budget := 2, interference := [] }
    ∃ i b, s.Reachable ∧ 0 < s.budget ∧ s.world.instance? 4 = some i ∧ i.backing = .bytes b ∧
      b = ⟨some (.ofList [5, 6, 7, 8]), 1, false⟩ ∧ s.world.IsFreshArray 10 ∧
      s.world.HasMethod 4 (.pub "readBytes") 9 .readBytes ∧ ByteCopies 3 s 4 i b := by
  intro start s
  have h : s.Reachable := .embed (.core 2 40 []) 3 twoArrays 2 []
  have hsource : s.world.bytes? 4 = some ⟨some (.ofList [5, 6, 7, 8]), 1, false⟩ := by
    decide +kernel
  have hdest : s.world.bytes? 10 = some .empty := by decide +kernel
  obtain ⟨i, hi, hb⟩ := World.bytes?_eq_some_iff.1 hsource
  have hfound : (s.world.instance? 4).map (fun i => i.lookup s.world.classes (.pub "readBytes")) =
      some (.value (.function 9)) := by decide +kernel
  have hcode : (s.world.heap.function? 9).map Function.code = some (.builtin .readBytes) := by
    decide +kernel
  exact ⟨i, _, h, by decide, hi, hb, rfl, ⟨_, hdest, rfl⟩,
    ⟨Option.map_eq_some_iff.1 hfound, Option.map_eq_some_iff.1 hcode⟩,
    State.Reachable.byteCopies h 3 (by decide) hi hb⟩

end ScriptPlayer
