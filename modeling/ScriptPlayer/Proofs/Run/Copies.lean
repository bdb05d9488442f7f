import ScriptPlayer.Proofs.Container.ByteCopy
import ScriptPlayer.Proofs.Run.Bytes
import ScriptPlayer.Proofs.Run.Methods

/-! Copies from one byte array to another, or to itself, with what they leave of the heap: the two
instances with other storage, and every count as it was. -/
namespace ScriptPlayer

open World

def Instance.withBytes (i : Instance) (b : ByteBuffer) : Instance := { i with backing := .bytes b }

namespace World

variable {w w' : World} {source dest : ObjectId} {i j : Instance} {b d : ByteBuffer} {n : Nat}

/-- What a copy of `n` bytes makes of an instance `i` with the storage `b` and of an instance `j`
with the storage `d`, which are the same if an array is copied to itself. -/
structure Copies (w w' : World) (source dest : ObjectId) (i j : Instance) (b d : ByteBuffer)
    (n : Nat) : Prop where
  /-- the position moves; the bytes stay unless they are the ones written to -/
  gives : source ≠ dest → w'.instance? source = some (i.withBytes (b.setPosition (b.position + n)))
  receives : ∃ new, w'.instance? dest = some (j.withBytes new) ∧ ByteBuffer.Received b d new n ∧
    new.position = if source = dest then b.position + n else d.position
  others : ∀ id, id ≠ source → id ≠ dest → w'.heap.content? id = w.heap.content? id

def taking (w : World) (source : ObjectId) (i : Instance) (b : ByteBuffer) (n : Nat) : World :=
  w.withInstances [(source, i.withBytes (b.setPosition (b.position + n)))]

def copied (source dest : ObjectId) (i j : Instance) (b d : ByteBuffer) (n : Nat) :
    List (ObjectId × Instance) :=
  [(source, i.withBytes (b.setPosition (b.position + n))),
    (dest, j.withBytes ((d.setPosition
      (if source = dest then b.position + n else d.position)).filled (b.chunk n)))]

def bytes? (w : World) (o : ObjectId) : Option ByteBuffer :=
  (w.instance? o).bind fun i => i.byteBuffer.toOption

theorem bytes?_eq_some_iff : w.bytes? source = some b ↔
    ∃ i, w.instance? source = some i ∧ i.backing = .bytes b := by
  refine ⟨fun h => ?_, fun ⟨i, hi, hb⟩ => ?_⟩
  · obtain ⟨i, hi, hb⟩ := Option.bind_eq_some_iff.1 h
    cases hbuffer : i.byteBuffer with
    | error f =>
      rw [hbuffer] at hb
      cases hb
    | ok b' =>
      rw [hbuffer] at hb
      obtain rfl := Option.some.inj hb
      exact ⟨i, hi, Instance.backing_of_byteBuffer hbuffer⟩
  · unfold bytes? Instance.byteBuffer
    rw [hi, Option.bind_some, hb]
    rfl

theorem content?_copied (hi : w.instance? source = some i) (hj : w.instance? dest = some j)
    (id : Nat) : (w.withInstances (copied source dest i j b d n)).heap.content? id =
      if id = dest then some (.instanceOf (j.withBytes ((d.setPosition
        (if source = dest then b.position + n else d.position)).filled (b.chunk n))))
      else if id = source then
        some (.instanceOf (i.withBytes (b.setPosition (b.position + n))))
      else w.heap.content? id := by
  have hdest : ∃ k, (w.taking source i b n).instance? dest = some k := by
    rw [taking, instance?_withInstance hi]
    split
    · exact ⟨_, rfl⟩
    · exact ⟨j, hj⟩
  obtain ⟨k, hk⟩ := hdest
  refine (content?_withInstance hk _ id).trans ?_
  rw [taking, content?_withInstance hi]

theorem copies_copied (hi : w.instance? source = some i) (hj : w.instance? dest = some j)
    (hroom : b.position + n ≤ b.length) (hfits : d.Fits n)
    (hheap : w'.heap = w.heap.withInstances (copied source dest i j b d n)) :
    w.Copies w' source dest i j b d n := by
  have hcontent := fun id =>
    (congrArg (Heap.content? · id) hheap).trans (content?_copied (b := b) (n := n) hi hj id)
  refine ⟨fun hne => ?_, ⟨_, ?_, ByteBuffer.received_filled hroom hfits _, rfl⟩,
    fun id hsource hdest => ?_⟩
  · refine Heap.instance?_eq_some_iff.2 ((hcontent source).trans ?_)
    rw [if_neg hne, if_pos rfl]
  · exact Heap.instance?_eq_some_iff.2 ((hcontent dest).trans (if_pos rfl))
  · exact (hcontent id).trans ((if_neg hdest).trans (if_neg hsource))

end World

namespace Run

variable {call : Caller} {s : State} {o source dest : ObjectId} {i j : Instance}
  {b d : ByteBuffer} {n : Nat}

theorem bufferOf_run (hi : s.world.instance? o = some i) (hb : i.backing = .bytes b) :
    bufferOf o s = .ok b s := by
  refine (bind_of_ok (instanceOf_run hi) _).trans ?_
  unfold Instance.byteBuffer
  rw [hb]
  rfl

theorem putBuffer_run (hs : s.world.Sound) (hi : s.world.instance? o = some i)
    (hb : i.backing = .bytes b) (b' : ByteBuffer) : putBuffer o b' s =
      .ok () { s with world := s.world.withInstances [(o, i.withBytes b')] } := by
  have hput : s.world.putInstance o (i.withBytes b') =
      s.world.withInstances [(o, i.withBytes b')] :=
    hs.putInstance_of_handles hi (Instance.handles_bytes hb b')
  rw [← hput]
  exact bind_of_ok (instanceOf_run hi) _

theorem sound_putBuffer (hs : s.world.Sound) (hi : s.world.instance? o = some i)
    (hb : i.backing = .bytes b) (b' : ByteBuffer) :
    (s.world.withInstances [(o, i.withBytes b')]).Sound :=
  ((ends_putBuffer hi hb b').of_ok (putBuffer_run hs hi hb b')).1.sound hs

theorem copyBytes_taking (hs : s.world.Sound) (hi : s.world.instance? source = some i)
    (hb : i.backing = .bytes b) (hj : s.world.instance? dest = some j)
    (hd : j.backing = .bytes d) (hroom : b.position + n ≤ b.length) :
    ∃ d' k, d' = d.setPosition (if source = dest then b.position + n else d.position) ∧
      (s.world.taking source i b n).instance? dest = some k ∧ k.backing = .bytes d' ∧
      (∀ b, k.withBytes b = j.withBytes b) ∧
      copyBytes source dest 0 n s = (ofFatal (d'.fill (b.chunk n)) >>= putBuffer dest)
        { s with world := s.world.taking source i b n } := by
  have hfound := instance?_withInstance hi (i.withBytes (b.setPosition (b.position + n))) dest
  have htarget : ∃ d' k, d' = d.setPosition (if source = dest then b.position + n else d.position) ∧
      (s.world.taking source i b n).instance? dest = some k ∧ k.backing = .bytes d' ∧
      ∀ b, k.withBytes b = j.withBytes b := by
    by_cases he : source = dest
    · subst he
      obtain rfl := Option.some.inj (hi.symm.trans hj)
      obtain rfl := Backing.bytes.inj (hb.symm.trans hd)
      rw [if_pos rfl] at hfound
      exact ⟨_, _, by rw [if_pos rfl], hfound, rfl, fun _ => rfl⟩
    · rw [if_neg (Ne.symm he)] at hfound
      exact ⟨d, j, by rw [if_neg he]; rfl, hfound.trans hj, hd, fun _ => rfl⟩
  obtain ⟨d', k, hd', hk, hbacking, hsame⟩ := htarget
  refine ⟨d', k, hd', hk, hbacking, hsame, ?_⟩
  refine (bind_of_ok (bufferOf_run hi hb) _).trans ?_
  rw [ByteBuffer.take_of_room hroom]
  refine (bind_of_ok (putBuffer_run hs hi hb _) _).trans ?_
  exact bind_of_ok (bufferOf_run hk hbacking) _

theorem copyBytes_run (hs : s.world.Sound) (hi : s.world.instance? source = some i)
    (hb : i.backing = .bytes b) (hj : s.world.instance? dest = some j)
    (hd : j.backing = .bytes d) (hroom : b.position + n ≤ b.length) (hfits : d.Fits n) :
    copyBytes source dest 0 n s =
      .ok () { s with world := s.world.withInstances (copied source dest i j b d n) } := by
  obtain ⟨d', k, rfl, hk, hbacking, hsame, hrun⟩ := copyBytes_taking hs hi hb hj hd hroom
  have hfits' : (d.setPosition (if source = dest then b.position + n else d.position)).Fits
      (b.chunk n).length := (ByteBuffer.length_chunk hroom).symm ▸ hfits
  rw [hrun, ByteBuffer.fill_of_fits hfits']
  refine (putBuffer_run (sound_putBuffer hs hi hb _) hk hbacking _).trans ?_
  rw [hsame]
  rfl

theorem copyBytes_short (hi : s.world.instance? source = some i) (hb : i.backing = .bytes b)
    (hshort : b.length < b.position + n) (dest : ObjectId) :
    copyBytes source dest 0 n s = .error (.abort .sliceRange) s := by
  refine (bind_of_ok (bufferOf_run hi hb) _).trans ?_
  rw [ByteBuffer.take_of_short hshort]
  rfl

theorem copyBytes_narrow (hs : s.world.Sound) (hi : s.world.instance? source = some i)
    (hb : i.backing = .bytes b) (hj : s.world.instance? dest = some j)
    (hd : j.backing = .bytes d) (hroom : b.position + n ≤ b.length) (hsome : d.bytes.isSome)
    (hnarrow : d.length < n) : copyBytes source dest 0 n s =
      .error (.abort (.bufferTooSmall d.length n))
        { s with world := s.world.taking source i b n } := by
  obtain ⟨d', k, rfl, -, -, -, hrun⟩ := copyBytes_taking hs hi hb hj hd hroom
  have hlen := ByteBuffer.length_chunk hroom
  generalize hposition : (if source = dest then b.position + n else d.position) = p at hrun
  have hsome' : (d.setPosition p).bytes.isSome := hsome
  rw [hrun, ByteBuffer.fill_of_narrow hsome' (by rw [hlen]; exact hnarrow), hlen,
    ByteBuffer.length_setPosition]
  rfl

/-- The method reads its arguments and then does what the operation does. -/
theorem readBytes_eq {v₁ v₂ : Value} {more : List Value} (hj : s.world.instance? dest = some j)
    (hd : j.backing = .bytes d) (h₁ : 0 ≤ v₁.toInt) (h₂ : 0 ≤ v₂.toInt) :
    readBytes source (.object dest :: v₁ :: v₂ :: more) s =
      copyBytes source dest v₁.toInt.toInt.toNat v₂.toInt.toInt.toNat s := by
  have hdest : byteArrayOf (.object dest) s = .ok dest s := by
    refine (bind_of_ok (instanceOf_run hj) _).trans ?_
    rw [hd]
    rfl
  have hoffset : ∀ (what : String) {v : Value}, 0 ≤ v.toInt →
      offsetOf what v s = .ok v.toInt.toInt.toNat s := by
    intro what v hv
    have hrun : offsetOf what v = pure v.toInt.toInt.toNat := if_neg (Int32.not_lt.2 hv)
    rw [hrun]
    rfl
  have hargs : requireArgs "ByteArray.readBytes" (.object dest :: v₁ :: v₂ :: more) 3 s =
      .ok () s := by
    unfold requireArgs
    rw [if_pos (by simp)]
    rfl
  refine (bind_of_ok hargs _).trans ((bind_of_ok hdest _).trans ?_)
  exact (bind_of_ok (hoffset "offset" h₁) _).trans (bind_of_ok (hoffset "length" h₂) _)

/-! Copies as operations -/

section Perform

variable (hs : s.world.Sound) (hbudget : 0 < s.budget) (hi : s.world.instance? source = some i)
  (hb : i.backing = .bytes b) (hj : s.world.instance? dest = some j) (hd : j.backing = .bytes d)

include hi hj in
theorem isValid_copied : ∀ v ∈ (Op.copyBytes source dest 0 n).operands, s.world.isValid v := by
  intro v hv
  rcases List.mem_cons.1 hv with rfl | hv
  · exact isValid_receiver hi _ (List.mem_singleton_self _)
  · exact isValid_receiver hj v hv

include hs hbudget hi hb hj hd

theorem perform_copyBytes (call : Caller) (hroom : b.position + n ≤ b.length) (hfits : d.Fits n) :
    ∃ s', perform call (.copyBytes source dest 0 n) s = .ok () s' ∧
      s'.budget = s.budget - 1 ∧
      s'.world.heap = s.world.heap.withInstances (copied source dest i j b d n) := by
  have hops := isValid_copied (n := n) hi hj
  refine perform_withInstances hs hbudget hops rfl (fun _ => rfl) ?_
  exact copyBytes_run ((steps_opened hops).sound hs) (instance?_opened hi) hb
    (instance?_opened hj) hd hroom hfits

omit hs hd in
theorem perform_copyBytes_short (call : Caller) (hshort : b.length < b.position + n) :
    ∃ s', perform call (.copyBytes source dest 0 n) s = .error (.abort .sliceRange) s' ∧
      SameContents s.world s'.world :=
  perform_aborts hbudget (isValid_copied hi hj) rfl
    (copyBytes_short (instance?_opened hi) hb hshort dest)

theorem perform_copyBytes_narrow (call : Caller) (hroom : b.position + n ≤ b.length)
    (hsome : d.bytes.isSome) (hnarrow : d.length < n) :
    ∃ s', perform call (.copyBytes source dest 0 n) s =
      .error (.abort (.bufferTooSmall d.length n)) s' := by
  have hops := isValid_copied (n := n) hi hj
  exact ⟨_, perform_of_abort hbudget hops rfl (copyBytes_narrow ((steps_opened hops).sound hs)
    (instance?_opened hi) hb (instance?_opened hj) hd hroom hsome hnarrow)⟩

end Perform

theorem perform_readBytes {name : QName} {f : FunctionId} {v₁ v₂ : Value} {more : List Value}
    {depth : Nat} (hs : s.world.Sound) (hbudget : 1 < s.budget)
    (hm : s.world.HasMethod source name f .readBytes)
    (hi : s.world.instance? source = some i) (hb : i.backing = .bytes b)
    (hj : s.world.instance? dest = some j) (hd : j.backing = .bytes d)
    (hargs : ∀ v ∈ Value.object dest :: v₁ :: v₂ :: more, s.world.isValid v)
    (h₁ : v₁.toInt = 0) (h₂ : 0 ≤ v₂.toInt) (hn : v₂.toInt.toInt.toNat = n) :
    (∃ s₁ s₂, perform call (.copyBytes source dest 0 n) s = .ok () s₁ ∧
      perform (callFunction (depth + 1))
        (.callMethod source name (.object dest :: v₁ :: v₂ :: more)) s =
          .ok (Except.ok Value.undefined) s₂ ∧
      s₂.world.heap = s₁.world.heap) ∨
    ∃ e s₁ s₂, perform call (.copyBytes source dest 0 n) s = .error (.abort e) s₁ ∧
      perform (callFunction (depth + 1))
        (.callMethod source name (.object dest :: v₁ :: v₂ :: more)) s = .error (.abort e) s₂ := by
  let inside := inMethod s source (.object dest :: v₁ :: v₂ :: more) f
  have hbudget' := Nat.lt_of_succ_lt hbudget
  have hinside : inside.world.Sound := (steps_inMethod hm hargs).sound hs
  have hsame : SameContents s.world inside.world := fun id =>
    (sameContents_inCall _ f _ id).trans (sameContents_opened s _ id)
  have hi' : inside.world.instance? source = some i := (hsame.instance? source).trans hi
  have hj' : inside.world.instance? dest = some j := (hsame.instance? dest).trans hj
  have hread : builtin (callFunction depth) .readBytes source (.object dest :: v₁ :: v₂ :: more)
      inside = returningUndefined (copyBytes source dest 0 n) inside := by
    have heq : readBytes source (.object dest :: v₁ :: v₂ :: more) inside =
        copyBytes source dest v₁.toInt.toInt.toNat v₂.toInt.toInt.toNat inside :=
      readBytes_eq hj' hd (Int32.le_of_eq h₁.symm) h₂
    rw [h₁, hn] at heq
    change returningUndefined (readBytes source _) inside = _
    unfold returningUndefined
    rw [bind_run, heq, ← bind_run]
    rfl
  by_cases hroom : b.position + n ≤ b.length
  · by_cases hfits : d.Fits n
    · obtain ⟨s₁, hnative, -, hheap₁⟩ :=
        perform_copyBytes hs hbudget' hi hb hj hd call hroom hfits
      obtain ⟨s₂, hmethod, hheap₂⟩ := perform_method_withInstances hs hm hargs hbudget
        (hread.trans (bind_of_ok (copyBytes_run hinside hi' hb hj' hd hroom hfits) _))
      exact Or.inl ⟨s₁, s₂, hnative, hmethod, hheap₂.trans hheap₁.symm⟩
    · obtain ⟨hsome, hnarrow⟩ := ByteBuffer.not_fits_iff.1 hfits
      obtain ⟨s₁, hnative⟩ :=
        perform_copyBytes_narrow hs hbudget' hi hb hj hd call hroom hsome hnarrow
      obtain ⟨s₂, hmethod⟩ := perform_method_aborts hm hargs hbudget (hread.trans
        (bind_of_error (copyBytes_narrow hinside hi' hb hj' hd hroom hsome hnarrow) _))
      exact Or.inr ⟨_, s₁, s₂, hnative, hmethod⟩
  · have hshort := Nat.lt_of_not_le hroom
    obtain ⟨s₁, hnative, -⟩ := perform_copyBytes_short hbudget' hi hb hj call hshort
    obtain ⟨s₂, hmethod⟩ := perform_method_aborts hm hargs hbudget
      (hread.trans (bind_of_error (copyBytes_short hi' hb hshort dest) _))
    exact Or.inr ⟨_, s₁, s₂, hnative, hmethod⟩

end Run

end ScriptPlayer
