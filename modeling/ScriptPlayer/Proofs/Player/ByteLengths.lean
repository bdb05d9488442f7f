import ScriptPlayer.Proofs.Container.ByteEvents
import ScriptPlayer.Proofs.Player.ByteCopies

/-! The length of a byte array over time. Reads, writes, moves of the position, requests for storage
and copies from and to the array may follow one another in any order, whatever happens elsewhere
between them, until one of them aborts. -/
namespace ScriptPlayer

open World

def BytesEvent.ofCopy (o source dest : ObjectId) (n : Nat) : BytesEvent :=
  if o = dest then .took n else if o = source then .gave n else .elsewhere

/-- One thing that happens to an array or elsewhere. -/
inductive BytesStep (o : ObjectId) (w : World) : BytesEvent → World → Prop
  | elsewhere {w' : World} (hsteps : Steps w w') (hbytes : w'.bytes? o = w.bytes? o) :
      BytesStep o w .elsewhere w'
  | read {call : Caller} {s s' : State} {key : Key} {n : UInt32} {found : Option Value}
      (hs : s.world = w) (hk : key.name = .index n) (h : Run.get call o key s = .ok found s') :
      BytesStep o w (.read n.toNat) s'.world
  | write {call : Caller} {s s' : State} {key : Key} {n : UInt32} {v : Value}
      (hs : s.world = w) (hk : key.name = .index n) (h : Run.set call o key v s = .ok () s') :
      BytesStep o w (.edited (.set n.toNat (Instance.toByte v))) s'.world
  | edit {s s' : State} {e : ByteEdit} (hs : s.world = w) (h : Run.editBytes o e s = .ok () s') :
      BytesStep o w (.edited e) s'.world
  | seek {s s' : State} {args : List Value} (hs : s.world = w)
      (h : Run.setBytePosition o args s = .ok () s') :
      BytesStep o w (.edited (.seek (args.getD 0 .undefined).toInt.toInt.toNat)) s'.world
  | copy {s s' : State} {source dest : ObjectId} {offset n : Nat} (hs : s.world = w)
      (h : Run.copyBytes source dest offset n s = .ok () s') :
      BytesStep o w (.ofCopy o source dest n) s'.world
  | readBytes {s s' : State} {source dest : ObjectId} {args : List Value} (hs : s.world = w)
      (hdest : args.getD 0 .undefined = .object dest)
      (h : Run.readBytes source args s = .ok () s') :
      BytesStep o w (.ofCopy o source dest (args.getD 2 .undefined).toInt.toInt.toNat) s'.world

/-- What has happened so far to an array that was new at first, oldest first, and the world that it
has led to. -/
inductive BytesHistory (o : ObjectId) : List BytesEvent → World → Prop
  | fresh {w : World} {b : ByteBuffer} (hs : w.Sound) (hb : w.bytes? o = some b)
      (hnew : b = .empty ∨ ∃ n, b = .ofLength n) : BytesHistory o [] w
  | snoc {l : List BytesEvent} {e : BytesEvent} {w w' : World} (h : BytesHistory o l w)
      (hs : BytesStep o w e w') : BytesHistory o (l ++ [e]) w'

inductive BytesSteps (o : ObjectId) (w : World) : List BytesEvent → World → Prop
  | refl : BytesSteps o w [] w
  | snoc {l : List BytesEvent} {e : BytesEvent} {w₁ w₂ : World} (h : BytesSteps o w l w₁)
      (hs : BytesStep o w₁ e w₂) : BytesSteps o w (l ++ [e]) w₂

namespace Run

variable {s s' : State} {o source dest : ObjectId} {i : Instance} {b : ByteBuffer} {n : Nat}

theorem bufferOf_ok (h : bufferOf o s = .ok b s') :
    s' = s ∧ ∃ i, s.world.instance? o = some i ∧ i.backing = .bytes b := by
  obtain ⟨i, s₁, hi, hbuffer⟩ := exists_of_bind_ok h
  cases hw : s.world.instance? o with
  | none => rw [instanceOf_dangling hw] at hi; cases hi
  | some i' =>
    rw [instanceOf_run hw] at hi
    obtain ⟨rfl, rfl⟩ := EStateM.Result.ok.inj hi
    cases hb : i'.byteBuffer with
    | error f => rw [hb] at hbuffer; cases hbuffer
    | ok b' =>
      rw [hb] at hbuffer
      obtain ⟨rfl, rfl⟩ := EStateM.Result.ok.inj hbuffer
      exact ⟨rfl, i', rfl, Instance.backing_of_byteBuffer hb⟩

theorem editBytes_ok {e : ByteEdit} (hs : s.world.Sound) (hi : s.world.instance? o = some i)
    (hb : i.backing = .bytes b) (h : editBytes o e s = .ok () s') :
    ∃ b', b.edit e = .ok b' ∧ s'.world = s.world.withInstances [(o, i.withBytes b')] := by
  have hrun : editBytes o e s = _ := bind_of_ok (bufferOf_run hi hb) _
  rw [hrun] at h
  cases hedit : b.edit e with
  | error f => rw [hedit] at h; cases h
  | ok b' =>
    rw [hedit, bind_of_ok (m := ofFatal (.ok b')) rfl, putBuffer_run hs hi hb] at h
    exact ⟨b', rfl, congrArg State.world (EStateM.Result.ok.inj h).2.symm⟩

theorem copyBytes_ok {offset : Nat} (hs : s.world.Sound)
    (h : copyBytes source dest offset n s = .ok () s') :
    ∃ i j b d, s.world.instance? source = some i ∧ i.backing = .bytes b ∧
      s.world.instance? dest = some j ∧ j.backing = .bytes d ∧ b.position + n ≤ b.length ∧
      d.Fits n ∧ s'.world = s.world.withInstances (copied source dest i j b d n) := by
  obtain ⟨b, s₁, hbuffer, htake⟩ := exists_of_bind_ok h
  obtain ⟨hsame, i, hi, hb⟩ := bufferOf_ok hbuffer
  subst s₁
  have hroom : offset = 0 ∧ b.position + n ≤ b.length := by
    unfold ByteBuffer.take at htake
    by_cases hoffset : offset = 0
    · by_cases hroom : b.position + n ≤ b.length
      · exact ⟨hoffset, hroom⟩
      · rw [if_neg (not_not.2 hoffset), if_neg hroom] at htake
        cases htake
    · rw [if_pos hoffset] at htake
      cases htake
  obtain ⟨rfl, hroom⟩ := hroom
  rw [ByteBuffer.take_of_room hroom, bind_of_ok (m := ofFatal (.ok _)) rfl] at htake
  obtain ⟨_, s₂, hput, hrest⟩ := exists_of_bind_ok htake
  rw [putBuffer_run hs hi hb] at hput
  obtain ⟨-, rfl⟩ := EStateM.Result.ok.inj hput
  obtain ⟨d', _, hbuffer', -⟩ := exists_of_bind_ok hrest
  obtain ⟨-, k, hk, hd'⟩ := bufferOf_ok hbuffer'
  -- the target is a byte array already, for taking the bytes makes none
  have hdest : ∃ j d, s.world.instance? dest = some j ∧ j.backing = .bytes d := by
    have hk : (s.world.withInstances [(source, _)]).instance? dest = some k := hk
    rw [instance?_withInstance hi] at hk
    by_cases hsource : dest = source
    · exact ⟨i, b, hsource ▸ hi, hb⟩
    · rw [if_neg hsource] at hk
      exact ⟨k, d', hk, hd'⟩
  obtain ⟨j, d, hj, hd⟩ := hdest
  refine ⟨i, j, b, d, hi, hb, hj, hd, hroom, ?_⟩
  by_cases hfits : d.Fits n
  · rw [copyBytes_run hs hi hb hj hd hroom hfits] at h
    exact ⟨hfits, congrArg State.world (EStateM.Result.ok.inj h).2.symm⟩
  · obtain ⟨hsome, hnarrow⟩ := ByteBuffer.not_fits_iff.1 hfits
    rw [copyBytes_narrow hs hi hb hj hd hroom hsome hnarrow] at h
    cases h

theorem offsetOf_ok {what : String} {v : Value} {m : Nat} (h : offsetOf what v s = .ok m s') :
    m = v.toInt.toInt.toNat := by
  by_cases hneg : v.toInt < 0
  · have hrun : offsetOf what v = fail (.negative what) := if_pos hneg
    rw [hrun] at h
    cases h
  · have hrun : offsetOf what v = pure v.toInt.toInt.toNat := if_neg hneg
    rw [hrun] at h
    exact (EStateM.Result.ok.inj h).1.symm

theorem setBytePosition_ok {args : List Value} (h : setBytePosition o args s = .ok () s') :
    editBytes o (.seek (args.getD 0 .undefined).toInt.toInt.toNat) s = .ok () s' := by
  obtain ⟨_, s₁, hargs, hrest⟩ := exists_of_bind_ok h
  obtain rfl := (reads_requireArgs _ _ _).eq_of_ok hargs
  obtain ⟨m, s₂, hoffset, hedit⟩ := exists_of_bind_ok hrest
  obtain rfl := (reads_offsetOf _ _).eq_of_ok hoffset
  obtain rfl := offsetOf_ok hoffset
  exact hedit

theorem byteArrayOf_ok {o' : ObjectId} (h : byteArrayOf (.object o) s = .ok o' s') : o' = o := by
  obtain ⟨i, s₁, -, hfound⟩ := exists_of_bind_ok h
  cases hb : i.backing with
  | bytes b =>
    rw [hb] at hfound
    exact (EStateM.Result.ok.inj hfound).1.symm
  | _ =>
    rw [hb] at hfound
    cases hfound

theorem readBytes_ok {args : List Value} (hdest : args.getD 0 .undefined = .object dest)
    (h : readBytes source args s = .ok () s') : ∃ offset,
      copyBytes source dest offset (args.getD 2 .undefined).toInt.toInt.toNat s = .ok () s' := by
  obtain ⟨_, s₁, hargs, h₁⟩ := exists_of_bind_ok h
  obtain rfl := (reads_requireArgs _ _ _).eq_of_ok hargs
  obtain ⟨o, s₂, harray, h₂⟩ := exists_of_bind_ok h₁
  obtain rfl := (reads_byteArrayOf _).eq_of_ok harray
  obtain ⟨offset, s₃, hoffset, h₃⟩ := exists_of_bind_ok h₂
  obtain rfl := (reads_offsetOf _ _).eq_of_ok hoffset
  obtain ⟨m, s₄, hlength, hcopy⟩ := exists_of_bind_ok h₃
  obtain rfl := (reads_offsetOf _ _).eq_of_ok hlength
  obtain rfl := offsetOf_ok hlength
  rw [hdest] at harray
  exact ⟨offset, byteArrayOf_ok harray ▸ hcopy⟩

theorem get_index_ok {call : Caller} {key : Key} {m : UInt32} {found : Option Value}
    (hs : s.world.Sound) (hi : s.world.instance? o = some i) (hb : i.backing = .bytes b)
    (hk : key.name = .index m) (h : get call o key s = .ok found s') :
    s'.world.Sound ∧ SameContents s.world s'.world := by
  rw [get_run hi (Instance.unintercepted_of_bytes hb)] at h
  cases hbyte : b.get m.toNat with
  | error f =>
    rw [Instance.read_index_error hb hk hbyte] at h
    cases h
  | ok byte =>
    rw [Instance.read_index hb hk hbyte] at h
    obtain ⟨_, s₁, hhold, hpure⟩ := exists_of_bind_ok h
    obtain ⟨-, rfl⟩ := EStateM.Result.ok.inj hpure
    obtain ⟨hsteps, -, -, hsame⟩ := (ends_hold hs).of_ok hhold
    exact ⟨hsteps.sound hs, hsame⟩

theorem set_index_ok {call : Caller} {key : Key} {m : UInt32} {v : Value} (hs : s.world.Sound)
    (hi : s.world.instance? o = some i) (hb : i.backing = .bytes b) (hk : key.name = .index m)
    (h : set call o key v s = .ok () s') :
    ∃ b', b.set m.toNat (Instance.toByte v) = .ok b' ∧
      s'.world = s.world.withInstances [(o, i.withBytes b')] := by
  rw [set_concludes hi] at h
  cases hset : b.set m.toNat (Instance.toByte v) with
  | error f =>
    rw [Instance.write_index_error hb hk hset] at h
    cases h
  | ok b' =>
    rw [Instance.write_index hb hk hset] at h
    refine ⟨b', rfl, ?_⟩
    obtain ⟨-, rfl⟩ := EStateM.Result.ok.inj h
    exact hs.putInstance_of_handles hi (Instance.handles_bytes hb b')

end Run

section Steps

variable {o source dest : ObjectId} {w w' : World} {e : BytesEvent} {l : List BytesEvent}
  {b : ByteBuffer}

theorem World.bytes?_congr (h : w'.heap.content? o = w.heap.content? o) :
    w'.bytes? o = w.bytes? o := by
  have hinstance : w'.instance? o = w.instance? o := Heap.instance?_congr h
  rw [bytes?, hinstance, bytes?]

theorem undergoes_copied {i j : Instance} {c d : ByteBuffer} {n : Nat}
    (hi : w.instance? source = some i) (hc : i.backing = .bytes c)
    (hj : w.instance? dest = some j) (hd : j.backing = .bytes d)
    (hroom : c.position + n ≤ c.length) (hfits : d.Fits n) (hb : w.bytes? o = some b)
    (hw : w' = w.withInstances (copied source dest i j c d n)) :
    ∃ b', w'.bytes? o = some b' ∧ b.Undergoes (.ofCopy o source dest n) b' := by
  subst hw
  have hcontent := content?_copied (b := c) (d := d) (n := n) hi hj o
  by_cases hdest : o = dest
  · subst hdest
    obtain rfl := Option.some.inj (hb.symm.trans (bytes?_eq_some_iff.2 ⟨j, hj, hd⟩))
    rw [if_pos rfl] at hcontent
    refine ⟨_, bytes?_eq_some_iff.2 ⟨_, Heap.instance?_eq_some_iff.2 hcontent, rfl⟩, ?_⟩
    rw [BytesEvent.ofCopy, if_pos rfl]
    exact .took _ (ByteBuffer.length_chunk hroom) hfits
  · rw [if_neg hdest] at hcontent
    by_cases hsource : o = source
    · subst hsource
      obtain rfl := Option.some.inj (hb.symm.trans (bytes?_eq_some_iff.2 ⟨i, hi, hc⟩))
      rw [if_pos rfl] at hcontent
      refine ⟨_, bytes?_eq_some_iff.2 ⟨_, Heap.instance?_eq_some_iff.2 hcontent, rfl⟩, ?_⟩
      rw [BytesEvent.ofCopy, if_neg hdest, if_pos rfl]
      exact .gave n
    · rw [if_neg hsource] at hcontent
      refine ⟨b, (World.bytes?_congr hcontent).trans hb, ?_⟩
      rw [BytesEvent.ofCopy, if_neg hdest, if_neg hsource]
      exact .elsewhere

theorem undergoes_withBytes {i : Instance} {c c' : ByteBuffer} {edit : ByteEdit} (hs : w.Sound)
    (hi : w.instance? o = some i) (hc : i.backing = .bytes c) (hedit : c.edit edit = .ok c')
    (hb : w.bytes? o = some b) (hw : w' = w.withInstances [(o, i.withBytes c')]) :
    w'.Sound ∧ ∃ b', w'.bytes? o = some b' ∧ b.Undergoes (.edited edit) b' := by
  subst hw
  obtain rfl := Option.some.inj (hb.symm.trans (bytes?_eq_some_iff.2 ⟨i, hi, hc⟩))
  refine ⟨Run.sound_putBuffer (s := ⟨w, [], 0, []⟩) hs hi hc c', c', ?_, .edited hedit⟩
  exact bytes?_eq_some_iff.2 ⟨_, (instance?_withInstance hi _ o).trans (if_pos rfl), rfl⟩

theorem BytesStep.undergoes (h : BytesStep o w e w') (hs : w.Sound) (hb : w.bytes? o = some b) :
    w'.Sound ∧ ∃ b', w'.bytes? o = some b' ∧ b.Undergoes e b' := by
  obtain ⟨i, hi, hbacking⟩ := bytes?_eq_some_iff.1 hb
  cases h with
  | elsewhere hsteps hbytes => exact ⟨hsteps.sound hs, b, hbytes.trans hb, .elsewhere⟩
  | read hw hk h =>
    subst hw
    obtain ⟨hs', hsame⟩ := Run.get_index_ok hs hi hbacking hk h
    exact ⟨hs', b, (World.bytes?_congr (hsame o)).trans hb, .read _⟩
  | write hw hk h =>
    subst hw
    obtain ⟨b', hset, hw'⟩ := Run.set_index_ok hs hi hbacking hk h
    exact undergoes_withBytes hs hi hbacking hset hb hw'
  | edit hw h =>
    subst hw
    obtain ⟨b', hedit, hw'⟩ := Run.editBytes_ok hs hi hbacking h
    exact undergoes_withBytes hs hi hbacking hedit hb hw'
  | seek hw h =>
    subst hw
    obtain ⟨b', hedit, hw'⟩ := Run.editBytes_ok hs hi hbacking (Run.setBytePosition_ok h)
    exact undergoes_withBytes hs hi hbacking hedit hb hw'
  | copy hw h =>
    subst hw
    obtain ⟨i, j, c, d, hi, hc, hj, hd, hroom, hfits, hw'⟩ := Run.copyBytes_ok hs h
    exact ⟨((Run.ends_copyBytes hs _ _ _ _).of_ok h).1.sound hs,
      undergoes_copied hi hc hj hd hroom hfits hb hw'⟩
  | readBytes hw hdest h =>
    subst hw
    obtain ⟨offset, h⟩ := Run.readBytes_ok hdest h
    obtain ⟨i, j, c, d, hi, hc, hj, hd, hroom, hfits, hw'⟩ := Run.copyBytes_ok hs h
    exact ⟨((Run.ends_copyBytes hs _ _ _ _).of_ok h).1.sound hs,
      undergoes_copied hi hc hj hd hroom hfits hb hw'⟩

theorem BytesHistory.exists_proper (h : BytesHistory o l w) :
    w.Sound ∧ ∃ b, w.bytes? o = some b ∧ b.Proper := by
  induction h with
  | fresh hs hb hnew =>
    refine ⟨hs, _, hb, ?_⟩
    obtain rfl | ⟨n, rfl⟩ := hnew
    · exact ByteBuffer.proper_empty
    · exact ByteBuffer.proper_ofLength n
  | snoc _ hstep ih =>
    obtain ⟨hs, b, hb, hproper⟩ := ih
    obtain ⟨hs', b', hb', hundergoes⟩ := hstep.undergoes hs hb
    exact ⟨hs', b', hb', hundergoes.proper hproper⟩

theorem BytesSteps.disciplined (h : BytesSteps o w l w') (hs : w.Sound)
    (hb : w.bytes? o = some b) (hproper : b.Proper) (hl : ∀ e ∈ l, e.adopts = false) :
    w'.Sound ∧ ∃ b', w'.bytes? o = some b' ∧ b'.Proper ∧ b.Disciplined l b' := by
  induction h with
  | refl => exact ⟨hs, b, hb, hproper, .refl b⟩
  | @snoc l e _ _ _ hstep ih =>
    obtain ⟨hs₁, b₁, hb₁, hproper₁, hl₁⟩ := ih fun e he => hl e (List.mem_append_left _ he)
    obtain ⟨hs₂, b₂, hb₂, hundergoes⟩ := hstep.undergoes hs₁ hb₁
    have hfollows := hundergoes.follows (hl e (List.mem_append_right _ (List.mem_singleton_self e)))
    exact ⟨hs₂, b₂, hb₂, hundergoes.proper hproper₁, hl₁.snoc hproper₁ hfollows⟩

end Steps

/-- What can become of an array with the storage `b` from now on. -/
structure LengthDiscipline (o : ObjectId) (w : World) (b : ByteBuffer) : Prop where
  /-- one step; storage, once made, stays, so that at most one step makes it -/
  changes : ∀ e w', BytesStep o w e w' → e.adopts = false →
    ∃ b', w'.bytes? o = some b' ∧ b.Follows e b'
  runs : ∀ l w', BytesSteps o w l w' → (∀ e ∈ l, e.adopts = false) →
    ∃ b', w'.bytes? o = some b' ∧ b.Disciplined l b'

theorem BytesHistory.lengthDiscipline {o : ObjectId} {l : List BytesEvent} {w : World}
    (h : BytesHistory o l w) : ∃ b, w.bytes? o = some b ∧ LengthDiscipline o w b := by
  obtain ⟨hs, b, hb, hproper⟩ := h.exists_proper
  refine ⟨b, hb, ⟨fun e w' hstep he => ?_, fun l' w' hsteps hl => ?_⟩⟩
  · obtain ⟨-, b', hb', hundergoes⟩ := hstep.undergoes hs hb
    exact ⟨b', hb', hundergoes.follows he⟩
  · obtain ⟨-, b', hb', -, hdisciplined⟩ := hsteps.disciplined hs hb hproper hl
    exact ⟨b', hb', hdisciplined⟩

theorem lengthDiscipline_twoArrays :
    ∃ w b, BytesHistory 10 [.took 2] w ∧ w.bytes? 10 = some b ∧ b.toList = [6, 7] ∧
      LengthDiscipline 10 w b := by
  obtain ⟨s, hs, hsource, hdest⟩ : ∃ s : State, s.world.Sound ∧
      s.world.bytes? 4 = some ⟨some (.ofList [5, 6, 7, 8]), 1, false⟩ ∧
      s.world.bytes? 10 = some .empty :=
    ⟨_, (State.Reachable.embed (.core 2 40 []) 3 twoArrays 2 []).sound.1, by decide +kernel,
      by decide +kernel⟩
  obtain ⟨i, hi, hb⟩ := bytes?_eq_some_iff.1 hsource
  obtain ⟨j, hj, hd⟩ := bytes?_eq_some_iff.1 hdest
  have hroom : ByteBuffer.position ⟨some (.ofList [5, 6, 7, 8]), 1, false⟩ + 2 ≤
    ByteBuffer.length ⟨some (.ofList [5, 6, 7, 8]), 1, false⟩ := by decide
  have hfits : ByteBuffer.empty.Fits 2 := .inl rfl
  have hcopy := Run.copyBytes_run hs hi hb hj hd hroom hfits
  have hhistory := (BytesHistory.fresh hs hdest (.inl rfl)).snoc (.copy rfl hcopy)
  have hcopies : s.world.Copies (s.world.withInstances (copied 4 10 i j _ .empty 2)) 4 10 i j _
      .empty 2 := copies_copied hi hj hroom hfits rfl
  obtain ⟨new, hnew, hreceived, -⟩ := hcopies.receives
  have hbytes : new.toList = [6, 7] := hreceived.toList_eq rfl
  obtain ⟨b, hbuffer, hdiscipline⟩ := hhistory.lengthDiscipline
  obtain rfl := Option.some.inj
    (hbuffer.symm.trans (bytes?_eq_some_iff.2 ⟨_, hnew, rfl⟩))
  exact ⟨_, _, hhistory, hbuffer, hbytes, hdiscipline⟩

end ScriptPlayer
