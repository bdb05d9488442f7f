import ScriptPlayer.Proofs.Player.Bytes
import ScriptPlayer.Proofs.Run.Copies
import ScriptPlayer.Proofs.Run.Enumeration
import ScriptPlayer.Proofs.Value.StrictEquality

/-! The enumeration of byte arrays. A name is the cursor as a 32-bit integer, so that it denotes the
byte that is shown with it as long as the cursor is below 2^31. From there on the names are negative
and denote no byte. -/
namespace ScriptPlayer

open World Run

/-- What a key does that is made of the name of a byte. -/
structure NamesByte (call : Caller) (s : State) (o : ObjectId) (i : Instance) (c : Nat)
    (byte : UInt8) (ns : String) (key : Key) : Prop where
  /-- the name of one of the first 2^31 bytes is the index of the byte -/
  index : c < 0x8000_0000 → i.place? key = some (.byte c) ∧
    ∃ s', perform call (.get o key) s = .ok (Except.ok (some (.int (Int32.ofNat byte.toNat)))) s' ∧
      SameContents s.world s'.world
  /-- the name of a later byte is a negative number, which is taken for its text -/
  text : 0x8000_0000 ≤ c → c < 0x1_0000_0000 →
    key = Key.qualified (toString ((c : Int) - 0x1_0000_0000)) ns ∧
      (∀ n, i.place? key ≠ some (.byte n)) ∧
      ∀ name, key.qname? = some name → i.lookup s.world.classes name = .absent →
        ∃ s', perform call (.get o key) s = .ok (Except.ok none) s' ∧
          SameContents s.world s'.world

/-- What the enumeration of a byte array shows. -/
structure EnumeratesBytes (call : Caller) (s : State) (o : ObjectId) (i : Instance)
    (b : ByteBuffer) : Prop where
  size : i.enumSize = b.length
  /-- a name and a byte at every cursor that the loop gets to -/
  visits : ∀ c, c < i.enumSize → 2 < s.budget → ∃ byte s₁ s₂, b.toList[c]? = some byte ∧
    perform call (.nextName o c) s = .ok (.int (Int32.ofNat c)) s₁ ∧
    perform call (.nextValue o c) s₁ = .ok (.int (Int32.ofNat byte.toNat)) s₂ ∧
    SameContents s.world s₂.world ∧ ∀ ns, NamesByte call s₂ o i c byte ns
      (Key.classifyValue s₂.world.naming (.int (Int32.ofNat c)) ns)

namespace Key

variable {c : Nat}

theorem toInt_cursor (h : c < 0x1_0000_0000) :
    (Int32.ofNat c).toInt = if c < 0x8000_0000 then (c : Int) else c - 0x1_0000_0000 := by
  have hsize : ((Int32.size : Nat) : Int) = 0x1_0000_0000 := rfl
  rw [Int32.toInt_ofNat', Int.bmod_def, hsize]
  split <;> split <;> omega

theorem classifyValue_cursor (names : Naming) (ns : String) (h : c < 0x8000_0000) :
    classifyValue names (.int (Int32.ofNat c)) ns = ⟨ns, .index (UInt32.ofNat c), none⟩ := by
  have hname := toInt_cursor (Nat.lt_trans h (by decide))
  rw [if_pos h] at hname
  have hsign : 0 ≤ (Int32.ofNat c).toInt := by omega
  have hword : (Int32.ofNat c).toUInt32 = UInt32.ofNat c := rfl
  rw [classifyValue, if_pos hsign, hword]

theorem classifyValue_lateCursor (names : Naming) (ns : String) (hle : 0x8000_0000 ≤ c)
    (hlt : c < 0x1_0000_0000) : classifyValue names (.int (Int32.ofNat c)) ns =
      qualified (toString ((c : Int) - 0x1_0000_0000)) ns := by
  have hname := toInt_cursor hlt
  rw [if_neg (Nat.not_lt.2 hle)] at hname
  have hsign : ¬0 ≤ (Int32.ofNat c).toInt := by omega
  rw [classifyValue, if_neg hsign, Value.toText, hname]

end Key

namespace Run

variable {call : Caller} {s : State} {o : ObjectId} {i : Instance} {b : ByteBuffer} {c : Nat}
  {byte : UInt8}

theorem visit_byte_run (hcall : Calls call) (hs : s.world.Sound) (hst : s.world.Staffed)
    (hb : 1 < s.budget) (hi : s.world.instance? o = some i) (hbytes : i.backing = .bytes b)
    (hbyte : b.toList[c]? = some byte) :
    ∃ s₁ s₂, perform call (.nextName o c) s = .ok (.int (Int32.ofNat c)) s₁ ∧
      perform call (.nextValue o c) s₁ = .ok (.int (Int32.ofNat byte.toNat)) s₂ ∧
      s₂.budget = s.budget - 2 ∧ s₂.world.Sound ∧ s₂.world.Staffed ∧
      SameContents s.world s₂.world := by
  have hc : c < b.length := by
    rw [← ByteBuffer.length_toList]
    exact (List.getElem?_eq_some_iff.1 hbyte).1
  have hname : i.nextName c = .ok (.int (Int32.ofNat c)) := by
    unfold Instance.nextName
    rw [hbytes]
    exact if_pos hc
  have hvalue : i.nextValue c = .ok (.int (Int32.ofNat byte.toNat)) := by
    unfold Instance.nextValue
    rw [hbytes]
    simp only [ByteBuffer.get?_eq, hbyte]
  exact perform_visit hcall hs hst hb hi hname hvalue

theorem namesByte (call : Caller) (hs : s.world.Sound) (hb : 0 < s.budget)
    (hi : s.world.instance? o = some i) (hbytes : i.backing = .bytes b)
    (hbyte : b.toList[c]? = some byte) (names : Naming) (ns : String) :
    NamesByte call s o i c byte ns (Key.classifyValue names (.int (Int32.ofNat c)) ns) := by
  constructor
  case index =>
    intro hc
    have hword : (UInt32.ofNat c).toNat = c :=
      UInt32.toNat_ofNat_of_lt' (Nat.lt_trans hc (by decide))
    rw [Key.classifyValue_cursor names ns hc]
    refine ⟨?_, perform_get_index hs hb hi hbytes rfl (by rwa [hword])⟩
    simp [Instance.place?, hbytes, Backing.kind, hword]
  case text =>
    intro hle hlt
    rw [Key.classifyValue_lateCursor names ns hle hlt]
    refine ⟨rfl, fun n => ?_, fun name hname habsent => ?_⟩
    · simp [Instance.place?, hbytes, Backing.kind, Key.qualified, Key.text?]
    · have hread := Instance.read_named (t := s.world.classes) hbytes hname
      rw [habsent] at hread
      exact perform_finds_contents call hs hb (isValid_read hi (handles_qname hname))
        (.getNothing hi (Instance.unintercepted_of_bytes hbytes) hread)

end Run

theorem State.Reachable.enumeratesBytes {s : State} (h : s.Reachable) (depth : Nat) {o : ObjectId}
    {i : Instance} {b : ByteBuffer} (hi : s.world.instance? o = some i)
    (hbytes : i.backing = .bytes b) : EnumeratesBytes (callFunction depth) s o i b := by
  obtain ⟨hs, hst⟩ := h.sound
  have hsize : i.enumSize = b.length := by
    unfold Instance.enumSize
    rw [hbytes]
  refine ⟨hsize, fun c hc hbudget => ?_⟩
  rw [hsize, ← ByteBuffer.length_toList] at hc
  have hbyte := List.getElem?_eq_getElem hc
  obtain ⟨s₁, s₂, hrun₁, hrun₂, hbudget₂, hs₂, -, hsame⟩ := visit_byte_run
    (calls_callFunction depth) hs hst (Nat.lt_of_succ_lt hbudget) hi hbytes hbyte
  refine ⟨_, s₁, s₂, hbyte, hrun₁, hrun₂, hsame, fun ns => ?_⟩
  exact namesByte _ hs₂ (by omega) ((hsame.instance? o).trans hi) hbytes hbyte _ ns

def lateByte : Session :=
  .ask (.perform .look) fun w =>
  .ask (.perform (.instantiate w.core.byteArray none)) fun o =>
  .ask (.assign 0 (.object o)) fun _ =>
  .ask (.perform (.set o (Key.index 0x8000_0000) (.int 7))) fun _ => .done

theorem enumeratesBytes_lateByte :
    let start : State := ⟨World.initial.withPlaces 1, [], 9, []⟩
    let s : State := { start.afterRun (embed 1 lateByte) with budget := 9, interference := [] }
    ∃ i b, s.Reachable ∧ s.world.instance? 4 = some i ∧ i.backing = .bytes b ∧
      b.length = 0x8000_0001 ∧ EnumeratesBytes (callFunction 1) s 4 i b := by
  intro start s
  have h : s.Reachable := .embed (.core 1 9 []) 1 lateByte 9 []
  have hbytes : s.world.bytes? 4 = some ⟨some ⟨[(0x8000_0000, 0), (1, 7)]⟩, 0, false⟩ := by
    decide +kernel
  obtain ⟨i, hi, hb⟩ := World.bytes?_eq_some_iff.1 hbytes
  exact ⟨i, _, h, hi, hb, rfl, State.Reachable.enumeratesBytes h 1 hi hb⟩

/-- The name that is shown with the byte is not the one under which it is found. -/
theorem unnamedByte_lateByte :
    let start : State := ⟨World.initial.withPlaces 1, [], 9, []⟩
    let s : State := { start.afterRun (embed 1 lateByte) with budget := 9, interference := [] }
    let name : Value := .int (-0x8000_0000)
    ∃ i b s₁ s₂ s₃, s.Reachable ∧ s.world.instance? 4 = some i ∧ i.backing = .bytes b ∧
      0x8000_0000 < b.length ∧
      perform (callFunction 1) (.nextName 4 0x8000_0000) s = .ok name s₁ ∧
      perform (callFunction 1) (.nextValue 4 0x8000_0000) s₁ = .ok (.int 7) s₂ ∧
      perform (callFunction 1) (.get 4 (Key.classifyValue s.world.naming name "")) s =
        .ok (Except.ok none) s₃ := by
  intro start s name
  have h : s.Reachable := .embed (.core 1 9 []) 1 lateByte 9 []
  obtain ⟨hs, hst⟩ := h.sound
  obtain ⟨b, hbytes, hlength, hbyte⟩ : ∃ b, s.world.bytes? 4 = some b ∧
      b.length = 0x8000_0001 ∧ b.get? 0x8000_0000 = some 7 :=
    ⟨⟨some ⟨[(0x8000_0000, 0), (1, 7)]⟩, 0, false⟩, by decide +kernel, rfl, rfl⟩
  rw [ByteBuffer.get?_eq] at hbyte
  obtain ⟨i, hi, hb⟩ := World.bytes?_eq_some_iff.1 hbytes
  have habsent : (s.world.instance? 4).all fun i =>
      i.lookup s.world.classes ⟨"", "-2147483648"⟩ == .absent := by decide +kernel
  rw [hi, Option.all_some, beq_iff_eq] at habsent
  obtain ⟨s₁, s₂, hrun₁, hrun₂, -⟩ :=
    visit_byte_run (calls_callFunction 1) hs hst (by decide) hi hb hbyte
  obtain ⟨s₃, hrun₃, -⟩ := ((namesByte (callFunction 1) hs (by decide) hi hb hbyte
    s.world.naming "").text (Nat.le_refl _) (by decide)).2.2 _ rfl habsent
  exact ⟨i, b, s₁, s₂, s₃, h, hi, hb, by omega, hrun₁, hrun₂, hrun₃⟩

end ScriptPlayer
