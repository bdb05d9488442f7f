import ScriptPlayer.Proofs.Player.Accounts
import ScriptPlayer.Proofs.Run.Bytes

/-! Whatever has happened before, the indices of an instance with byte storage are the places of a
list of bytes, and its qualified names are no part of that list. -/
namespace ScriptPlayer

open Run

/-- What accesses to an instance with the storage `b` do. -/
structure ByteStore (call : Caller) (s : State) (o : ObjectId) (i : Instance) (b : ByteBuffer) :
    Prop where
  /-- a write stores one byte; the read position, the slots and all other cells stay -/
  set : ∀ key n v, key.name = .index n → s.world.isValid v → n.toNat < b.length ∨ b.fixed = false →
    ∃ new s', perform call (.set o key v) s = .ok (Except.ok ()) s' ∧
      ByteBuffer.Written b.toList new.toList n.toNat (Instance.toByte v) ∧
      s.world.Replaces s'.world o { i with backing := .bytes { b with bytes := some new } }
  set_aborts : ∀ key n v, key.name = .index n → s.world.isValid v → b.length ≤ n.toNat →
    b.fixed = true → ∃ s', perform call (.set o key v) s =
      .error (.abort (.fixedByteIndex n.toNat b.length)) s' ∧ SameContents s.world s'.world
  byte : ∀ v, ((Instance.toByte v).toNat : Int) =
    if v.isUndefined then 0 else v.toInt.toInt % 256
  get : ∀ key n byte, key.name = .index n → b.toList[n.toNat]? = some byte →
    ∃ s', perform call (.get o key) s =
      .ok (Except.ok (some (.int (Int32.ofNat byte.toNat)))) s' ∧ SameContents s.world s'.world
  get_aborts : ∀ key n, key.name = .index n → b.length ≤ n.toNat →
    ∃ s', perform call (.get o key) s = .error (.abort (.byteIndex n.toNat b.length)) s' ∧
      SameContents s.world s'.world
  delete : ∀ key n, key.name = .index n → ∃ s', perform call (.delete o key) s =
    .ok (Except.ok false) s' ∧ SameContents s.world s'.world
  /-- a name without a trait is no index, even if it is made of digits -/
  set_named : ∀ key name v, key.qname? = some name → i.hasTrait s.world.classes name = false →
    s.world.isValid v → ∃ s', perform call (.set o key v) s = .ok (Except.ok ()) s' ∧
      ∀ j, s'.world.instance? o = some j → j.backing = .bytes b
  get_named : ∀ key name, key.qname? = some name → i.hasTrait s.world.classes name = false →
    ∃ found s', perform call (.get o key) s = .ok (Except.ok found) s' ∧
      SameContents s.world s'.world
  delete_named : ∀ key name, key.qname? = some name → i.hasTrait s.world.classes name = false →
    ∃ s', perform call (.delete o key) s = .ok (Except.ok (i.slots.contains name)) s' ∧
      ∀ j, s'.world.instance? o = some j → j.backing = .bytes b
  /-- what is held is there after the access -/
  stays : s.world.Holds (.object o) → ∀ (op : Op) (reply : op.Reply) s', op.isDrop = false →
    perform call op s = .ok reply s' → ∃ j, s'.world.instance? o = some j

theorem State.Reachable.byteStore {s : State} (h : s.Reachable) (depth : Nat) (hb : 0 < s.budget)
    {o : ObjectId} {i : Instance} {b : ByteBuffer} (hi : s.world.instance? o = some i)
    (hbytes : i.backing = .bytes b) : ByteStore (callFunction depth) s o i b := by
  obtain ⟨hs, hst⟩ := h.sound
  have hcall := calls_callFunction depth
  constructor
  case set =>
    intro key n v hk hv hroom
    exact perform_set_index hs hb hi hbytes hk hv hroom
  case set_aborts =>
    intro key n v hk hv hle hfixed
    exact perform_set_index_aborts hb hi hbytes hk hv hle hfixed
  case byte => exact Instance.toNat_toByte
  case get =>
    intro key n byte hk hbyte
    exact perform_get_index hs hb hi hbytes hk hbyte
  case get_aborts =>
    intro key n hk hle
    exact perform_get_index_aborts hb hi hbytes hk hle
  case delete =>
    intro key n hk
    exact perform_delete_index hs hb hi hbytes hk
  case set_named =>
    intro key name v hk htrait hv
    exact perform_set_named hs hb hi hbytes hk hcall hst hv
      (Instance.traits_of_not_hasTrait htrait).2
  case get_named =>
    intro key name hk htrait
    exact perform_get_named hs hb hi hbytes hk (Instance.traits_of_not_hasTrait htrait).1
  case delete_named =>
    intro key name hk htrait
    exact perform_delete_named hs hb hi hbytes hk hcall hst htrait
  case stays =>
    intro ho op reply s' hdrop hrun
    exact (exists_instance_of_perform hcall hs hst ho hdrop hrun).2.2.2.2

def growBytes : Session :=
  .ask (.perform .look) fun w =>
  .ask (.perform (.instantiate w.core.byteArray none)) fun o =>
  .ask (.perform (.set o (Key.index 2) (.int 513))) fun _ =>
  .ask (.assign 0 (.object o)) fun _ => .done

theorem byteStore_growBytes :
    let start : State := ⟨World.initial.withPlaces 1, [], 3, []⟩
    let s : State := { start.afterRun (embed 1 growBytes) with budget := 1, interference := [] }
    ∃ i b, s.Reachable ∧ 0 < s.budget ∧ s.world.instance? 4 = some i ∧ i.backing = .bytes b ∧
      b.toList = [0, 0, 1] ∧ ByteStore (callFunction 1) s 4 i b := by
  intro start s
  have h : s.Reachable := .embed (.core 1 3 []) 1 growBytes 1 []
  have hbytes : ((s.world.instance? 4).bind fun i => i.byteBuffer.toOption) =
      some ⟨some ⟨[(2, 0), (1, 1)]⟩, 0, false⟩ := by decide +kernel
  obtain ⟨i, hi, hb⟩ := Option.bind_eq_some_iff.1 hbytes
  cases hbuffer : i.byteBuffer with
  | error f =>
    rw [hbuffer] at hb
    cases hb
  | ok b =>
    rw [hbuffer] at hb
    obtain rfl := Option.some.inj hb
    have hback := Instance.backing_of_byteBuffer hbuffer
    exact ⟨i, _, h, by decide, hi, hback, rfl, State.Reachable.byteStore h 1 (by decide) hi hback⟩

end ScriptPlayer
