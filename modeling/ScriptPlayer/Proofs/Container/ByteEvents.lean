import ScriptPlayer.Proofs.Container.ByteCopy

/-! What can happen to the storage of a byte array, and what each event may do to its length, its
flag and its bytes. Only the adoption of other contents is free to do anything. -/
namespace ScriptPlayer

inductive BytesEvent
  | elsewhere
  | read (index : Nat)
  /-- a write, a move of the position, or a change by the producer -/
  | edited (e : ByteEdit)
  /-- bytes are copied to another array -/
  | gave (n : Nat)
  /-- bytes are copied to the front, from whatever array -/
  | took (n : Nat)

namespace BytesEvent

def adopts : BytesEvent → Bool
  | edited (.adopt _) => true
  | _ => false

def request? : BytesEvent → Option Nat
  | edited (.acquire n) => some n
  | edited (.fill bytes) => some bytes.length
  | took n => some n
  | _ => none

def Covers (k : Nat) : BytesEvent → Prop
  | edited (.set n _) => k = n
  | edited (.fill bytes) => k < bytes.length
  | took n => k < n
  | _ => False

end BytesEvent

namespace ByteBuffer

inductive Undergoes (b : ByteBuffer) : BytesEvent → ByteBuffer → Prop
  | elsewhere : Undergoes b .elsewhere b
  | read (n : Nat) : Undergoes b (.read n) b
  | edited {e : ByteEdit} {b' : ByteBuffer} (h : b.edit e = .ok b') : Undergoes b (.edited e) b'
  | gave (n : Nat) : Undergoes b (.gave n) (b.setPosition (b.position + n))
  | took {n : Nat} {chunk : List UInt8} (p : Nat) (hn : chunk.length = n) (h : b.Fits n) :
      Undergoes b (.took n) ((b.setPosition p).filled chunk)

def Proper (b : ByteBuffer) : Prop := b.fixed = true → b.bytes.isSome

/-- How an event may change the length: a write at or past the end of a growable buffer, or the
request for storage that finds none. -/
inductive Outgrown (b : ByteBuffer) : BytesEvent → ByteBuffer → Prop
  | written {n : Nat} {byte : UInt8} {b' : ByteBuffer} (hfixed : b.fixed = false)
      (hn : b.length ≤ n) (hlength : b'.length = n + 1) :
      Outgrown b (.edited (.set n byte)) b'
  | allocated {e : BytesEvent} {n : Nat} {b' : ByteBuffer} (he : e.request? = some n)
      (hnone : b.bytes = none) (hsome : b'.bytes.isSome) (hlength : b'.length = n) :
      Outgrown b e b'

theorem proper_empty : empty.Proper := nofun

theorem proper_ofLength (n : Nat) : (ofLength n).Proper := fun _ => rfl

theorem length_of_none {b : ByteBuffer} (h : b.bytes = none) : b.length = 0 := by
  rw [← length_toList, toList_of_none h]
  rfl

/-- What bytes at the front do to a buffer. -/
structure Serves (b : ByteBuffer) (n : Nat) (b' : ByteBuffer) : Prop where
  fixed : b'.fixed = b.fixed
  isSome : b'.bytes.isSome
  length : b'.length = if b.bytes.isSome then b.length else n
  rest : ∀ k, n ≤ k → b'.toList[k]? = b.toList[k]?

variable {b b' : ByteBuffer} {e : BytesEvent} {n : Nat}

theorem serves_filled {chunk : List UInt8} (hn : chunk.length = n) (h : b.Fits n) (p : Nat) :
    b.Serves n ((b.setPosition p).filled chunk) := by
  subst hn
  refine ⟨rfl, rfl, length_filled (b := b.setPosition p) h, fun k hk => ?_⟩
  rw [toList_filled, List.getElem?_append_right hk, List.getElem?_drop, Nat.add_sub_cancel' hk,
    toList_setPosition]

theorem serves_of_fill {chunk : List UInt8} (h : b.fill chunk = .ok b') :
    b.Serves chunk.length b' := by
  by_cases hfits : b.Fits chunk.length
  · rw [fill_of_fits hfits] at h
    obtain rfl := Except.ok.inj h
    exact serves_filled rfl hfits b.position
  · obtain ⟨hsome, hnarrow⟩ := not_fits_iff.1 hfits
    rw [fill_of_narrow hsome hnarrow] at h
    cases h

theorem acquire_eq_ok (h : b.acquire n = .ok b') :
    (b.bytes = none ∧ b' = { b with bytes := some (.replicate n 0) }) ∨
      (b.bytes.isSome ∧ b' = b) := by
  cases hb : b.bytes with
  | none =>
    rw [acquire_of_none hb] at h
    exact .inl ⟨rfl, (Except.ok.inj h).symm⟩
  | some bytes =>
    rw [acquire_of_some hb] at h
    split at h
    · exact .inr ⟨rfl, (Except.ok.inj h).symm⟩
    · cases h

theorem written_of_set {byte : UInt8} (h : b.set n byte = .ok b') :
    (n < b.length ∨ b.fixed = false) ∧ b'.fixed = b.fixed ∧ b'.bytes.isSome ∧
      Written b.toList b'.toList n byte := by
  by_cases hroom : n < b.length ∨ b.fixed = false
  · obtain ⟨new, hset, hwritten⟩ := exists_set hroom byte
    obtain rfl := Except.ok.inj (hset.symm.trans h)
    exact ⟨hroom, rfl, rfl, hwritten⟩
  · rw [not_or, Nat.not_lt, Bool.not_eq_false] at hroom
    rw [set_of_fixed hroom.1 hroom.2] at h
    cases h

theorem Serves.outgrown (h : b.Serves n b') (he : e.request? = some n) :
    b'.length = b.length ∨ b.Outgrown e b' := by
  cases hb : b.bytes with
  | none => exact .inr (.allocated he hb h.isSome (by rw [h.length, hb]; rfl))
  | some bytes => exact .inl (by rw [h.length, hb]; rfl)

structure Follows (b : ByteBuffer) (e : BytesEvent) (b' : ByteBuffer) : Prop where
  flag : b'.fixed = b.fixed
  allocated : b.bytes.isSome → b'.bytes.isSome
  outgrown : b'.length = b.length ∨ b.Outgrown e b'
  kept : ∀ k, k < b.length → ¬e.Covers k → b'.toList[k]? = b.toList[k]?

theorem Undergoes.follows (h : b.Undergoes e b') (he : e.adopts = false) : b.Follows e b' := by
  cases h with
  | elsewhere => exact ⟨rfl, id, .inl rfl, fun _ _ _ => rfl⟩
  | read => exact ⟨rfl, id, .inl rfl, fun _ _ _ => rfl⟩
  | gave => exact ⟨rfl, id, .inl rfl, fun _ _ _ => rfl⟩
  | took p hn hfits =>
    have hserves := serves_filled hn hfits p
    exact ⟨rfl, fun _ => rfl, hserves.outgrown rfl,
      fun k _ hk => hserves.rest k (Nat.le_of_not_lt hk)⟩
  | @edited edit _ h =>
    cases edit with
    | adopt bytes => cases he
    | acquire n =>
      rcases acquire_eq_ok h with ⟨hnone, rfl⟩ | ⟨hsome, rfl⟩
      · refine ⟨rfl, fun _ => rfl, .inr (.allocated rfl hnone rfl ?_), fun k hk _ => ?_⟩
        · exact ByteRuns.length_replicate n 0
        · rw [length_of_none hnone] at hk
          exact absurd hk (Nat.not_lt_zero k)
      · exact ⟨rfl, id, .inl rfl, fun _ _ _ => rfl⟩
    | fill chunk =>
      have hserves := serves_of_fill h
      exact ⟨hserves.fixed, fun _ => hserves.isSome, hserves.outgrown rfl,
        fun k _ hk => hserves.rest k (Nat.le_of_not_lt hk)⟩
    | set n byte =>
      obtain ⟨hroom, hflag, hsome, hwritten⟩ := written_of_set h
      refine ⟨hflag, fun _ => hsome, ?_, fun k hk hne =>
        hwritten.kept k (by rwa [length_toList]) hne⟩
      have hlength : b'.length = max b.length (n + 1) := by
        rw [← length_toList, hwritten.length, length_toList]
      by_cases hlt : n < b.length
      · exact .inl (by omega)
      · have hle := Nat.le_of_not_lt hlt
        exact .inr (.written (hroom.resolve_left hlt) hle (by omega))
    | seek p =>
      obtain rfl := Except.ok.inj h
      exact ⟨rfl, id, .inl rfl, fun _ _ _ => rfl⟩

theorem Undergoes.proper (h : b.Undergoes e b') (hb : b.Proper) : b'.Proper := by
  cases he : e.adopts with
  | false =>
    have hfollows := h.follows he
    intro hfixed
    exact hfollows.allocated (hb (hfollows.flag ▸ hfixed))
  | true =>
    cases h with
    | @edited edit _ h =>
      cases edit with
      | adopt bytes =>
        obtain rfl := Except.ok.inj h
        exact fun _ => rfl
      | _ => cases he
    | _ => cases he

/-- What becomes of a buffer over any number of events without an adoption. -/
structure Disciplined (b : ByteBuffer) (l : List BytesEvent) (b' : ByteBuffer) : Prop where
  grows : b.length ≤ b'.length
  flag : b'.fixed = b.fixed
  fixed : b.fixed = true → b'.length = b.length
  allocated : b.bytes.isSome → b'.bytes.isSome
  kept : ∀ k, k < b.length → (∀ e ∈ l, ¬e.Covers k) → b'.toList[k]? = b.toList[k]?

theorem Disciplined.refl (b : ByteBuffer) : b.Disciplined [] b :=
  ⟨Nat.le_refl _, rfl, fun _ => rfl, id, fun _ _ _ => rfl⟩

theorem Outgrown.length_le (h : b.Outgrown e b') : b.length ≤ b'.length := by
  cases h with
  | written _ hn hlength => omega
  | allocated _ hnone => rw [length_of_none hnone]; exact Nat.zero_le _

theorem Outgrown.not_fixed (h : b.Outgrown e b') (hb : b.Proper) : b.fixed = false := by
  cases h with
  | written hfixed => exact hfixed
  | allocated _ hnone =>
    refine Bool.eq_false_iff.2 fun hfixed => ?_
    have hsome := hb hfixed
    rw [hnone] at hsome
    cases hsome

theorem Disciplined.snoc {b₀ : ByteBuffer} {l : List BytesEvent} (h : b₀.Disciplined l b)
    (hb : b.Proper) (he : b.Follows e b') : b₀.Disciplined (l ++ [e]) b' where
  grows := by
    have hgrows := h.grows
    rcases he.outgrown with heq | hout
    · omega
    · exact Nat.le_trans hgrows hout.length_le
  flag := he.flag.trans h.flag
  fixed hfixed := by
    have hflag := h.flag.trans hfixed
    rcases he.outgrown with heq | hout
    · exact heq.trans (h.fixed hfixed)
    · exact absurd hflag (by rw [hout.not_fixed hb]; exact Bool.false_ne_true)
  allocated hsome := he.allocated (h.allocated hsome)
  kept k hk hnone := by
    have hkept := h.kept k hk fun e' he' => hnone e' (List.mem_append_left _ he')
    have hlast : ¬e.Covers k := hnone e (List.mem_append_right _ (List.mem_singleton_self e))
    exact (he.kept k (Nat.lt_of_lt_of_le hk h.grows) hlast).trans hkept

end ByteBuffer

end ScriptPlayer
