import ScriptPlayer.Fault
import ScriptPlayer.Object.ByteRuns

/-! A byte buffer with a read position. It is unallocated until first written or acquired; a fixed
one never grows. -/
namespace ScriptPlayer

structure ByteBuffer where
  bytes : Option ByteRuns
  position : Nat
  fixed : Bool
deriving DecidableEq

namespace ByteBuffer

def empty : ByteBuffer := ⟨none, 0, false⟩

def ofLength (n : Nat) : ByteBuffer := ⟨some (.replicate n 0), 0, true⟩

def stored (b : ByteBuffer) : ByteRuns := b.bytes.getD .empty

def toList (b : ByteBuffer) : List UInt8 := b.stored.toList

def length (b : ByteBuffer) : Nat := b.stored.length

def isEmpty (b : ByteBuffer) : Bool := b.length == 0

def isGrowable (b : ByteBuffer) : Bool := !b.fixed

def setPosition (b : ByteBuffer) (n : Nat) : ByteBuffer := { b with position := n }

def available (b : ByteBuffer) : Nat := b.length - b.position

def adopt (b : ByteBuffer) (bytes : List UInt8) : ByteBuffer :=
  { b with bytes := some (.ofList bytes), position := 0 }

/-- Storage for a producer: an unallocated buffer gets `n` zero bytes, an allocated one must be at
least that long and keeps its length. -/
def acquire (b : ByteBuffer) (n : Nat) : Except Fatal ByteBuffer :=
  let bytes := b.bytes.getD (.replicate n 0)
  if n ≤ bytes.length then .ok { b with bytes := some bytes }
  else .error (.bufferTooSmall bytes.length n)

def fill (b : ByteBuffer) (chunk : List UInt8) : Except Fatal ByteBuffer :=
  (b.acquire chunk.length).map fun b =>
    { b with bytes := some (.ofList chunk ++ b.stored.drop chunk.length) }

def get? (b : ByteBuffer) (i : Nat) : Option UInt8 := b.stored.get? i

def get (b : ByteBuffer) (i : Nat) : Except Fatal UInt8 :=
  match b.get? i with
  | some byte => .ok byte
  | none => .error (.byteIndex i b.length)

/-- Write one byte. Past the end of a growable buffer the gap is filled with zeros. -/
def set (b : ByteBuffer) (i : Nat) (byte : UInt8) : Except Fatal ByteBuffer :=
  if i < b.length then .ok { b with bytes := some (b.stored.set i byte) }
  else if b.fixed then .error (.fixedByteIndex i b.length)
  else
    .ok { b with bytes := some (b.stored ++ .replicate (i - b.length) 0 ++ .replicate 1 byte) }

/-- Read `n` bytes at the position and move past them. Only the offset zero is supported. -/
def take (b : ByteBuffer) (offset n : Nat) : Except Fatal (List UInt8 × ByteBuffer) :=
  if offset ≠ 0 then .error .copyOffset
  else if b.position + n ≤ b.length then
    .ok (((b.stored.drop b.position).take n).toList, b.setPosition (b.position + n))
  else .error .sliceRange

end ByteBuffer

inductive ByteEdit
  | adopt (bytes : List UInt8)
  | acquire (size : Nat)
  | fill (bytes : List UInt8)
  | set (index : Nat) (byte : UInt8)
  | seek (position : Nat)
deriving DecidableEq

def ByteBuffer.edit (b : ByteBuffer) : ByteEdit → Except Fatal ByteBuffer
  | .adopt bytes => .ok (b.adopt bytes)
  | .acquire size => b.acquire size
  | .fill bytes => b.fill bytes
  | .set index byte => b.set index byte
  | .seek position => .ok (b.setPosition position)

end ScriptPlayer
