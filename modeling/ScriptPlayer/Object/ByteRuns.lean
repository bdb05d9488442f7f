/-! Bytes as runs of equal ones. A gap takes no more room than a byte, however long it is, so that
the last of very many bytes can be stored by itself. -/
namespace ScriptPlayer

/-- Bytes in order, each with the number of times that it is repeated. -/
structure ByteRuns where
  runs : List (Nat × UInt8)
deriving DecidableEq

namespace ByteRuns

def empty : ByteRuns := ⟨[]⟩

def replicate (n : Nat) (byte : UInt8) : ByteRuns := ⟨if n = 0 then [] else [(n, byte)]⟩

def ofList (bytes : List UInt8) : ByteRuns := ⟨bytes.map fun byte => (1, byte)⟩

def toList (r : ByteRuns) : List UInt8 := r.runs.flatMap fun (n, byte) => List.replicate n byte

def length (r : ByteRuns) : Nat := r.runs.foldr (fun run n => run.1 + n) 0

def append (r r' : ByteRuns) : ByteRuns := ⟨r.runs ++ r'.runs⟩

instance : Append ByteRuns := ⟨append⟩

def get? (r : ByteRuns) (i : Nat) : Option UInt8 := go r.runs i
where
  go : List (Nat × UInt8) → Nat → Option UInt8
    | [], _ => none
    | (n, byte) :: rest, i => if i < n then some byte else go rest (i - n)

def take (r : ByteRuns) (i : Nat) : ByteRuns := ⟨go r.runs i⟩
where
  go : List (Nat × UInt8) → Nat → List (Nat × UInt8)
    | [], _ => []
    | (n, byte) :: rest, i => if i ≤ n then [(i, byte)] else (n, byte) :: go rest (i - n)

def drop (r : ByteRuns) (i : Nat) : ByteRuns := ⟨go r.runs i⟩
where
  go : List (Nat × UInt8) → Nat → List (Nat × UInt8)
    | [], _ => []
    | (n, byte) :: rest, i => if i < n then (n - i, byte) :: rest else go rest (i - n)

def set (r : ByteRuns) (i : Nat) (byte : UInt8) : ByteRuns :=
  r.take i ++ replicate 1 byte ++ r.drop (i + 1)

end ByteRuns

end ScriptPlayer
