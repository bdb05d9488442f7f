/-! Digits of bases up to sixteen, and bytes written as two hexadecimal digits each. -/
namespace ScriptPlayer

def isHexDigit (c : Char) : Bool :=
  c.isDigit || (decide ('a' ≤ c) && decide (c ≤ 'f')) || (decide ('A' ≤ c) && decide (c ≤ 'F'))

def digitValue (c : Char) : Nat :=
  if c.isDigit then c.toNat - '0'.toNat
  else if 'a' ≤ c then c.toNat - 'a'.toNat + 10 else c.toNat - 'A'.toNat + 10

def numeral (base : Nat) (digits : List Char) : Nat :=
  digits.foldl (fun n c => n * base + digitValue c) 0

def hexText (n : Nat) : String := String.ofList (Nat.toDigits 16 n)

def hexWord (width n : Nat) : String :=
  let digits := Nat.toDigits 16 n
  String.ofList (List.replicate (width - digits.length) '0' ++ digits)

def hexOfBytes (bytes : List UInt8) : String :=
  String.join (bytes.map fun b => hexWord 2 b.toNat)

def bytesOfDigits : List Char → List UInt8
  | high :: low :: rest => UInt8.ofNat (numeral 16 [high, low]) :: bytesOfDigits rest
  | _ => []

def bytesOfHex (text : String) : List UInt8 := bytesOfDigits text.toList

end ScriptPlayer
