/-! Binary64 numbers as sign, biased exponent and fraction. Every finite number is a whole number
of quanta of 2^-1074, so the operations compute exactly on naturals and round once at the end. -/
namespace ScriptPlayer

structure Binary64 where
  negative : Bool
  exponent : Fin 2048
  fraction : Fin 0x10_0000_0000_0000
deriving DecidableEq

namespace Binary64

def one : Nat := 1 <<< 1074

def isNaN (x : Binary64) : Bool := x.exponent.val == 2047 && x.fraction.val != 0

def isInfinite (x : Binary64) : Bool := x.exponent.val == 2047 && x.fraction.val == 0

def isFinite (x : Binary64) : Bool := x.exponent.val != 2047

/-- The magnitude in quanta. An infinity counts as the power of two after the largest finite
number, which makes it compare as it should. -/
def quanta (x : Binary64) : Nat :=
  if x.exponent.val = 0 then x.fraction.val
  else (0x10_0000_0000_0000 + x.fraction.val) <<< (x.exponent.val - 1)

def signedQuanta (x : Binary64) : Int :=
  if x.negative then -(x.quanta : Int) else x.quanta

def isZero (x : Binary64) : Bool := x.exponent.val == 0 && x.fraction.val == 0

def nan : Binary64 := ⟨false, 2047, 0x8_0000_0000_0000⟩

def infinity (negative : Bool) : Binary64 := ⟨negative, 2047, 0⟩

def zero (negative : Bool) : Binary64 := ⟨negative, 0, 0⟩

/-- Exponent and fraction read as one number grow with the magnitude; what is at or past the
infinity's place is the infinity. -/
def ofMagnitude (negative : Bool) (word : Nat) : Binary64 :=
  if word < 2047 * 0x10_0000_0000_0000 then
    ⟨negative, Fin.ofNat _ (word / 0x10_0000_0000_0000), Fin.ofNat _ word⟩
  else infinity negative

def roundDiv (num den : Nat) : Nat :=
  let q := num / den
  let r := num % den
  if 2 * r < den then q else if den < 2 * r then q + 1 else q + q % 2

/-- The number nearest to `num / den` quanta, a tie going to the even significand. A significand
rounded up to 2^53 carries into the exponent by itself. -/
def ofQuotient (negative : Bool) (num den : Nat) : Binary64 :=
  let shift := (num / den).log2 - 52
  ofMagnitude negative (shift * 0x10_0000_0000_0000 + roundDiv num (den <<< shift))

def ofQuanta (negative : Bool) (n : Nat) : Binary64 := ofQuotient negative n 1

def ofInt (i : Int) : Binary64 := ofQuanta (decide (i < 0)) (i.natAbs * one)

def ofNat (n : Nat) : Binary64 := ofInt n

def neg (x : Binary64) : Binary64 := { x with negative := !x.negative }

def abs (x : Binary64) : Binary64 := { x with negative := false }

/-- Equality of numbers: the zeros are equal, a NaN equals nothing. -/
def eq (x y : Binary64) : Bool :=
  !x.isNaN && !y.isNaN && x.signedQuanta == y.signedQuanta

def lt (x y : Binary64) : Bool :=
  !x.isNaN && !y.isNaN && decide (x.signedQuanta < y.signedQuanta)

def le (x y : Binary64) : Bool :=
  !x.isNaN && !y.isNaN && decide (x.signedQuanta ≤ y.signedQuanta)

/-- The integer part; the sign stays, also on a zero. -/
def trunc (x : Binary64) : Binary64 :=
  if x.isFinite then ofQuanta x.negative (x.quanta / one * one) else x

def isIntegral (x : Binary64) : Bool := x.isFinite && x.quanta % one == 0

def add (x y : Binary64) : Binary64 :=
  if x.isNaN || y.isNaN then nan
  else if x.isInfinite then (if y.isInfinite && x.negative != y.negative then nan else x)
  else if y.isInfinite then y
  else
    let s := x.signedQuanta + y.signedQuanta
    ofQuanta (decide (s < 0) || (s == 0 && x.negative && y.negative)) s.natAbs

def div (x y : Binary64) : Binary64 :=
  let negative := x.negative != y.negative
  if x.isNaN || y.isNaN then nan
  else if x.isInfinite then (if y.isInfinite then nan else infinity negative)
  else if y.isInfinite then zero negative
  else if y.isZero then (if x.isZero then nan else infinity negative)
  else ofQuotient negative (x.quanta * one) y.quanta

/-- Remainder of the truncating division, with the sign of the dividend. -/
def rem (x y : Binary64) : Binary64 :=
  if x.isNaN || y.isNaN || x.isInfinite || y.isZero then nan
  else if y.isInfinite then x
  else ofQuanta x.negative (x.quanta % y.quanta)

def remEuclid (x y : Binary64) : Binary64 :=
  let r := rem x y
  if lt r (zero false) then add r (abs y) else r

def clampToInt (x : Binary64) (lo hi : Int) : Int :=
  if x.isNaN then max lo (min hi 0)
  else
    let magnitude : Int := (x.quanta / one : Nat)
    max lo (min hi (if x.negative then -magnitude else magnitude))

def toUInt32 (x : Binary64) : UInt32 := UInt32.ofNat (x.clampToInt 0 0xFFFF_FFFF).toNat

def toInt64 (x : Binary64) : Int := x.clampToInt Int64.minValue.toInt Int64.maxValue.toInt

def toBits (x : Binary64) : Nat :=
  (if x.negative then 0x8000_0000_0000_0000 else 0) + x.exponent.val * 0x10_0000_0000_0000 +
    x.fraction.val

def ofBits (w : Nat) : Binary64 :=
  ⟨decide (w / 0x8000_0000_0000_0000 % 2 = 1), Fin.ofNat _ (w / 0x10_0000_0000_0000),
    Fin.ofNat _ w⟩

end Binary64

end ScriptPlayer
