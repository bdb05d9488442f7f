import ScriptPlayer.Number.Binary64
import ScriptPlayer.Text.Digits

/-! Decimal numerals: reading one to the nearest binary64 number, and writing a number with the
fewest decimals that read back as it, always positionally. -/
namespace ScriptPlayer

structure Decimal where
  negative : Bool
  digits : Nat
  scale : Int
deriving DecidableEq

namespace Decimal

def toBinary64 (d : Decimal) : Binary64 :=
  .ofQuotient d.negative (d.digits * Nat.pow 10 d.scale.toNat * Binary64.one)
    (Nat.pow 10 (-d.scale).toNat)

def takeSign : List Char → Bool × List Char
  | '-' :: cs => (true, cs)
  | '+' :: cs => (false, cs)
  | cs => (false, cs)

/-- The number that an exponent's digits stand for. Once it has reached 65536 further digits are
ignored, which keeps powers of ten within reach. -/
def exponentValue (digits : List Char) : Nat :=
  digits.foldl (fun n c => if n < 65536 then 10 * n + digitValue c else n) 0

/-- The exponent part, which must end the numeral: nothing, or `e`, a sign and digits. -/
def readExponent : List Char → Option Int
  | [] => some 0
  | c :: cs =>
    if c = 'e' ∨ c = 'E' then
      let (negative, ds) := takeSign cs
      if ds.isEmpty || !ds.all Char.isDigit then none
      else some (if negative then -(exponentValue ds : Int) else exponentValue ds)
    else none

def ofDigits (negative : Bool) (digits : List Char) (scale : Int) : Decimal :=
  let significant := (digits.reverse.dropWhile (· == '0')).reverse
  ⟨negative, numeral 10 significant, scale + (digits.length - significant.length : Nat)⟩

/-- Digits with an optional point and exponent; one digit must stand before or after the point. -/
def readUnsigned (negative : Bool) (cs : List Char) : Option Decimal :=
  let whole := cs.takeWhile Char.isDigit
  let rest := cs.dropWhile Char.isDigit
  let tail := match rest with
    | '.' :: r => r
    | _ => []
  let fraction := tail.takeWhile Char.isDigit
  let rest := match rest with
    | '.' :: r => r.dropWhile Char.isDigit
    | r => r
  if whole.isEmpty && fraction.isEmpty then none
  else (readExponent rest).map fun e =>
    ofDigits negative (whole ++ fraction) (e - fraction.length)

end Decimal

namespace Binary64

def parse? (text : String) : Option Binary64 :=
  let (negative, cs) := Decimal.takeSign text.toList
  let word := String.ofList (cs.map Char.toLower)
  if word = "inf" ∨ word = "infinity" then some (infinity negative)
  else if word = "nan" then some nan
  else (Decimal.readUnsigned negative cs).map Decimal.toBinary64

def neighbours (num den : Nat) : List Nat :=
  let d := num / den
  if 2 * (num % den) < den then [d, d + 1] else [d + 1, d]

/-- The multiple of 10^-places, as a count, that reads back as `x`, the nearer one if two do. -/
def onFineGrid (x : Binary64) (places : Nat) : Option Nat :=
  (neighbours (x.quanta * Nat.pow 10 places) one).find? fun d =>
    ofQuotient x.negative (d * one) (Nat.pow 10 places) == x

def onCoarseGrid (x : Binary64) (zeros : Nat) : Option Nat :=
  (neighbours x.quanta (Nat.pow 10 zeros * one)).find? fun d =>
    ofQuanta x.negative (d * Nat.pow 10 zeros * one) == x

def shortestPlaces (x : Binary64) : Nat → Nat → Nat × Nat
  | 0, places => (places, x.quanta * Nat.pow 10 places / one)
  | fuel + 1, places =>
    match onFineGrid x places with
    | some d => (places, d)
    | none => shortestPlaces x fuel (places + 1)

/-- A multiple of the greatest power of ten, from `10^zeros` down, for which there is one, else the
whole number. -/
def roundestMultiple (multiple : Nat → Option Nat) (whole : Nat) : Nat → Nat
  | 0 => whole
  | zeros + 1 =>
    match multiple (zeros + 1) with
    | some d => d * Nat.pow 10 (zeros + 1)
    | none => roundestMultiple multiple whole zeros

def roundestInteger (x : Binary64) (zeros : Nat) : Nat :=
  roundestMultiple (onCoarseGrid x) (x.quanta / one) zeros

def fixedText (d places : Nat) : String :=
  let fraction := Nat.repr (d % Nat.pow 10 places)
  Nat.repr (d / Nat.pow 10 places) ++ "." ++
    String.ofList (List.replicate (places - fraction.length) '0') ++ fraction

/-- The magnitude with the fewest decimals that read back, never with an exponent. A number with a
fractional part has at least one decimal; every grid is exact after 1074 places. -/
def magnitudeText (x : Binary64) : String :=
  if x.isIntegral then Nat.repr (roundestInteger x 308)
  else
    let (places, d) := shortestPlaces x 1074 1
    fixedText d places

def toText (x : Binary64) : String :=
  if x.isNaN then "NaN"
  else
    let sign := if x.negative then "-" else ""
    if x.isInfinite then sign ++ "inf" else sign ++ magnitudeText x

end Binary64

end ScriptPlayer
