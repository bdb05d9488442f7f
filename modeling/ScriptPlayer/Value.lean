import ScriptPlayer.Number.Decimal
import ScriptPlayer.QName
import ScriptPlayer.Text.Blank

/-! Script values, their conversions to numbers, integers and text, and strict equality. -/
namespace ScriptPlayer

abbrev ObjectId := Nat
abbrev FunctionId := Nat
abbrev ClassId := Nat

/-- Objects, functions and classes are handles, told apart by identity. -/
inductive Value
  | undefined
  | null
  | bool (b : Bool)
  | int (i : Int32)
  | number (x : Binary64)
  | string (s : String)
  | object (id : ObjectId)
  | function (id : FunctionId)
  | classRef (id : ClassId)
deriving DecidableEq, Inhabited

structure Naming where
  classOf : ObjectId → QName
  className : ClassId → QName
  classDepth : ClassId → Nat
  functionName : FunctionId → String

namespace Value

def typeName : Value → String
  | undefined => "void"
  | null => "null"
  | bool _ => "Boolean"
  | int _ => "int"
  | number _ => "Number"
  | string _ => "String"
  | object _ => "Object"
  | function _ => "Function"
  | classRef _ => "Class"

def isUndefined : Value → Bool
  | undefined => true
  | _ => false

/-- Blank text is zero and text that is no numeral is not a number; handles are not numbers. -/
def toNumber : Value → Binary64
  | undefined => .nan
  | null => .zero false
  | bool b => .ofNat b.toNat
  | int i => .ofInt i.toInt
  | number x => x
  | string s =>
    let t := trimBlank s
    if t = "" then .zero false else (Binary64.parse? t).getD .nan
  | object _ | function _ | classRef _ => .nan

def intModulus : Binary64 := .ofNat UInt32.size

/-- A number's integer part wrapped into 32 bits: the non-negative remainder by 2^32, read as a
signed word. -/
def wrapToInt (x : Binary64) : Int32 :=
  if x.isFinite then (Binary64.remEuclid x.trunc intModulus).toUInt32.toInt32 else 0

def toInt : Value → Int32
  | int i => i
  | v => wrapToInt v.toNumber

def textLimit : Binary64 := .ofNat (Nat.pow 10 21)

/-- Text of a number: integral ones below 10^21 go through a clamped 64-bit integer. -/
def numberText (x : Binary64) : String :=
  if x.isNaN then "NaN"
  else if x.isInfinite then (if x.negative then "-Infinity" else "Infinity")
  else if x.isIntegral && x.abs.lt textLimit then toString x.toInt64
  else x.toText

def toText (names : Naming) : Value → String
  | undefined => "undefined"
  | null => "null"
  | bool b => if b then "true" else "false"
  | int i => toString i.toInt
  | number x => numberText x
  | string s => s
  | object o => "[object " ++ (names.classOf o).name ++ "]"
  | function _ => "function Function() \x7b\x7d"
  | classRef c => "[class " ++ (names.className c).name ++ "]"

/-- Equality without conversion, save that integers and numbers compare by value. -/
def strictEq : Value → Value → Bool
  | undefined, undefined => true
  | null, null => true
  | bool a, bool b => a == b
  | int a, int b => a == b
  | int a, number b => (Binary64.ofInt a.toInt).eq b
  | number a, int b => (Binary64.ofInt b.toInt).eq a
  | number a, number b => a.eq b
  | string a, string b => a == b
  | object a, object b => a == b
  | function a, function b => a == b
  | classRef a, classRef b => a == b
  | _, _ => false

/-- The heap cell that a value is a handle to. Classes live in a table of their own and are never
given up. -/
def cell? : Value → Option Nat
  | object id => some id
  | function id => some id
  | _ => none

end Value

/-- A value as it is shown once: handles give way to what is known of the thing at that moment, so
a snapshot keeps nothing alive. -/
inductive Snapshot
  | undefined
  | null
  | bool (b : Bool)
  | int (i : Int32)
  | number (x : Binary64)
  | string (s : String)
  | object (id : ObjectId) (cls : QName)
  | function (name : String)
  | classRef (name : QName)
deriving DecidableEq

def Value.snapshot (names : Naming) : Value → Snapshot
  | undefined => .undefined
  | null => .null
  | bool b => .bool b
  | int i => .int i
  | number x => .number x
  | string s => .string s
  | object o => .object o (names.classOf o)
  | function f => .function (names.functionName f)
  | classRef c => .classRef (names.className c)

end ScriptPlayer
