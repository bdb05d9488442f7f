import ScriptPlayer.Value
import ScriptPlayer.Text.Quoted

/-! Property keys. A key is classified once, as a qualified name, an index or an object identity,
and that kind decides how an access is resolved. -/
namespace ScriptPlayer

inductive KeyName
  | qualified (name : String)
  | index (i : UInt32)
  | identity (o : ObjectId)
deriving DecidableEq

/-- A namespace, one of the three kinds of name, and the source text of an index. -/
structure Key where
  ns : String
  name : KeyName
  spelling : Option String
deriving DecidableEq

namespace Key

def qualified (name ns : String) : Key := ⟨ns, .qualified name, none⟩

def pub (name : String) : Key := qualified name ""

def index (i : UInt32) : Key := ⟨"", .index i, none⟩

def identity (o : ObjectId) : Key := ⟨"", .identity o, none⟩

def ofQName (q : QName) : Key := ⟨q.ns, .qualified q.name, none⟩

def qname? (k : Key) : Option QName :=
  match k.name with
  | .qualified name => some ⟨k.ns, name⟩
  | _ => none

def indexText (i : UInt32) : String := Nat.repr i.toNat

/-- The text of an index key: as it was spelled, else in decimal. -/
def indexSpelling? (k : Key) : Option String :=
  match k.name with
  | .index i => some (k.spelling.getD (indexText i))
  | _ => none

def localName (names : Naming) (k : Key) : String :=
  match k.name with
  | .qualified name => name
  | .index i => k.spelling.getD (indexText i)
  | .identity o => (Value.object o).toText names

/-- An index is a non-empty run of decimal digits below 2^32. -/
def parseIndex? (raw : String) : Option UInt32 :=
  let cs := raw.toList
  if cs.isEmpty || !cs.all Char.isDigit then none
  else
    let n := numeral 10 cs
    if n < UInt32.size then some (UInt32.ofNat n) else none

def classify (raw ns : String) : Key :=
  match parseIndex? raw with
  | some i => ⟨ns, .index i, some raw⟩
  | none => qualified raw ns

def isIndexNumber (x : Binary64) : Bool :=
  (Binary64.zero false).le x && x.isIntegral && x.le (.ofNat 0xFFFF_FFFF)

/-- The key that a value denotes: objects by identity, whole numbers as indices, anything else by
its text. -/
def classifyValue (names : Naming) (v : Value) (ns : String) : Key :=
  match v with
  | .object o => ⟨ns, .identity o, none⟩
  | .string s => classify s ns
  | .int i =>
    if 0 ≤ i.toInt then ⟨ns, .index i.toUInt32, none⟩ else qualified (v.toText names) ns
  | .number x =>
    if isIndexNumber x then ⟨ns, .index x.toUInt32, none⟩ else qualified (v.toText names) ns
  | _ => qualified (v.toText names) ns

def handles (k : Key) : List Value :=
  match k.name with
  | .identity o => [.object o]
  | _ => []

end Key

namespace Value

def describe (names : Naming) : Value → String
  | undefined => "undefined"
  | null => "null"
  | bool b => "bool(" ++ (if b then "true" else "false") ++ ")"
  | int i => "int(" ++ toString i.toInt ++ ")"
  | number x => "number(" ++ x.toText ++ ")"
  | string s => "string(" ++ quote s ++ ")"
  | object o => "object(" ++ (names.classOf o).toText ++ "@*, rc=*)"
  | function f => "function(" ++ names.functionName f ++ ")"
  | classRef c =>
    "class(" ++ (names.className c).toText ++ ", depth=" ++ toString (names.classDepth c) ++ ")"

end Value

def Key.describe (names : Naming) (k : Key) : String :=
  (if k.ns = "" then "" else k.ns ++ "::") ++
    match k.name with
    | .qualified name => name
    | .index i => "[" ++ Key.indexText i ++ "]"
    | .identity o => "[" ++ (Value.object o).describe names ++ "]"

end ScriptPlayer
