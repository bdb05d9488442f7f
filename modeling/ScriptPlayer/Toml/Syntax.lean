import ScriptPlayer.Number.Decimal
import ScriptPlayer.Text.Digits
import ScriptPlayer.Text.Parser
import ScriptPlayer.Toml.Item

/-! The grammar of TOML 1.0. Keys have fewer than 80 parts and values are nested less than 80
levels deep. -/
namespace ScriptPlayer.Toml

open ScriptPlayer.Parser

def isWhite (c : Char) : Bool := c == ' ' || c == '\t'

def isNonAscii (c : Char) : Bool := decide (0x80 ≤ c.toNat)

def isPrintable (c : Char) : Bool :=
  c == '\t' || isNonAscii c || (decide (0x20 ≤ c.toNat) && decide (c.toNat < 0x7f))

def white : Parser Unit := discard (takeWhile isWhite)

def newline : Parser Unit := char '\n' <|> literal "\r\n"

def comment : Parser Unit := do
  char '#'
  discard (takeWhile isPrintable)

def lineEnd : Parser Unit := do
  white
  discard (option comment)
  newline <|> endOfInput

/-- White space, line breaks and comments, as they may stand in an array. -/
def filler : Parser Unit := do
  white
  discard <| many do
    discard (option comment)
    newline
    white

/-! Strings -/

def scalar? (n : Nat) : Option Char := if n.isValidChar then some (Char.ofNat n) else none

def escape : Parser Char := do
  char '\\'
  match ← satisfy fun _ => true with
  | 'b' => return '\x08'
  | 't' => return '\t'
  | 'n' => return '\n'
  | 'f' => return '\x0c'
  | 'r' => return '\r'
  | '"' => return '"'
  | '\\' => return '\\'
  | 'u' => refine (count isHexDigit 4) fun ds => scalar? (numeral 16 ds)
  | 'U' => refine (count isHexDigit 8) fun ds => scalar? (numeral 16 ds)
  | _ => failure

def isBasicChar (c : Char) : Bool := isPrintable c && c != '"' && c != '\\'

def isLiteralChar (c : Char) : Bool := isPrintable c && c != '\''

def basicString : Parser String := do
  char '"'
  let cs ← many (satisfy isBasicChar <|> escape)
  char '"'
  return String.ofList cs

def literalString : Parser String := do
  char '\''
  let cs ← takeWhile isLiteralChar
  char '\''
  return String.ofList cs

/-- A backslash at the end of a line, which takes the break and the white space after it. -/
def lineContinuation : Parser (List Char) := do
  char '\\'
  white
  newline
  discard (many (discard (satisfy isWhite) <|> newline))
  return []

def lineBreak : Parser (List Char) := do
  newline
  return ['\n']

def fewQuotes (quote : Char) (piece : Parser (List Char)) : Parser (List Char) := do
  let quotes ← (literal (String.ofList [quote, quote]) *> pure [quote, quote])
    <|> (char quote *> pure [quote])
  return quotes ++ (← piece)

/-- A string between three quotes. The closing quotes may follow up to two quotes that belong to
the string. -/
def multiline (quote : Char) (piece : Parser (List Char)) : Parser String := do
  let delimiter := String.ofList [quote, quote, quote]
  literal delimiter
  discard (option newline)
  let cs ← many (piece <|> fewQuotes quote piece)
  let closing ← takeWhile (· == quote)
  if 3 ≤ closing.length ∧ closing.length ≤ 5 then
    return String.ofList (cs.flatten ++ closing.drop 3)
  else failure

def single (p : Parser Char) : Parser (List Char) := (fun c => [c]) <$> p

def multilineBasic : Parser String :=
  multiline '"' (single (satisfy isBasicChar) <|> lineContinuation <|> single escape <|> lineBreak)

def multilineLiteral : Parser String :=
  multiline '\'' (single (satisfy isLiteralChar) <|> lineBreak)

def stringValue : Parser String :=
  multilineBasic <|> basicString <|> multilineLiteral <|> literalString

/-! Keys -/

def isBareChar (c : Char) : Bool := c.isAlphanum || c == '_' || c == '-'

def simpleKey : Parser String :=
  basicString <|> literalString <|> String.ofList <$> takeWhile1 isBareChar

def depthLimit : Nat := 80

def dottedKey : Parser DottedKey :=
  refine (sepBy1 (white *> simpleKey <* white) (char '.')) fun parts =>
    if parts.length < depthLimit then
      (parts.getLast?).map fun last => ⟨parts.dropLast, last⟩
    else none

/-! Numbers -/

def digits (p : Char → Bool) : Parser (List Char) := do
  let c ← satisfy p
  return c :: (← many (satisfy p <|> (char '_' *> satisfy p)))

def sign : Parser (List Char) :=
  Option.toList <$> option (satisfy fun c => c == '+' || c == '-')

def decimalText : Parser (List Char) := do
  let s ← sign
  let first ← satisfy Char.isDigit
  if first == '0' then return s ++ [first]
  return s ++ first :: (← many (satisfy Char.isDigit <|> (char '_' *> satisfy Char.isDigit)))

def fractionText : Parser (List Char) := do
  char '.'
  return '.' :: (← digits Char.isDigit)

def exponentText : Parser (List Char) := do
  let e ← satisfy fun c => c == 'e' || c == 'E'
  let s ← sign
  return e :: s ++ (← digits Char.isDigit)

/-- A float with a fraction or an exponent. One that overflows upwards is refused. -/
def decimalFloat : Parser Binary64 := do
  let whole ← decimalText
  let rest ← exponentText <|> (do
    let fraction ← fractionText
    return fraction ++ (← option exponentText).getD [])
  match Binary64.parse? (String.ofList (whole ++ rest)) with
  | some x => if x == .infinity false then failure else return x
  | none => failure

def specialFloat : Parser Binary64 := do
  let s ← sign
  let x ← (literal "inf" *> pure (Binary64.infinity false)) <|> (literal "nan" *> pure .nan)
  return if s == ['-'] then x.neg else x

def fitsInt64 (n : Int) : Option Int :=
  if Int64.minValue.toInt ≤ n ∧ n ≤ Int64.maxValue.toInt then some n else none

def radixInteger (lead : String) (base : Nat) (p : Char → Bool) : Parser Int := do
  literal lead
  refine (digits p) fun ds => fitsInt64 (numeral base ds)

def decimalInteger : Parser Int :=
  refine decimalText fun
    | '-' :: ds => fitsInt64 (-(numeral 10 ds : Int))
    | '+' :: ds => fitsInt64 (numeral 10 ds)
    | ds => fitsInt64 (numeral 10 ds)

def integer : Parser Int :=
  radixInteger "0x" 16 isHexDigit <|>
  radixInteger "0o" 8 (fun c => decide ('0' ≤ c) && decide (c ≤ '7')) <|>
  radixInteger "0b" 2 (fun c => c == '0' || c == '1') <|>
  decimalInteger

/-! Dates and times -/

def field (width least most : Nat) : Parser Nat :=
  refine (count Char.isDigit width) fun ds =>
    let n := numeral 10 ds
    if least ≤ n ∧ n ≤ most then some n else none

def isLeapYear (year : Nat) : Bool := year % 4 == 0 && (year % 100 != 0 || year % 400 == 0)

def daysIn (year month : Nat) : Nat :=
  if month = 2 then (if isLeapYear year then 29 else 28)
  else if month = 4 ∨ month = 6 ∨ month = 9 ∨ month = 11 then 30 else 31

def date : Parser Unit := do
  let year ← field 4 0 9999
  char '-'
  let month ← field 2 1 12
  char '-'
  discard (field 2 1 (daysIn year month))

def time : Parser Unit := do
  discard (field 2 0 23)
  char ':'
  discard (field 2 0 59)
  char ':'
  discard (field 2 0 60)
  discard <| option do
    char '.'
    takeWhile1 Char.isDigit

def offset : Parser Unit :=
  discard (satisfy fun c => c == 'Z' || c == 'z') <|> do
    discard (satisfy fun c => c == '+' || c == '-')
    discard (field 2 0 23)
    char ':'
    discard (field 2 0 59)

def datetime : Parser Unit :=
  (do
    date
    discard <| option do
      discard (satisfy fun c => c == 'T' || c == 't' || c == ' ')
      time
      option offset) <|> time

/-! Values -/

def scalar : Parser Item :=
  Item.string <$> stringValue <|>
  datetime *> pure .datetime <|>
  Item.float <$> decimalFloat <|>
  Item.float <$> specialFloat <|>
  Item.integer <$> integer <|>
  literal "true" *> pure (.boolean true) <|>
  literal "false" *> pure (.boolean false)

def array (value : Parser Item) : Parser Item := do
  char '['
  let items ← option (sepBy1 (filler *> value <* filler) (char ','))
  if items.isSome then discard (option (char ','))
  filler
  char ']'
  return .array (items.getD [])

def entry (value : Parser Item) : Parser (DottedKey × Item) := do
  let key ← dottedKey
  char '='
  white
  return (key, ← value)

def inlineTable (value : Parser Item) : Parser Item := do
  char '\x7b'
  let es ← refine (sepBy (entry value <* white) (char ',')) buildInline
  white
  char '\x7d'
  return .table .inline es

def value : Nat → Parser Item
  | 0 => scalar
  | depth + 1 => scalar <|> array (value depth) <|> inlineTable (value depth)

/-! Documents -/

def header : Parser Line := do
  char '['
  match ← peek? with
  | some '[' =>
    char '['
    let key ← dottedKey
    literal "]]"
    return .element key
  | _ =>
    let key ← dottedKey
    char ']'
    return .header key

def line : Parser Line := do
  match ← peek? with
  | some '#' =>
    comment
    newline <|> endOfInput
    return .blank
  | some '[' => header <* lineEnd
  | some '\n' | some '\r' =>
    newline
    return .blank
  | _ =>
    let (key, item) ← entry (value (depthLimit - 1))
    lineEnd
    return .entry key item

def document : Parser (List Line) := do
  discard (option (char '\ufeff'))
  white
  let lines ← many (line <* white)
  endOfInput
  return lines

def parse? (text : String) : Option Entries := (document.run? text).bind build

end ScriptPlayer.Toml
