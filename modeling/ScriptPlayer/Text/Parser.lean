/-! Parsers on lists of characters: a result and the rest of the input, or nothing. Alternatives go
back to where they began. -/
namespace ScriptPlayer

abbrev Parser := StateT (List Char) Option

namespace Parser

variable {α β : Type}

def peek? : Parser (Option Char) := fun cs => some (cs.head?, cs)

def satisfy (p : Char → Bool) : Parser Char
  | [] => none
  | c :: cs => if p c then some (c, cs) else none

def char (c : Char) : Parser Unit := discard (satisfy (· == c))

def literal (s : String) : Parser Unit := fun cs =>
  if s.toList.isPrefixOf cs then some ((), cs.drop s.length) else none

def takeWhile (p : Char → Bool) : Parser (List Char) := fun cs =>
  some (cs.takeWhile p, cs.dropWhile p)

def takeWhile1 (p : Char → Bool) : Parser (List Char) := do
  let c ← satisfy p
  return c :: (← takeWhile p)

def count (p : Char → Bool) : Nat → Parser (List Char)
  | 0 => return []
  | n + 1 => do
    let c ← satisfy p
    return c :: (← count p n)

def option (p : Parser α) : Parser (Option α) := (some <$> p) <|> return none

def atMost (p : Parser α) : Nat → Parser (List α)
  | 0 => return []
  | n + 1 => do
    match ← option p with
    | some a => return a :: (← atMost p n)
    | none => return []

/-- As often as possible. A parser that takes something each time cannot succeed more often than
there are characters. -/
def many (p : Parser α) : Parser (List α) := fun cs => atMost p cs.length cs

def sepBy1 (p : Parser α) (sep : Parser β) : Parser (List α) := do
  let a ← p
  return a :: (← many (sep *> p))

def sepBy (p : Parser α) (sep : Parser β) : Parser (List α) := sepBy1 p sep <|> return []

def refine (p : Parser α) (f : α → Option β) : Parser β := do
  match f (← p) with
  | some b => return b
  | none => failure

def endOfInput : Parser Unit := fun cs => if cs.isEmpty then some ((), cs) else none

def run? (p : Parser α) (text : String) : Option α := (p text.toList).map Prod.fst

end Parser

end ScriptPlayer
