import ScriptPlayer.Text.Digits
import ScriptPlayer.Text.Visible

/-! Text as diagnostics quote it: double quotes, with escapes for quotes, backslashes and characters
that would not show. -/
namespace ScriptPlayer

def quoteChar (c : Char) : String :=
  if c = '"' then "\\\""
  else if c = '\\' then "\\\\"
  else if c = '\n' then "\\n"
  else if c = '\r' then "\\r"
  else if c = '\t' then "\\t"
  else if c.toNat = 0 then "\\0"
  else if isVisible c then String.singleton c
  else "\\u\x7b" ++ hexText c.toNat ++ "\x7d"

def quote (s : String) : String := "\"" ++ String.join (s.toList.map quoteChar) ++ "\""

end ScriptPlayer
