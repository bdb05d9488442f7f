/-! Qualified names: a namespace and a local name. -/
namespace ScriptPlayer

structure QName where
  ns : String
  name : String
deriving DecidableEq, Inhabited

namespace QName

def pub (name : String) : QName := ⟨"", name⟩

def toText (q : QName) : String := if q.ns = "" then q.name else q.ns ++ "::" ++ q.name

def splitLast (sep : List Char) : List Char → Option (List Char × List Char)
  | [] => none
  | c :: cs =>
    match splitLast sep cs with
    | some (before, after) => some (c :: before, after)
    | none =>
      if sep.isPrefixOf (c :: cs) then some ([], (c :: cs).drop sep.length) else none

/-- The name that a text denotes: split at the last `::`, else at the last point, else public. -/
def parse (text : String) : QName :=
  match splitLast [':', ':'] text.toList with
  | some (ns, name) => ⟨String.ofList ns, String.ofList name⟩
  | none =>
    match splitLast ['.'] text.toList with
    | some (ns, name) => ⟨String.ofList ns, String.ofList name⟩
    | none => pub text

end QName

end ScriptPlayer
