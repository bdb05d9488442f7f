import ScriptPlayer.Number.Binary64

/-! The values of a TOML document and how lines of the document build its tables. -/
namespace ScriptPlayer.Toml

inductive Origin
  /-- on the way to the table of a header -/
  | implicit
  /-- on the way to a dotted key -/
  | dotted
  /-- by a header of its own, or as an element of an array of tables -/
  | header
  /-- written as a value, which is complete -/
  | inline
deriving DecidableEq

inductive Item
  | string (s : String)
  | integer (i : Int)
  | float (x : Binary64)
  | boolean (b : Bool)
  | datetime
  | array (items : List Item)
  | table (origin : Origin) (entries : List (String × Item))
  /-- an array of tables, written by headers -/
  | tables (elements : List (List (String × Item)))

abbrev Entries := List (String × Item)

namespace Entries

def get? (es : Entries) (key : String) : Option Item := es.lookup key

def replace (es : Entries) (key : String) (item : Item) : Entries :=
  es.map fun e => if e.1 == key then (key, item) else e

def addNew (es : Entries) (key : String) (item : Item) : Option Entries :=
  if (es.get? key).isSome then none else some (es ++ [(key, item)])

/-- Give a value to a dotted key: only tables that headers or other dotted keys imply are passed
through, and the last of them must come from a dotted key. -/
def addDotted (es : Entries) (key : String) (item : Item) : List String → Option Entries
  | [] => es.addNew key item
  | p :: path =>
    match es.get? p with
    | none => do
      let sub ← addDotted [] key item path
      return es ++ [(p, .table .dotted sub)]
    | some (.table .dotted sub) => do
      let sub ← addDotted sub key item path
      return es.replace p (.table .dotted sub)
    | some (.table .implicit sub) =>
      if path.isEmpty then none
      else do
        let sub ← addDotted sub key item path
        return es.replace p (.table .implicit sub)
    | some (.tables elements) =>
      match path, elements.getLast? with
      | _ :: _, some last => do
        let last ← addDotted last key item path
        return es.replace p (.tables (elements.dropLast ++ [last]))
      | _, _ => none
    | some _ => none

/-- Change the entries of the table at a path of headers. An array of tables stands for its last
element; tables that are missing are implied. -/
def modifyAt (es : Entries) (f : Entries → Option Entries) : List String → Option Entries
  | [] => f es
  | p :: path =>
    match es.get? p with
    | none => do
      let sub ← modifyAt [] f path
      return es ++ [(p, .table .implicit sub)]
    | some (.table .inline _) => none
    | some (.table origin sub) => do
      let sub ← modifyAt sub f path
      return es.replace p (.table origin sub)
    | some (.tables elements) => do
      let last ← modifyAt (← elements.getLast?) f path
      return es.replace p (.tables (elements.dropLast ++ [last]))
    | some _ => none

/-- Open a table by its header. It may have been implied by other headers before. -/
def openTable (key : String) (es : Entries) : Option Entries :=
  match es.get? key with
  | none => some (es ++ [(key, .table .header [])])
  | some (.table .implicit sub) => some (es.replace key (.table .header sub))
  | some _ => none

def openElement (key : String) (es : Entries) : Option Entries :=
  match es.get? key with
  | none => some (es ++ [(key, .tables [[]])])
  | some (.tables elements) => some (es.replace key (.tables (elements ++ [[]])))
  | some _ => none

end Entries

structure DottedKey where
  path : List String
  last : String

inductive Line
  | blank
  | header (key : DottedKey)
  | element (key : DottedKey)
  | entry (key : DottedKey) (item : Item)

structure Builder where
  root : Entries
  current : List String

def Builder.step (b : Builder) : Line → Option Builder
  | .blank => some b
  | .header key => do
    let root ← b.root.modifyAt (Entries.openTable key.last) key.path
    return ⟨root, key.path ++ [key.last]⟩
  | .element key => do
    let root ← b.root.modifyAt (Entries.openElement key.last) key.path
    return ⟨root, key.path ++ [key.last]⟩
  | .entry key item => do
    let root ← b.root.modifyAt (fun es => es.addDotted key.last item key.path) b.current
    return { b with root := root }

def build (lines : List Line) : Option Entries :=
  (lines.foldlM Builder.step ⟨[], []⟩).map Builder.root

def buildInline (entries : List (DottedKey × Item)) : Option Entries :=
  entries.foldlM (fun es (key, item) => Entries.addDotted es key.last item key.path) []

end ScriptPlayer.Toml
