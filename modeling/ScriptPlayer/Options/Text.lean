import ScriptPlayer.Options.Basic
import ScriptPlayer.Toml.Syntax

/-! Options as TOML text. Keys that are missing have their defaults and keys that are unknown are
ignored. -/
namespace ScriptPlayer

namespace Toml.Item

def toNat? : Item → Option Nat
  | integer i => if 0 ≤ i then some i.toNat else none
  | _ => none

def toFloat? : Item → Option Binary64
  | float x => some x
  | integer i => some (.ofInt i)
  | _ => none

/-- The fields of a record: a table gives them by name, an array by position. A date has none. -/
def fields? (names : List String) : Item → Option (List (Option Item))
  | table _ es => some (names.map (Entries.get? es))
  | array items => some ((List.range names.length).map fun i => items[i]?)
  | tables elements =>
    some ((List.range names.length).map fun i => (elements[i]?).map (table .header))
  | datetime => some (names.map fun _ => none)
  | _ => none

def fieldOr? {α : Type} (item : Option Item) (name : String) (read : Item → Option α)
    (default : α) : Option α :=
  match item with
  | none => some default
  | some item =>
    match item.fields? [name] with
    | some [some value] => read value
    | some _ => some default
    | none => none

end Toml.Item

namespace Options

open Toml in
def ofEntries? (es : Entries) : Option Options := do
  let workerThreads ← match es.get? "worker_threads" with
    | none => some defaults.workerThreads
    | some item => item.toNat?
  let minDelayMs ← Item.fieldOr? (es.get? "timer") "min_delay_ms" Item.toNat? defaults.minDelayMs
  let fallbackRate ← Item.fieldOr? (es.get? "video") "fallback_frame_rate" Item.toFloat?
    defaults.fallbackRate
  return ⟨workerThreads, minDelayMs, fallbackRate⟩

def ofToml (text : String) : Except OptionsError Options := do
  match (Toml.parse? text).bind ofEntries? with
  | none => throw .malformed
  | some o =>
    o.validate
    return o

/-- Options from the bytes of a file, which must be UTF-8; nothing stands for a file that cannot be
read. -/
def ofFile (bytes : Option (List UInt8)) : Except OptionsError Options :=
  match bytes.bind fun bs => String.fromUTF8? ⟨bs.toArray⟩ with
  | none => .error .unreadable
  | some text => ofToml text

def rateText (x : Binary64) : String :=
  if x.isNaN then "nan"
  else if x.isIntegral then x.toText ++ ".0" else x.toText

/-- The text of options. TOML has no integers of 2^63 or more. -/
def toToml (o : Options) : Except OptionsError String :=
  if 0x8000_0000_0000_0000 ≤ o.workerThreads ∨ 0x8000_0000_0000_0000 ≤ o.minDelayMs then
    .error .unwritable
  else .ok <|
    s!"worker_threads = {o.workerThreads}\n\n[timer]\nmin_delay_ms = {o.minDelayMs}\n\n" ++
      "[video]\nfallback_frame_rate = " ++ rateText o.fallbackRate ++ "\n"

end Options

end ScriptPlayer
