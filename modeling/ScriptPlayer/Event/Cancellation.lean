/-! Flags that ask background work to stop. All holders of a token see the same flag, and a flag
that is set stays set. -/
namespace ScriptPlayer

abbrev TokenId := Nat

structure CancelFlags where
  flags : List Bool
deriving DecidableEq

namespace CancelFlags

def empty : CancelFlags := ⟨[]⟩

def newToken (c : CancelFlags) : TokenId × CancelFlags := (c.flags.length, ⟨c.flags ++ [false]⟩)

def cancel (c : CancelFlags) (t : TokenId) : CancelFlags := ⟨c.flags.set t true⟩

def isCancelled (c : CancelFlags) (t : TokenId) : Bool := c.flags.getD t false

end CancelFlags

end ScriptPlayer
