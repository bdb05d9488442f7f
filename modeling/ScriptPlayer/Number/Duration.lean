import ScriptPlayer.Number.Binary64

/-! Lengths of time in whole nanoseconds. -/
namespace ScriptPlayer

abbrev Nanos := Nat

namespace Nanos

def perSecond : Nat := 1_000_000_000

def ofMillis (ms : Nat) : Nanos := ms * 1_000_000

def toMillis (t : Nanos) : Nat := t / 1_000_000

/-- A number of seconds rounded to the nearest nanosecond, a tie to the even one. Negative numbers,
NaN, infinities and lengths of 2^64 seconds or more have no such length. -/
def ofSeconds? (x : Binary64) : Option Nanos :=
  if x.lt (.zero false) || !x.isFinite || UInt64.size ≤ x.quanta / Binary64.one then none
  else some (Binary64.roundDiv (x.quanta * perSecond) Binary64.one)

end Nanos

end ScriptPlayer
