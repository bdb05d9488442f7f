import ScriptPlayer.Number.Decimal
import ScriptPlayer.Number.Duration

/-! The options of a player. -/
namespace ScriptPlayer

structure Options where
  /-- workers in the pool, 0 for one per processor -/
  workerThreads : Nat
  /-- shorter timer delays are raised to this -/
  minDelayMs : Nat
  /-- frame rate for streams that report none -/
  fallbackRate : Binary64
deriving DecidableEq

inductive OptionsError
  | unreadable
  | malformed
  | unwritable
  | invalid (reason : String)
deriving DecidableEq

namespace Options

def defaults : Options := ⟨0, 1, .ofNat 24⟩

/-- Whether two sets of options are equal as numbers: a rate that is NaN equals nothing. -/
def same (a b : Options) : Bool :=
  a.workerThreads == b.workerThreads && a.minDelayMs == b.minDelayMs &&
    a.fallbackRate.eq b.fallbackRate

def validate (o : Options) : Except OptionsError Unit :=
  if o.fallbackRate.isFinite && (Binary64.zero false).lt o.fallbackRate then .ok ()
  else .error <| .invalid <|
    "video.fallback_frame_rate must be positive, got " ++ o.fallbackRate.toText

def minDelay (o : Options) : Nanos := .ofMillis o.minDelayMs

def effectiveThreads (o : Options) (processors : Nat) : Nat :=
  if o.workerThreads = 0 then max processors 1 else o.workerThreads

end Options

end ScriptPlayer
