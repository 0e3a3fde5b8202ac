/-!
# Pacing

After a slow frame the device is left alone for a while.
-/

namespace Candela.Frame

/-- How long to wait after a frame, in nanoseconds: the cooldown, if there is one and the frame took
longer than a slow one. -/
def cooldownAfter (elapsed slowFrame cooldown : Nat) : Option Nat :=
  if slowFrame < elapsed ∧ cooldown ≠ 0 then some cooldown else none

end Candela.Frame
