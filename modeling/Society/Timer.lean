/-!
# Timers

Traits and modifiers last for a number of ticks, or for ever. A timer counts the ticks that are left.
-/

namespace Society

/-- The ticks that are left, if the time is limited at all. -/
abbrev Timer := Option Nat

namespace Timer

/-- The timer for a duration. A duration of zero or less has no limit. -/
def ofDuration (ticks : Int) : Timer :=
  if ticks > 0 then some ticks.toNat else none

/-- Counts down one tick. -/
def tick (t : Timer) : Timer :=
  t.map (· - 1)

/-- Whether no tick is left. -/
def expired (t : Timer) : Bool :=
  t == some 0

end Timer

end Society
