/-!
# Time

Spans and instants are counted in nanoseconds; an instant is a count from the start of the clock.
-/

namespace RadarHost

/-- A span of time in nanoseconds. -/
abbrev Duration := Nat

/-- Nanoseconds since the clock was started. -/
abbrev Instant := Nat

namespace Duration

def ofMillis (ms : Nat) : Duration := ms * 1000000

def ofSecs (secs : Nat) : Duration := secs * 1000000000

/-- Whole milliseconds of a span. -/
def millis (d : Duration) : Nat := d / 1000000

/-- The longest span there is: all whole seconds of 64 bits, and all but one nanosecond more. -/
def longest : Duration := ofSecs 0xFFFFFFFFFFFFFFFF + 999999999

/-- The longest wait that a call honours: a day. -/
def maxWait : Duration := ofSecs (24 * 60 * 60)

end Duration

namespace Instant

/-- The last instant of the clock. -/
def horizon : Instant := Duration.ofSecs 0x7FFFFFFFFFFFFFFF + 999999999

/-- The end of a wait of `timeout`, which is cut down to `Duration.maxWait`. -/
def deadlineAfter (now : Instant) (timeout : Duration) : Instant :=
  now + min timeout Duration.maxWait

/-- The end of a wait for frames. A wait of no length has none, nor has one past the horizon:
both last for ever. -/
def waitEnd? (now : Instant) (timeout : Duration) : Option Instant :=
  if timeout = 0 ∨ horizon < now + timeout then none else some (now + timeout)

end Instant

end RadarHost
