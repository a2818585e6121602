import LayeredCache.Text

/-!
# Time

A span is a count of nanoseconds. Settings store spans in whole milliseconds of 64 bits; a span that is not a whole
number of milliseconds is rounded up, so a positive span never becomes zero. Entries of the soft tier are stamped with the
moment of their acceptance: an instant of a clock that never runs backwards, and the number of reclaims so far, which
wraps around at 64 bits.
-/

set_option autoImplicit false

namespace LayeredCache

structure Span where
  nanoseconds : Nat
  deriving DecidableEq, Repr

namespace Span

/-! Units, in nanoseconds. -/

def microsecond : Nat := 1000

def millisecond : Nat := 1000000

def second : Nat := 1000000000

def ofParts (seconds nanoseconds : Nat) : Span := ⟨seconds * second + nanoseconds⟩

def ofMilliseconds (milliseconds : Nat) : Span := ⟨milliseconds * millisecond⟩

def seconds (span : Span) : Nat := span.nanoseconds / second

/-- What a span has beyond its whole seconds, in nanoseconds. -/
def subsecond (span : Span) : Nat := span.nanoseconds % second

def maxMilliseconds : Nat := UInt64.size - 1

/-- The least count of milliseconds not below a span, or the greatest that a setting can hold. -/
def toMilliseconds (span : Span) : Nat :=
  min ((span.nanoseconds + (millisecond - 1)) / millisecond) maxMilliseconds

/-- A span in its largest unit of which it holds at least one, exactly. -/
def text (span : Span) : String :=
  if second ≤ span.nanoseconds then Text.decimal span.nanoseconds 9 ++ "s"
  else if millisecond ≤ span.nanoseconds then Text.decimal span.nanoseconds 6 ++ "ms"
  else if microsecond ≤ span.nanoseconds then Text.decimal span.nanoseconds 3 ++ "µs"
  else toString span.nanoseconds ++ "ns"

end Span

/-- An instant, in nanoseconds since the clock was started. -/
abbrev Instant := Nat

abbrev Epoch := UInt64

structure Moment where
  instant : Instant
  epoch : Epoch
  deriving DecidableEq, Repr

end LayeredCache
