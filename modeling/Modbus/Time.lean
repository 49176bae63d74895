/-!
# Spans of time

Time is counted in microseconds. A span is shown in the largest of the units second, millisecond and
microsecond of which it holds at least one, with as many decimals as are needed to be exact; the
empty span is shown in nanoseconds.
-/

namespace Modbus

/-- A span of time in microseconds. -/
abbrev Span := Nat

namespace Span

/-- A number of milliseconds. -/
def ofMillis (n : Nat) : Span := 1000 * n

/-- A number of seconds. -/
def ofSeconds (n : Nat) : Span := 1000000 * n

/-- The first full millisecond that is not before a point in time. -/
def ceilMillis (t : Span) : Span := ofMillis ((t + 999) / 1000)

/-- The decimals of `rest / 10 ^ places`, without zeros at the end. -/
def decimals (places rest : Nat) : List Char :=
  let digits := Nat.toDigits 10 rest
  let padded := List.replicate (places - digits.length) '0' ++ digits
  (padded.reverse.dropWhile (· = '0')).reverse

/-- A span counted in units of `10 ^ places` microseconds. -/
def inUnits (places : Nat) (symbol : String) (t : Span) : String :=
  let unit := Nat.pow 10 places
  let fraction := decimals places (t % unit)
  toString (t / unit) ++ (if fraction.isEmpty then "" else "." ++ String.ofList fraction)
    ++ symbol

/-- The text of a span. -/
def text (t : Span) : String :=
  if t ≥ 1000000 then inUnits 6 "s" t
  else if t ≥ 1000 then inUnits 3 "ms" t
  else if t > 0 then inUnits 0 "µs" t
  else "0ns"

end Span

end Modbus
