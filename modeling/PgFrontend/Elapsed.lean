/-!
# Spans of time

A span is counted in nanoseconds, and measured by a clock that ticks once a millisecond. As text it
is shown in the largest of the units second, millisecond, microsecond and nanosecond of which it
holds at least one, as an exact decimal with no needless digits: `1.5s`, `20ms`, `1.5µs`, `0ns`.
-/

namespace PgFrontend

structure Elapsed where
  nanoseconds : Nat
  deriving Repr, DecidableEq

namespace Elapsed

def microsecond : Nat := 1000

def millisecond : Nat := 1000000

def second : Nat := 1000000000

def ofSeconds (seconds : Nat) : Elapsed :=
  ⟨seconds * second⟩

def ofMilliseconds (milliseconds : Nat) : Elapsed :=
  ⟨milliseconds * millisecond⟩

/-- The clock tick at which a span from now is over: the first that is not before its end. -/
def ticks (e : Elapsed) : Nat :=
  (e.nanoseconds + (millisecond - 1)) / millisecond

/-- The digits of `part / unit` after the decimal point, without the zeros at the end. The unit is a
power of ten, and the sum has one digit more than the fraction. -/
def fraction (unit part : Nat) : List Char :=
  let digits := (Nat.toDigits 10 (unit + part)).tail
  (digits.reverse.dropWhile (· == '0')).reverse

def inUnit (unit : Nat) (symbol : String) (n : Nat) : String :=
  let whole := toString (n / unit)
  match n % unit with
  | 0 => whole ++ symbol
  | part => whole ++ "." ++ String.ofList (fraction unit part) ++ symbol

def text (e : Elapsed) : String :=
  let n := e.nanoseconds
  if second ≤ n then inUnit second "s" n
  else if millisecond ≤ n then inUnit millisecond "ms" n
  else if microsecond ≤ n then inUnit microsecond "µs" n
  else inUnit 1 "ns" n

end Elapsed

end PgFrontend
