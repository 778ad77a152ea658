import Antimeridian.Decimal.Rounding
import Antimeridian.Decimal.Shortest

/-!
# Number texts

How the library writes a number: the shortest digits that read back, laid out by a small record
of decisions. Moderate numbers are positional and always show a fraction; the others carry a
signed exponent.
-/

namespace Antimeridian.Decimal

/-- The decisions of a number format. -/
structure Layout where
  /-- The least decimal exponent that is still written positionally. -/
  least : Int
  /-- The first decimal exponent that is no longer written positionally. -/
  limit : Int
  /-- The least number of digits of a written exponent. -/
  exponentWidth : Nat
  /-- The text of a number above every other. -/
  infinite : String
  /-- The text of what is not a number. -/
  missing : String

/-- A string of `n` zeros. -/
def zeros (n : Nat) : String := String.ofList (List.replicate n '0')

/-- Digits laid out as a positive number. -/
def Layout.positive (format : Layout) (d : Digits) : String :=
  let text := toString d.digits
  let count := text.length
  let exponent : Int := d.exponent + count - 1
  if format.least ≤ exponent ∧ exponent < format.limit then
    if 0 ≤ d.exponent then text ++ zeros d.exponent.toNat ++ ".0"
    else if 0 ≤ exponent then
      let whole := (exponent + 1).toNat
      (text.take whole).toString ++ "." ++ (text.drop whole).toString
    else "0." ++ zeros (-exponent - 1).toNat ++ text
  else
    let power := toString exponent.natAbs
    let mantissa :=
      if count = 1 then text else (text.take 1).toString ++ "." ++ (text.drop 1).toString
    mantissa ++ "e" ++ (if exponent < 0 then "-" else "+")
      ++ zeros (format.exponentWidth - power.length) ++ power

/-- The text of a double with exactly some decimal places, of which there is at least one. -/
def fixed (x : Float) (places : Nat) : String :=
  let digits := toString (unitsAt x places)
  let text := zeros (places + 1 - digits.length) ++ digits
  let whole := text.length - places
  (if x.toBits >>> 63 != 0 then "-" else "") ++ (text.take whole).toString ++ "."
    ++ (text.drop whole).toString

/-- The text of a double. -/
def Layout.write (format : Layout) (x : Float) : String :=
  if x.isNaN then format.missing
  else
    let negative := x.toBits >>> 63 != 0
    let body :=
      if !x.isFinite then format.infinite
      else if x == 0 then "0.0"
      else format.positive (shortest x)
    if negative then "-" ++ body else body

/-- Coordinates are written with the fewest digits that identify them, positionally from a ten
thousandth up to ten to the sixteenth, otherwise with a signed exponent of two digits or more. -/
def coordinate : Layout where
  least := -4
  limit := 16
  exponentWidth := 2
  infinite := "inf"
  missing := "nan"

end Antimeridian.Decimal
