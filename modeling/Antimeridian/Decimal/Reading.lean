import Antimeridian.Scalar.Binary64
import Antimeridian.Text.Digits

/-!
# Reading numbers from text

The decimal notation that a text may use for a number: a sign, digits with at most one point, and
an exponent, or one of the words for the numbers without digits. Blanks around it are ignored,
and a single underscore may separate two digits. The digits of any script will do.
-/

namespace Antimeridian.Decimal

/-- Whether an underscore stands only between digits. -/
def wellSeparated : Char → List Char → Bool
  | previous, '_' :: c :: rest => previous.isDigit && c.isDigit && wellSeparated '_' (c :: rest)
  | _, ['_'] => false
  | _, c :: rest => wellSeparated c rest
  | _, [] => true

/-- The whole number that decimal digits write. -/
def digitsValue (digits : List Char) : Nat :=
  digits.foldl (fun n c => 10 * n + (c.toNat - '0'.toNat)) 0

/-- A sign in front of some characters: whether it is a minus, and the characters after it. -/
def takeSign : List Char → Bool × List Char
  | '-' :: rest => (true, rest)
  | '+' :: rest => (false, rest)
  | cs => (false, cs)

/-- The exponent that some characters write after the mark of an exponent, zero where there are
none. -/
def exponentOf? : List Char → Option Int
  | [] => some 0
  | mark :: rest =>
    let (negative, digits) := takeSign rest
    if (mark = 'e' || mark = 'E') && !digits.isEmpty && digits.all Char.isDigit then
      some (if negative then -(digitsValue digits) else digitsValue digits)
    else none

/-- The double nearest to a whole number times a power of ten. Exponents that leave every
magnitude behind are not expanded. -/
def scaled (digits : Nat) (exponent : Int) : Float :=
  let size : Int := (toString digits).length
  if digits = 0 || size + exponent < -400 then 0
  else if 400 < size + exponent then 1.0 / 0.0
  else if exponent < 0 then Float.ofScientific digits true exponent.natAbs
  else Float.ofScientific digits false exponent.natAbs

/-- The magnitude that characters without a sign write. -/
def magnitude? (cs : List Char) : Option Float :=
  let plain := cs.filter (· ≠ '_')
  let whole := plain.takeWhile Char.isDigit
  let afterWhole := plain.dropWhile Char.isDigit
  let (fraction, rest) :=
    match afterWhole with
    | '.' :: more => (more.takeWhile Char.isDigit, more.dropWhile Char.isDigit)
    | more => ([], more)
  if (whole.isEmpty && fraction.isEmpty) || !wellSeparated ' ' cs then none
  else do
    let exponent ← exponentOf? rest
    some (scaled (digitsValue (whole ++ fraction)) (exponent - fraction.length))

/-- The number that a text writes, if it writes one. -/
def read? (text : String) : Option Float := do
  let (negative, rest) := takeSign (Text.numberForm text)
  let magnitude ←
    match (String.ofList rest).toLower with
    | "inf" | "infinity" => some (1.0 / 0.0)
    | "nan" => some (0.0 / 0.0)
    | _ => magnitude? rest
  return if negative then -magnitude else magnitude

/-- The whole number that a text writes without a point and without an exponent, if it writes
one. -/
def readWhole? (text : String) : Option Int :=
  let (negative, rest) := takeSign (Text.numberForm text)
  let digits := rest.filter (· ≠ '_')
  if digits.isEmpty || !digits.all Char.isDigit || !wellSeparated ' ' rest then none
  else some (if negative then -(digitsValue digits) else digitsValue digits)

end Antimeridian.Decimal
