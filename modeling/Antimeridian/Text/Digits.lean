/-!
# Digits and blanks of every script

Numbers may be typed in the digits of any script and surrounded by blanks of any kind. Before
they are read they are brought to the basic digits and the basic blank.
-/

namespace Antimeridian.Text

/-- The zeros of the scripts with digits of their own; the other nine digits follow each. -/
def scriptZeros : Array Nat := #[
  1632, 1776, 1984, 2406, 2534, 2662, 2790, 2918, 3046, 3174, 3302, 3430, 3558, 3664, 3792, 3872,
  4160, 4240, 6112, 6160, 6470, 6608, 6784, 6800, 6992, 7088, 7232, 7248, 42528, 43216, 43264,
  43472, 43504, 43600, 44016, 65296, 66720, 68912, 69734, 69872, 69942, 70096, 70384, 70736, 70864,
  71248, 71360, 71472, 71904, 72016, 72784, 73040, 73120, 92768, 92864, 93008, 120782, 120792,
  120802, 120812, 120822, 123200, 123632, 125264, 130032]

/-- The value of a digit of any script. -/
def digitValue? (c : Char) : Option Nat :=
  if c.isDigit then some (c.toNat - '0'.toNat)
  else (scriptZeros.find? fun first => first ≤ c.toNat && c.toNat < first + 10).map (c.toNat - ·)

/-- A basic blank. -/
def isBasicBlank (c : Char) : Bool := c = ' ' || (9 ≤ c.toNat && c.toNat ≤ 13)

/-- A blank of any kind. -/
def isBlank (c : Char) : Bool :=
  let n := c.toNat
  isBasicBlank c || n = 133 || n = 160 || n = 5760 || (8192 ≤ n && n ≤ 8202) || n = 8232
    || n = 8233 || n = 8239 || n = 8287 || n = 12288

/-- A character as it takes part in a number: a digit of any script is the basic digit of its
value, a blank of any kind is the basic blank, and any other character stays. -/
def basicForm (c : Char) : Char :=
  match digitValue? c with
  | some value => Char.ofNat ('0'.toNat + value)
  | none => if isBlank c then ' ' else c

/-- The characters of a text as they take part in a number, without the blanks around them. -/
def numberForm (text : String) : List Char :=
  let cs := (text.toList.map basicForm).dropWhile isBasicBlank
  (cs.reverse.dropWhile isBasicBlank).reverse

end Antimeridian.Text
