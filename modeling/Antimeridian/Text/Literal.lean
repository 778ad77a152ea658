import Antimeridian.Decimal.Layout
import Antimeridian.Text.Printable

/-!
# Values in messages

A message shows the value it complains about the way it would be typed in: texts between quotes,
lists in brackets, records in braces.
-/

namespace Antimeridian.Text

/-- The hexadecimal digits of a number, at least `width` of them. -/
def hexadecimal (width n : Nat) : String :=
  let digits := String.ofList (Nat.toDigits 16 n)
  String.ofList (List.replicate (width - digits.length) '0') ++ digits

/-- A character between quotes. The quote, the backslash and characters without a shape are
written with a backslash. -/
def quotedChar (quote c : Char) : String :=
  if c = quote || c = '\\' then "\\" ++ c.toString
  else if c = '\n' then "\\n"
  else if c = '\r' then "\\r"
  else if c = '\t' then "\\t"
  else if isPrintable c then c.toString
  else if c.toNat < 0x100 then "\\x" ++ hexadecimal 2 c.toNat
  else if c.toNat < 0x10000 then "\\u" ++ hexadecimal 4 c.toNat
  else "\\U" ++ hexadecimal 8 c.toNat

/-- A text between single quotes, or between double ones where it holds single quotes only. -/
def quoted (text : String) : String :=
  let quote := if text.contains '\'' && !text.contains '"' then '"' else '\''
  quote.toString ++ "".intercalate (text.toList.map (quotedChar quote)) ++ quote.toString

/-- A value as it is typed in. -/
inductive Literal where
  | missing
  | flag (value : Bool)
  | whole (value : Int)
  | decimal (value : Float)
  | text (value : String)
  | list (items : List Literal)
  | record (fields : List (String × Literal))
  deriving Inhabited

namespace Literal

/-- Fields with one more. A name that is already there keeps its place and gets the new value. -/
def put (name : String) (value : Literal) : List (String × Literal) → List (String × Literal)
  | [] => [(name, value)]
  | (other, old) :: rest =>
    if other = name then (name, value) :: rest else (other, old) :: put name value rest

/-- The value under a name in a record, if the record has it. -/
def field? (l : Literal) (name : String) : Option Literal :=
  match l with
  | .record fields => fields.lookup name
  | _ => none

/-- The value under a name in a record. What a record does not name is missing. -/
def field (l : Literal) (name : String) : Literal := (l.field? name).getD .missing

/-- The items of a list. Other values have none. -/
def items : Literal → List Literal
  | .list items => items
  | _ => []

/-- The named values of a record. Other values have none. -/
def fields : Literal → List (String × Literal)
  | .record fields => fields
  | _ => []

/-- The characters of a text. -/
def text? : Literal → Option String
  | .text s => some s
  | _ => none

/-- Whether there is no value. -/
def isMissing : Literal → Bool
  | .missing => true
  | _ => false

/-- Whether a value counts as a yes. What is missing, zero or without parts does not. -/
def holds : Literal → Bool
  | .missing => false
  | .flag value => value
  | .whole value => value ≠ 0
  | .decimal value => !(value == 0)
  | .text value => value ≠ ""
  | .list items => !items.isEmpty
  | .record fields => !fields.isEmpty

end Literal

mutual

/-- The text of a value. -/
def Literal.write : Literal → String
  | .missing => "None"
  | .flag value => if value then "True" else "False"
  | .whole value => toString value
  | .decimal value => Decimal.coordinate.write value
  | .text value => quoted value
  | .list items => "[" ++ ", ".intercalate (Literal.writeAll items) ++ "]"
  | .record fields => "\x7b" ++ ", ".intercalate (Literal.writeFields fields) ++ "\x7d"

/-- The texts of some values. -/
def Literal.writeAll : List Literal → List String
  | [] => []
  | item :: rest => item.write :: Literal.writeAll rest

/-- The texts of some named values. -/
def Literal.writeFields : List (String × Literal) → List String
  | [] => []
  | (name, value) :: rest => (quoted name ++ ": " ++ value.write) :: Literal.writeFields rest

end

end Antimeridian.Text
