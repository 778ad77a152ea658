import Antimeridian.Decimal.Reading
import Antimeridian.Failure
import Antimeridian.Text.Literal

/-!
# Numbers in documents

A number of a document is a number, a yes or no that counts as one or zero, or a text that writes
one, such as the words for numbers without digits. What is missing, a list or a record is no
number.
-/

namespace Antimeridian.Document

open Text (Literal)

/-- A value read from a document. -/
abbrev Reading (β : Type) := Except (Failure Float) β

/-- The double nearest to a whole number, which may be too large for one. -/
def ofWhole (n : Int) : Reading Float :=
  let x : Float := Scalar.ofInt n
  if x.isFinite then .ok x else .error .overflow

/-- The number that a value stands for. -/
def number : Literal → Reading Float
  | .whole n => ofWhole n
  | .decimal x => .ok x
  | .flag b => .ok (if b then 1 else 0)
  | .text s =>
    match Decimal.read? s with
    | some x => .ok x
    | none => .error .valueRejected
  | _ => .error .typeRejected

/-- The number that is added to another. Of the texts, only the words for numbers without digits can
be. -/
def amount : Literal → Reading Float
  | .text s => if ["inf", "-inf", "nan"].contains s then number (.text s) else .error .typeRejected
  | l => number l

/-- The numbers of a list. -/
def numbers (l : Literal) : Reading (List Float) := l.items.mapM number

/-- The two numbers of a pair. -/
def pair (l : Literal) : Reading (Float × Float) := do
  match ← numbers l with
  | [x, y] => return (x, y)
  | _ => .error .valueRejected

/-- A value that may be missing. -/
def optional {β : Type} (read : Literal → Reading β) (l : Literal) : Reading (Option β) :=
  if l.isMissing then .ok none else some <$> read l

end Antimeridian.Document
