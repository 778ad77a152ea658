import Antimeridian.Decimal.Reading
import Antimeridian.Text.Literal

/-!
# Values in JSON

Requests and answers are JSON documents, one value each. Reading keeps what a value shows: whole
numbers apart from numbers with a point or an exponent, the sign of zero, and the order in which
the fields of a record were first named. The words for numbers without digits are read as
numbers.
-/

namespace Antimeridian.Text.Json

/-! ## Reading -/

/-- Characters without the blanks in front of them. -/
def skipBlanks (cs : List Char) : List Char :=
  cs.dropWhile fun c => c = ' ' || c = '\n' || c = '\r' || c = '\t'

/-- The value of a hexadecimal digit. -/
def hexDigit? (c : Char) : Option Nat :=
  if c.isDigit then some (c.toNat - '0'.toNat)
  else if 'a' ≤ c ∧ c ≤ 'f' then some (c.toNat - 'a'.toNat + 10)
  else if 'A' ≤ c ∧ c ≤ 'F' then some (c.toNat - 'A'.toNat + 10)
  else none

/-- The number that hexadecimal digits write. -/
def hexNumber? (digits : List Char) : Option Nat :=
  digits.foldlM (fun n c => (16 * n + ·) <$> hexDigit? c) 0

/-- The character that a letter after a backslash stands for. -/
def escaped? : Char → Option Char
  | 'n' => some '\n'
  | 't' => some '\t'
  | 'r' => some '\r'
  | 'b' => some '\x08'
  | 'f' => some '\x0c'
  | '"' => some '"'
  | '\\' => some '\\'
  | '/' => some '/'
  | _ => none

/-- The code units of a text up to its closing quote, and what follows the quote. -/
def units? : List Char → Option (List Nat × List Char)
  | '"' :: rest => some ([], rest)
  | '\\' :: 'u' :: a :: b :: c :: d :: rest => do
    let unit ← hexNumber? [a, b, c, d]
    let (more, rest) ← units? rest
    some (unit :: more, rest)
  | '\\' :: letter :: rest => do
    let c ← escaped? letter
    let (more, rest) ← units? rest
    some (c.toNat :: more, rest)
  | c :: rest => do
    let (more, rest) ← units? rest
    some (c.toNat :: more, rest)
  | [] => none

/-- The characters of code units. Two halves of a character beyond the first plane are joined, and
a half that stands alone has no character. -/
def joined : List Nat → List Char
  | high :: low :: rest =>
    if 0xD800 ≤ high ∧ high < 0xDC00 ∧ 0xDC00 ≤ low ∧ low < 0xE000 then
      Char.ofNat (0x10000 + (high - 0xD800) * 0x400 + (low - 0xDC00)) :: joined rest
    else (if 0xD800 ≤ high ∧ high < 0xE000 then '\uFFFD' else Char.ofNat high)
      :: joined (low :: rest)
  | [unit] => [if 0xD800 ≤ unit ∧ unit < 0xE000 then '\uFFFD' else Char.ofNat unit]
  | [] => []

/-- The text behind an opening quote, and what follows its closing one. -/
def text? (cs : List Char) : Option (String × List Char) :=
  (units? cs).map fun (units, rest) => (String.ofList (joined units), rest)

/-- The number that characters write. -/
def number? (cs : List Char) : Option Literal :=
  let (negative, digits) :=
    match cs with
    | '-' :: rest => (true, rest)
    | cs => (false, cs)
  if !digits.isEmpty && digits.all Char.isDigit then
    let n : Int := Decimal.digitsValue digits
    some (.whole (if negative then -n else n))
  else (Decimal.magnitude? digits).map fun x => .decimal (if negative then -x else x)

/-- The value that a word or a number writes. -/
def atom? (cs : List Char) : Option Literal :=
  match String.ofList cs with
  | "null" => some .missing
  | "true" => some (.flag true)
  | "false" => some (.flag false)
  | "NaN" => some (.decimal (0.0 / 0.0))
  | "Infinity" => some (.decimal (1.0 / 0.0))
  | "-Infinity" => some (.decimal (-1.0 / 0.0))
  | _ => number? cs

/-- Whether a character can be part of a word or a number. -/
def isAtomic (c : Char) : Bool := c.isAlphanum || c = '-' || c = '+' || c = '.'

mutual

/-- The value that characters start with, and what follows it. -/
def value? : Nat → List Char → Option (Literal × List Char)
  | 0, _ => none
  | fuel + 1, cs =>
    match skipBlanks cs with
    | '"' :: rest => (text? rest).map fun (s, rest) => (.text s, rest)
    | '[' :: rest =>
      match skipBlanks rest with
      | ']' :: rest => some (.list [], rest)
      | rest => (items? fuel rest).map fun (items, rest) => (.list items, rest)
    | '\x7b' :: rest =>
      match skipBlanks rest with
      | '\x7d' :: rest => some (.record [], rest)
      | rest => (fields? fuel [] rest).map fun (fields, rest) => (.record fields, rest)
    | cs => (atom? (cs.takeWhile isAtomic)).map fun v => (v, cs.dropWhile isAtomic)

/-- The items of a list up to its closing bracket. -/
def items? : Nat → List Char → Option (List Literal × List Char)
  | 0, _ => none
  | fuel + 1, cs => do
    let (item, rest) ← value? fuel cs
    match skipBlanks rest with
    | ',' :: rest =>
      let (items, rest) ← items? fuel rest
      some (item :: items, rest)
    | ']' :: rest => some ([item], rest)
    | _ => none

/-- The fields of a record up to its closing brace, after those that are already named. A name
that comes again has the later value in the earlier place. -/
def fields? : Nat → List (String × Literal) → List Char →
    Option (List (String × Literal) × List Char)
  | 0, _, _ => none
  | fuel + 1, named, cs =>
    match skipBlanks cs with
    | '"' :: rest => do
      let (name, rest) ← text? rest
      match skipBlanks rest with
      | ':' :: rest =>
        let (value, rest) ← value? fuel rest
        let named := Literal.put name value named
        match skipBlanks rest with
        | ',' :: rest => fields? fuel named rest
        | '\x7d' :: rest => some (named, rest)
        | _ => none
      | _ => none
    | _ => none

end

/-- The value of a document, if it is one. -/
def read? (document : String) : Option Literal := do
  let cs := document.toList
  let (v, rest) ← value? (cs.length + 1) cs
  if (skipBlanks rest).isEmpty then some v else none

/-! ## Writing -/

/-- A character inside a text. -/
def writtenChar (c : Char) : String :=
  if c = '"' || c = '\\' then "\\" ++ c.toString
  else if c.toNat < 32 then "\\u" ++ hexadecimal 4 c.toNat
  else c.toString

/-- A text between quotes. -/
def writtenText (s : String) : String :=
  "\"" ++ "".intercalate (s.toList.map writtenChar) ++ "\""

/-- A number, or the word for one without digits. -/
def writtenDecimal (x : Float) : String :=
  if x.isFinite then Decimal.coordinate.write x
  else if x.isNaN then "NaN"
  else if x < 0 then "-Infinity"
  else "Infinity"

mutual

/-- The document of a value. -/
def write : Literal → String
  | .missing => "null"
  | .flag value => if value then "true" else "false"
  | .whole value => toString value
  | .decimal value => writtenDecimal value
  | .text value => writtenText value
  | .list items => "[" ++ ",".intercalate (writeAll items) ++ "]"
  | .record fields => "\x7b" ++ ",".intercalate (writeFields fields) ++ "\x7d"

/-- The documents of some values. -/
def writeAll : List Literal → List String
  | [] => []
  | item :: rest => write item :: writeAll rest

/-- The fields of a record as they are written. -/
def writeFields : List (String × Literal) → List String
  | [] => []
  | (name, value) :: rest => (writtenText name ++ ":" ++ write value) :: writeFields rest

end

end Antimeridian.Text.Json
