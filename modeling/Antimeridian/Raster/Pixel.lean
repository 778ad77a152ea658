import Antimeridian.Decimal.Reading
import Antimeridian.Failure
import Antimeridian.Integral
import Antimeridian.Text.Literal

/-!
# Pixels

A pixel is a whole number or a double, and a pixel type says which of them it can hold. Moving a
pixel to another type keeps what fits: fractions are dropped, whole numbers wrap around, and
doubles lose digits. A yes or no is held as one or zero.
-/

namespace Antimeridian

open Text (Literal)

/-- The value of a pixel. -/
inductive Pixel where
  | whole (value : Int)
  | real (value : Float)
  deriving Inhabited

namespace Pixel

/-- The value as a double. -/
def toFloat : Pixel → Float
  | whole value => Scalar.ofInt value
  | real value => value

/-- Equal values, whatever they are held in. -/
def equals : Pixel → Pixel → Bool
  | whole a, whole b => a == b
  | a, b => a.toFloat == b.toFloat

end Pixel

/-- What the pixels of a raster are held in. -/
inductive PixelType where
  | int8
  | uint8
  | int16
  | uint16
  | int32
  | uint32
  | int64
  | uint64
  | float16
  | float32
  | float64
  | flag
  deriving DecidableEq

namespace PixelType

/-- Every pixel type. -/
def all : List PixelType :=
  [int8, uint8, int16, uint16, int32, uint32, int64, uint64, float16, float32,
    float64, flag]

/-- The name of a pixel type. -/
def label : PixelType → String
  | int8 => "int8"
  | uint8 => "uint8"
  | int16 => "int16"
  | uint16 => "uint16"
  | int32 => "int32"
  | uint32 => "uint32"
  | int64 => "int64"
  | uint64 => "uint64"
  | float16 => "float16"
  | float32 => "float32"
  | float64 => "float64"
  | flag => "bool"

/-- The number of bytes of a pixel. -/
def size : PixelType → Nat
  | int8 | uint8 | flag => 1
  | int16 | uint16 | float16 => 2
  | int32 | uint32 | float32 => 4
  | int64 | uint64 | float64 => 8

/-- Whether the pixels are doubles. -/
def isReal (t : PixelType) : Bool := t == float16 || t == float32 || t == float64

/-- Whether raster files can hold the pixels. -/
def isStorable (t : PixelType) : Bool := t ≠ float16 && t ≠ flag

/-- Whether the pixels have a sign. -/
def isSigned : PixelType → Bool
  | uint8 | uint16 | uint32 | uint64 | flag => false
  | _ => true

/-- The number of values of a type of whole pixels. -/
def count (t : PixelType) : Nat := Nat.pow 2 (8 * t.size)

/-- The least value of a type of whole pixels. -/
def least (t : PixelType) : Int := if t.isSigned then -(t.count / 2 : Nat) else 0

/-- Whether a type of whole pixels holds a number. -/
def holds (t : PixelType) (n : Int) : Bool := t.least ≤ n && n < t.least + t.count

/-- A number wrapped around into the values of a type of whole pixels. -/
def wrap (t : PixelType) (n : Int) : Int := (n - t.least) % t.count + t.least

/-- The magnitude from which half precision has no finite number. -/
def halfLimit : Float := 65520

/-- A double with the digits a type keeps. -/
def narrow (t : PixelType) (x : Float) : Float :=
  if t == float32 then x.toFloat32.toFloat
  else if t == float16 && x.isFinite then
    if halfLimit ≤ x.abs then (if x < 0 then -1.0 / 0.0 else 1.0 / 0.0)
    else Binary64.narrowed 11 (-24) x
  else x

/-- A whole number with the digits a type keeps. Half precision is reached through single
precision. -/
def ofWhole (t : PixelType) (n : Int) : Float :=
  if t == float64 then Scalar.ofInt n else t.narrow (Binary64.ofIntWith 24 n)

/-- What stands for a double without digits among whole numbers. -/
def indefinite : Int := -Int.pow 2 63

/-- A double without its fraction. -/
def dropFraction (x : Float) : Int :=
  if x.isFinite then Scalar.truncate x else indefinite

/-- A pixel moved to a type. -/
def cast (t : PixelType) (p : Pixel) : Pixel :=
  match p with
  | .whole n =>
    if t == flag then .whole (if n = 0 then 0 else 1)
    else if t.isReal then .real (t.ofWhole n)
    else .whole (t.wrap n)
  | .real x =>
    if t == flag then .whole (if x == 0 then 0 else 1)
    else if t.isReal then .real (t.narrow x)
    else .whole (t.wrap (dropFraction x))

/-- The whole number that a value stands for. A fraction is dropped. -/
def wholeOf {α : Type} : Literal → Except (Failure α) Int
  | .whole n => .ok n
  | .flag b => .ok (if b then 1 else 0)
  | .decimal x => do
    if x.isNaN then .error .valueRejected
    if x.isFinite then return dropFraction x else .error .overflow
  | .text s =>
    match Decimal.readWhole? s with
    | some n => .ok n
    | none => .error .valueRejected
  | .missing | .list _ | .record _ => .error .typeRejected

/-- The double that a value stands for. What is missing is not a number. -/
def realOf {α : Type} (t : PixelType) : Literal → Except (Failure α) Float
  | .missing => .ok (0.0 / 0.0)
  | .whole n =>
    let x : Float := Scalar.ofInt n
    if x.isFinite then .ok (t.narrow x) else .error .overflow
  | .flag b => .ok (if b then 1 else 0)
  | .decimal x => .ok (t.narrow x)
  | .text s =>
    match Decimal.read? s with
    | some x => .ok (t.narrow x)
    | none => .error .valueRejected
  | .list _ | .record _ => .error .typeRejected

/-- A single value stored in a pixel of a type. Unlike in a move, a whole number that does not fit
is refused, and so is a double without digits where whole numbers are held. -/
def store {α : Type} (t : PixelType) (value : Literal) : Except (Failure α) Pixel := do
  if t == flag then return .whole (if value.holds then 1 else 0)
  if t.isReal then return .real (← realOf t value)
  let n ← wholeOf value
  if t.holds n then return .whole n else .error .overflow

/-- Whether a value can mark missing pixels of a type. -/
def canMark (t : PixelType) (x : Float) : Bool :=
  if t == float32 then !x.isFinite || (t.narrow x).isFinite
  else if t.isReal then true
  else x.isFinite && t.least ≤ Scalar.floor x && Scalar.ceil x < t.least + t.count

end PixelType

end Antimeridian
