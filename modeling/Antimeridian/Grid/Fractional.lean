import Antimeridian.Grid.Basic
import Antimeridian.Text.Literal

/-!
# Fractional grids

The pixels of a map can be given by numbers with fractions. Such a grid can be laid out over an
extent and grown like any other, but no pixels can be read on it. Its numbers stay as they were
given: whole ones stay whole until they meet one that is not.
-/

namespace Antimeridian

/-- A number of pixels as it is given. -/
inductive PixelNumber where
  | whole (n : Int)
  | real (x : Float)

namespace PixelNumber

/-- The number as a double. -/
def toFloat : PixelNumber → Float
  | whole n => Scalar.ofInt n
  | real x => x

/-- The number as a value. -/
def toLiteral : PixelNumber → Text.Literal
  | whole n => .whole n
  | real x => .decimal x

/-- Whether the number is whole by the way it is given. -/
def isWhole : PixelNumber → Bool
  | whole _ => true
  | real _ => false

/-- The whole number in a number, its fraction dropped. -/
def truncated : PixelNumber → Int
  | whole n => n
  | real x => Scalar.truncate x

/-- A number that a value gives. -/
def ofLiteral {α : Type} : Text.Literal → Except (Failure α) PixelNumber
  | .whole n => .ok (whole n)
  | .flag b => .ok (whole (if b then 1 else 0))
  | .decimal x => .ok (real x)
  | _ => .error .typeRejected

/-- The sum of two numbers. -/
def add : PixelNumber → PixelNumber → PixelNumber
  | whole a, whole b => whole (a + b)
  | a, b => real (a.toFloat + b.toFloat)

/-- The opposite of a number. -/
def negate : PixelNumber → PixelNumber
  | whole a => whole (-a)
  | real x => real (-x)

/-- The difference of two numbers. -/
def subtract (a b : PixelNumber) : PixelNumber := a.add b.negate

/-- Twice a number. -/
def twice : PixelNumber → PixelNumber
  | whole a => whole (2 * a)
  | real x => real (2 * x)

end PixelNumber

/-- A rectangle of pixels by numbers that need not be whole. -/
structure FractionalRect where
  column : PixelNumber
  row : PixelNumber
  width : PixelNumber
  height : PixelNumber

namespace FractionalRect

/-- Whether all numbers are whole by the way they are given. -/
def isWhole (r : FractionalRect) : Bool :=
  r.column.isWhole && r.row.isWhole && r.width.isWhole && r.height.isWhole

/-- The rectangle without fractions. -/
def truncated (r : FractionalRect) : PixelRect :=
  ⟨r.column.truncated, r.row.truncated, r.width.truncated, r.height.truncated⟩

/-- The rectangle grown by a number of pixels on every side. -/
def grown (r : FractionalRect) (padding : PixelNumber) : FractionalRect :=
  ⟨r.column.subtract padding, r.row.subtract padding, r.width.add padding.twice,
    r.height.add padding.twice⟩

end FractionalRect

/-- A grid of pixels by numbers that need not be whole. -/
structure FractionalGrid where
  rect : FractionalRect
  transform : Affine Float
  crs : Crs

namespace FractionalGrid

/-- The grid of a rectangle, which has to hold pixels, in a system that is required. -/
def make (rect : FractionalRect) (transform : Affine Float)
    (crs : Except (Failure Float) Crs) : Except (Failure Float) FractionalGrid :=
  if 0 < rect.width.toFloat && 0 < rect.height.toFloat then
    return { rect, transform, crs := ← crs }
  else .error (.gridSizeShown rect.width.toLiteral.write rect.height.toLiteral.write)

/-- The north-up grid whose rectangle covers an envelope exactly. -/
def ofEnvelope (e : Envelope Float) (rect : FractionalRect) :
    Except (Failure Float) FractionalGrid := do
  if e.isEmpty then throw .gridOverNothing
  let width := rect.width.toFloat
  let height := rect.height.toFloat
  if width == 0 || height == 0 then throw .divisionByZero
  let transform := ((Affine.translation e.minx e.maxy).compose
    (.scaling ((e.maxx - e.minx) / width) ((e.miny - e.maxy) / height))).compose
      (.translation (-rect.column.toFloat) (-rect.row.toFloat))
  make rect transform (Crs.required e.crs)

/-- The envelope of the rectangle. -/
def envelope (g : FractionalGrid) : Envelope Float :=
  let r := g.rect
  let place (column row : PixelNumber) := g.transform.apply column.toFloat row.toFloat
  let east := r.column.add r.width
  let south := r.row.add r.height
  Grid.boundCorners (place r.column r.row) (place east south) (place r.column south)
    (place east r.row) (some g.crs)

/-- The grid grown by a number of pixels on every side. -/
def withGutter (g : FractionalGrid) (padding : PixelNumber) :
    Except (Failure Float) FractionalGrid :=
  make (g.rect.grown padding) g.transform (.ok g.crs)

end FractionalGrid

end Antimeridian
