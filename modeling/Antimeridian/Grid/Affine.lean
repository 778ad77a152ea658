import Antimeridian.Failure

/-!
# Affine transforms

A pixel grid is placed in a system by an affine transform from columns and rows to coordinates.
-/

namespace Antimeridian

/-- The transform that takes a column and a row to `a * column + b * row + c` and
`d * column + e * row + f`. -/
structure Affine (α : Type) where
  a : α
  b : α
  c : α
  d : α
  e : α
  f : α

namespace Affine

variable {α : Type} [Scalar α]

/-- The image of a point. -/
def apply (t : Affine α) (x y : α) : α × α :=
  (x * t.a + y * t.b + t.c, x * t.d + y * t.e + t.f)

/-- The transform that moves by a vector. -/
def translation (x y : α) : Affine α := ⟨1, 0, x, 0, 1, y⟩

/-- The transform that stretches the axes. -/
def scaling (x y : α) : Affine α := ⟨x, 0, 0, 0, y, 0⟩

/-- One transform after another: the second argument is applied first. -/
def compose (s t : Affine α) : Affine α where
  a := s.a * t.a + s.b * t.d
  b := s.a * t.b + s.b * t.e
  c := s.a * t.c + s.b * t.f + s.c
  d := s.d * t.a + s.e * t.d
  e := s.d * t.b + s.e * t.e
  f := s.d * t.c + s.e * t.f + s.f

/-- The factor by which areas grow. -/
def determinant (t : Affine α) : α := t.a * t.e - t.b * t.d

/-- The transform that goes back. A transform onto a line has none. -/
def inverse (t : Affine α) : Except (Failure α) (Affine α) :=
  if t.determinant == 0 then .error .notInvertible
  else
    let i := 1 / t.determinant
    let a := t.e * i
    let b := -t.b * i
    let d := -t.d * i
    let e := t.a * i
    .ok ⟨a, b, -t.c * a - t.f * b, d, e, -t.c * d - t.f * e⟩

/-- Equal entries. -/
def equals (s t : Affine α) : Bool :=
  s.a == t.a && s.b == t.b && s.c == t.c && s.d == t.d && s.e == t.e && s.f == t.f

/-- The north-up transform of a number of columns and rows over a rectangle. -/
def overBounds (west south east north : α) (columns rows : Int) :
    Except (Failure α) (Affine α) :=
  if columns = 0 || rows = 0 then .error .divisionByZero
  else
    .ok ((translation west north).compose
      (scaling ((east - west) / Scalar.ofInt columns) ((south - north) / Scalar.ofInt rows)))

end Affine

end Antimeridian
