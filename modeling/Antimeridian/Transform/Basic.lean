import Antimeridian.Failure
import Antimeridian.Longitude
import Antimeridian.Text.Literal

/-!
# Coordinate transforms

A transform carries coordinates of one reference system to another, always easting before
northing. Which systems are related, and how, is an `Atlas`: everything in the library that
reprojects is a function of one. Between equal systems the transform is the identity, whatever
the atlas says.

A transform between geographic systems can be made to preserve periods: a longitude is moved into
the period around zero, transformed, and moved back by the same whole periods, so that a geometry
that reaches beyond the antimeridian is not folded back.
-/

namespace Antimeridian

/-- How the points of one system go to another. A point without an image is sent to coordinates
that are not finite. -/
structure Mapping (α : Type) where
  /-- The image of a point. -/
  image : α → α → α × α
  /-- Whether a point has no image. -/
  fails : α → α → Bool
  /-- Whether every point goes over as it is, so that coordinates need not come in pairs. -/
  verbatim : Bool := false

/-- The relations between reference systems. -/
structure Atlas (α : Type) where
  /-- How the points of one system go to another, if at all. -/
  relation? : Crs → Crs → Option (Mapping α)

/-- A transform between two horizontal systems. -/
inductive Transform (α : Type) where
  /-- Points go by a mapping, or stay where they are between equal systems. -/
  | direct (source target : Crs) (isIdentity : Bool) (mapping : Mapping α)
  /-- Points go by another transform, whole periods aside. -/
  | preserving (base : Transform α) (period : α)

/-- The transform between two systems. -/
def Atlas.find {α : Type} (atlas : Atlas α) (source target : Crs) :
    Except (Failure α) (Transform α) :=
  let source := source.horizontal
  let target := target.horizontal
  match atlas.relation? source target with
  | none => .error (.unrelated source target)
  | some mapping => .ok (.direct source target (source.same target) mapping)

namespace Transform

variable {α : Type}

/-- The system of the coordinates a transform takes. -/
def source : Transform α → Crs
  | direct source .. => source
  | preserving base _ => base.source

/-- The system of the coordinates a transform gives. -/
def target : Transform α → Crs
  | direct _ target .. => target
  | preserving base _ => base.target

/-- Whether the two systems are equal. -/
def isIdentity : Transform α → Bool
  | direct _ _ isIdentity _ => isIdentity
  | preserving base _ => base.isIdentity

/-- The image of a point, without a check that there is one. -/
def image [Scalar α] : Transform α → α → α → α × α
  | direct _ _ isIdentity mapping, x, y => if isIdentity then (x, y) else mapping.image x y
  | preserving base period, x, y =>
    let normalized := Longitude.normalize x period
    let offset := x - normalized
    let (tx, ty) := base.image normalized y
    let drift := Scalar.roundWhole ((tx - normalized) / period) * period
    (tx - drift + offset, ty)

/-- Whether a point has no image. -/
def fails [Scalar α] : Transform α → α → α → Bool
  | direct _ _ isIdentity mapping, x, y => !isIdentity && mapping.fails x y
  | preserving base period, x, y => base.fails (Longitude.normalize x period) y

/-- Whether coordinates need not come in pairs. -/
def takesApart : Transform α → Bool
  | direct _ _ isIdentity mapping => isIdentity || mapping.verbatim
  | preserving base _ => base.takesApart

/-- The transform that goes the other way. -/
def inverse (atlas : Atlas α) : Transform α → Except (Failure α) (Transform α)
  | direct source target .. => atlas.find target source
  | preserving base period => do return .preserving (← base.inverse atlas) period

/-- The kind of a transform, as shown in its text. -/
def kindText : Transform α → String
  | direct .. => "CoordinateTransform"
  | preserving .. => "PeriodPreservingTransform"

/-- The text of a transform: its kind and the names of its systems. -/
def describe (t : Transform α) : String :=
  "<" ++ t.kindText ++ " " ++ Text.quoted t.source.name ++ " -> " ++ Text.quoted t.target.name
    ++ ">"

/-- The failure of a transform on a point without an image. -/
def failure (t : Transform α) : Failure α := .unprojectable t.source t.target

/-- The images of points given by the lists of their coordinates. With `check`, a point without
an image fails the whole list; so do lists of different lengths, unless points go over as they
are. -/
def coordinates [Scalar α] (t : Transform α) (xs ys : List α) (check : Bool) :
    Except (Failure α) (List α × List α) :=
  if xs.length ≠ ys.length then
    if t.takesApart then .ok (xs.map (t.image · 0 |>.1), ys) else .error t.failure
  else
    let points := xs.zip ys
    if check && points.any (fun p => t.fails p.1 p.2) then .error t.failure
    else
      let images := points.map fun p => t.image p.1 p.2
      .ok (images.map (·.1), images.map (·.2))

/-- The image of a geometry, vertex by vertex and without heights. The identity leaves it as it
is. -/
def geometry [Scalar α] (t : Transform α) (g : Geometry α) : Except (Failure α) (Geometry α) :=
  if t.isIdentity then .ok g
  else if g.vertices.any (fun v => t.fails v.x v.y) then .error t.failure
  else .ok (g.map fun v => let p := t.image v.x v.y; { x := p.1, y := p.2 })

end Transform

end Antimeridian
