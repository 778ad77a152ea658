import Antimeridian.Failure

/-!
# Projection families

Rendering systems fall into a closed set of families. The family decides whether the horizontal
axis repeats with the longitude, and which area of the globe the projection renders sensibly.
Valid areas are in degrees of the projection's own geographic base; no area means the whole
globe.
-/

namespace Antimeridian

/-- A family of projections. -/
inductive Family where
  /-- Longitude and latitude as they are. -/
  | geographic
  /-- Normal aspect cylindrical projections. -/
  | cylindrical
  /-- Conformal conic projections. -/
  | conic
  /-- Polar and oblique azimuthal projections. -/
  | azimuthal
  /-- Transverse Mercator projections. -/
  | transverse
  /-- Everything else. -/
  | generic
  deriving DecidableEq

namespace Family

/-- The name of a family. -/
def label : Family → String
  | .geographic => "geographic"
  | .cylindrical => "cylindrical"
  | .conic => "conic"
  | .azimuthal => "azimuthal"
  | .transverse => "transverse"
  | .generic => "generic"

/-- The family with a given name. -/
def ofLabel? (text : String) : Option Family :=
  [geographic, cylindrical, conic, azimuthal, transverse, generic].find? (·.label == text)

/-- Whether the horizontal axis repeats with every turn of longitude. -/
def isPeriodic : Family → Bool
  | .geographic | .cylindrical => true
  | _ => false

/-- The family of a projection method. -/
def ofMethod : Crs.Method → Family
  | .transverseMercator => .transverse
  | .mercatorA | .mercatorB | .pseudoMercator | .cylindricalEqualArea
  | .equidistantCylindrical | .equidistantCylindricalSpherical => .cylindrical
  | .conicConformalOneParallel | .conicConformalTwoParallels => .conic
  | .azimuthalEquidistant | .azimuthalEqualArea | .azimuthalEqualAreaSpherical
  | .obliqueStereographic | .polarStereographicA | .polarStereographicB | .stereographic
  | .orthographic => .azimuthal
  | .albersEqualArea | .equalEarth | .equidistantConic | .gnomonic | .obliqueMercatorA
  | .obliqueMercatorB | .mollweide | .robinson | .sinusoidal => .generic

/-- The family of a reference system. -/
def of (c : Crs) : Family :=
  if c.isGeographic then .geographic else (c.method?.map ofMethod).getD .generic

end Family

namespace ValidArea

variable {α : Type} [Scalar α]

/-- The latitude up to which ordinates of cylindrical projections stay moderate. -/
def mercatorLimit : α := 85

/-- The degrees of latitude a conic projection renders beyond its reference parallel. -/
def conicSpan : α := 44

/-- The longitude limit of conic projections of the northern hemisphere. -/
def conicLongitudeLimit : α := 179.9

/-- Half the width in degrees of the band a transverse projection renders. -/
def transverseSpan : α := 45

/-- The latitude of origin from which an azimuthal projection counts as polar. -/
def polarAspect : α := 45

/-- The arithmetic mean of a list that starts with the given element. -/
def mean (first : α) (rest : List α) : α :=
  rest.foldl (· + ·) (0 + first) / Scalar.ofInt (rest.length + 1)

/-- The area a cylindrical projection renders: every longitude, away from the poles. -/
def cylindrical (base : Crs) : Envelope α :=
  ⟨-Scalar.infinity, -mercatorLimit, Scalar.infinity, mercatorLimit, some base⟩

/-- The area a conic projection renders: its hemisphere and a span beyond the reference
parallel. -/
def conic (c base : Crs) : Envelope α :=
  let reference : α :=
    match c.standardParallels with
    | [] => c.latitudeOfOrigin.toScalar
    | first :: rest => mean first.toScalar (rest.map Quantity.toScalar)
  if (0 : α) < reference then
    ⟨-conicLongitudeLimit, reference - conicSpan, conicLongitudeLimit, 90, some base⟩
  else ⟨-180, -90, 180, reference + conicSpan, some base⟩

/-- The area an azimuthal projection renders: the hemisphere of its pole, or the one around its
centre. -/
def azimuthal (c base : Crs) : Envelope α :=
  let origin : α := c.latitudeOfOrigin.toScalar
  if polarAspect ≤ origin then ⟨-180, 0, 180, 90, some base⟩
  else if origin ≤ -polarAspect then ⟨-180, -90, 180, 0, some base⟩
  else
    let center : α := c.centralMeridian.toScalar
    ⟨center - 90, -90, center + 90, 90, some base⟩

/-- The area a transverse projection renders: a band around its central meridian. -/
def transverse (c base : Crs) : Envelope α :=
  let center : α := c.centralMeridian.toScalar
  ⟨center - transverseSpan, -90, center + transverseSpan, 90, some base⟩

/-- The area of the globe a system of the given family renders sensibly, none for the whole
globe. -/
def of (c : Crs) (family : Family) : Except (Failure α) (Option (Envelope α)) :=
  let withBase (area : Crs → Crs → Envelope α) : Except (Failure α) (Option (Envelope α)) :=
    match c.horizontal.base? with
    | some base => .ok (some (area c.horizontal base))
    | none => .error (.frameMissing c.horizontal)
  match family with
  | .geographic | .generic => .ok none
  | .cylindrical => withBase fun _ base => cylindrical base
  | .conic => withBase conic
  | .azimuthal => withBase azimuthal
  | .transverse => withBase transverse

end ValidArea

end Antimeridian
