import Antimeridian.Scalar

/-!
# Coordinate reference systems

A coordinate reference system gives numbers a place on a globe. What the library knows of one is
what planning and projecting need: its names, the geodetic frame under it, and, where it is a map
projection, the method with its parameters and the length of its unit.

The constants of a definition are kept as the decimals they are written with, so that a
definition does not depend on a type of scalars.
-/

namespace Antimeridian

/-- A decimal constant, `units` divided by ten to the `places`. -/
structure Quantity where
  /-- The constant without its decimal point. -/
  units : Int
  /-- The number of digits after the point. -/
  places : Nat
  deriving DecidableEq

namespace Quantity

instance (n : Nat) : OfNat Quantity n := ⟨⟨n, 0⟩⟩

instance : OfScientific Quantity :=
  ⟨fun m down e => if down then ⟨m, e⟩ else ⟨(m * Nat.pow 10 e : Nat), 0⟩⟩

instance : Neg Quantity := ⟨fun q => ⟨-q.units, q.places⟩⟩

/-- The constant as a scalar. -/
def toScalar {α : Type} [Scalar α] (q : Quantity) : α := Scalar.decimal q.units q.places

end Quantity

/-- An ellipsoid of revolution, or a sphere. -/
structure Ellipsoid where
  /-- The radius of the equator in metres. -/
  semiMajor : Quantity
  /-- The reciprocal of the flattening; none for a sphere. -/
  inverseFlattening : Option Quantity
  deriving DecidableEq

/-- The body a frame is fixed to. Coordinates of different bodies have no relation. -/
inductive Body where
  | earth
  | moon
  deriving DecidableEq

/-- A geodetic frame: the longitudes and latitudes that a projection starts from. -/
structure Frame where
  /-- The name of the geographic system on this frame. -/
  name : String
  /-- The text that identifies that system. -/
  text : String
  /-- The figure of the globe. -/
  ellipsoid : Ellipsoid
  /-- Degrees from the international meridian to the frame's own, eastward. -/
  meridian : Quantity := 0
  /-- Degrees in a unit of the longitudes and latitudes. -/
  angularUnit : Quantity := 1
  /-- The body the frame is fixed to. -/
  body : Body := .earth
  /-- Frames with equal keys give every point the same longitude and latitude. -/
  key : String := text
  deriving DecidableEq

namespace Crs

/-- What a parameter of a projection method stands for. -/
inductive Role where
  | naturalLatitude
  | naturalLongitude
  | naturalScale
  | falseLatitude
  | falseLongitude
  | standardLatitude
  | originLongitude
  | centreLatitude
  | centreLongitude
  | centreAzimuth
  | skewAngle
  | centreScale
  | firstParallel
  | secondParallel
  | falseEasting
  | falseNorthing
  | eastingAtFalseOrigin
  | northingAtFalseOrigin
  | eastingAtCentre
  | northingAtCentre
  deriving DecidableEq

/-- The published name of a parameter. -/
def Role.label : Role → String
  | .naturalLatitude => "Latitude of natural origin"
  | .naturalLongitude => "Longitude of natural origin"
  | .naturalScale => "Scale factor at natural origin"
  | .falseLatitude => "Latitude of false origin"
  | .falseLongitude => "Longitude of false origin"
  | .standardLatitude => "Latitude of standard parallel"
  | .originLongitude => "Longitude of origin"
  | .centreLatitude => "Latitude of projection centre"
  | .centreLongitude => "Longitude of projection centre"
  | .centreAzimuth => "Azimuth at projection centre"
  | .skewAngle => "Angle from Rectified to Skew Grid"
  | .centreScale => "Scale factor at projection centre"
  | .firstParallel => "Latitude of 1st standard parallel"
  | .secondParallel => "Latitude of 2nd standard parallel"
  | .falseEasting => "False easting"
  | .falseNorthing => "False northing"
  | .eastingAtFalseOrigin => "Easting at false origin"
  | .northingAtFalseOrigin => "Northing at false origin"
  | .eastingAtCentre => "Easting at projection centre"
  | .northingAtCentre => "Northing at projection centre"

/-- A map projection method. -/
inductive Method where
  | albersEqualArea
  | azimuthalEquidistant
  | equalEarth
  | equidistantConic
  | equidistantCylindrical
  | equidistantCylindricalSpherical
  | gnomonic
  | obliqueMercatorA
  | obliqueMercatorB
  | azimuthalEqualArea
  | azimuthalEqualAreaSpherical
  | conicConformalOneParallel
  | conicConformalTwoParallels
  | cylindricalEqualArea
  | mercatorA
  | mercatorB
  | mollweide
  | obliqueStereographic
  | orthographic
  | polarStereographicA
  | polarStereographicB
  | pseudoMercator
  | robinson
  | sinusoidal
  | stereographic
  | transverseMercator
  deriving DecidableEq

/-- The published name of a method. -/
def Method.label : Method → String
  | .albersEqualArea => "Albers Equal Area"
  | .azimuthalEquidistant => "Azimuthal Equidistant"
  | .equalEarth => "Equal Earth"
  | .equidistantConic => "Equidistant Conic"
  | .equidistantCylindrical => "Equidistant Cylindrical"
  | .equidistantCylindricalSpherical => "Equidistant Cylindrical (Spherical)"
  | .gnomonic => "Gnomonic"
  | .obliqueMercatorA => "Hotine Oblique Mercator (variant A)"
  | .obliqueMercatorB => "Hotine Oblique Mercator (variant B)"
  | .azimuthalEqualArea => "Lambert Azimuthal Equal Area"
  | .azimuthalEqualAreaSpherical => "Lambert Azimuthal Equal Area (Spherical)"
  | .conicConformalOneParallel => "Lambert Conic Conformal (1SP)"
  | .conicConformalTwoParallels => "Lambert Conic Conformal (2SP)"
  | .cylindricalEqualArea => "Lambert Cylindrical Equal Area"
  | .mercatorA => "Mercator (variant A)"
  | .mercatorB => "Mercator (variant B)"
  | .mollweide => "Mollweide"
  | .obliqueStereographic => "Oblique Stereographic"
  | .orthographic => "Orthographic"
  | .polarStereographicA => "Polar Stereographic (variant A)"
  | .polarStereographicB => "Polar Stereographic (variant B)"
  | .pseudoMercator => "Popular Visualisation Pseudo Mercator"
  | .robinson => "Robinson"
  | .sinusoidal => "Sinusoidal"
  | .stereographic => "Stereographic"
  | .transverseMercator => "Transverse Mercator"

/-- A map projection: its method, the method's parameters in the order of the definition, and
the metres in one unit of its coordinates. -/
structure Plotting where
  method : Method
  parameters : List (Role × Quantity)
  unit : Quantity := 1
  deriving DecidableEq

/-- What the coordinates of a system are. -/
inductive System where
  /-- Longitude and latitude on a frame. -/
  | geographic (frame : Frame)
  /-- Easting and northing of a map projection. -/
  | projected (frame : Frame) (plotting : Plotting)
  /-- Three axes through the centre of the globe. -/
  | geocentric (frame : Frame)
  /-- Heights alone. -/
  | vertical
  deriving DecidableEq

end Crs

/-- A coordinate reference system. -/
structure Crs where
  /-- The text that identifies the system. -/
  text : String
  /-- The name of the system. -/
  name : String
  /-- What its coordinates are, heights aside. -/
  system : Crs.System
  /-- The system without its heights, by text and name, where it carries any. -/
  withoutHeight : Option (String × String) := none

namespace Crs

/-- Whether two systems are one projection of frames with equal keys. -/
def System.plotsAs : System → System → Bool
  | .projected f p, .projected g q => f.key == g.key && p == q
  | _, _ => false

/-- Whether two systems without heights are defined as one projection, whatever their texts. -/
def definedAs (a b : Crs) : Bool :=
  a.withoutHeight.isNone && b.withoutHeight.isNone && a.system.plotsAs b.system

/-- Two systems are equal when the same text identifies them or they are defined as one
projection. -/
instance : BEq Crs := ⟨fun a b => a.text == b.text || a.definedAs b⟩

/-- The geographic system of a frame. -/
def ofFrame (frame : Frame) : Crs where
  text := frame.text
  name := frame.name
  system := .geographic frame

/-- The system without its heights. -/
def horizontal (c : Crs) : Crs :=
  match c.withoutHeight with
  | none => c
  | some (text, name) => { text, name, system := c.system }

/-- The number of axes of the horizontal part. -/
def axisCount (c : Crs) : Nat :=
  match c.system with
  | .geographic _ | .projected .. => 2
  | .geocentric _ => 3
  | .vertical => 1

/-- Whether the coordinates are longitude and latitude. -/
def isGeographic (c : Crs) : Bool :=
  match c.system with
  | .geographic _ => true
  | _ => false

/-- The frame a system stands on. Heights alone stand on none. -/
def frame? (c : Crs) : Option Frame :=
  match c.system with
  | .geographic frame | .projected frame _ | .geocentric frame => some frame
  | .vertical => none

/-- The geographic system in which a system expresses its parameters. -/
def base? (c : Crs) : Option Crs :=
  if c.isGeographic then some c.horizontal else c.frame?.map ofFrame

/-- Whether two systems give every point the same horizontal coordinates, the order of the axes
aside. -/
def same (a b : Crs) : Bool :=
  match a.system, b.system with
  | .geographic f, .geographic g => f.key == g.key
  | _, _ => a.horizontal == b.horizontal

/-- The same relation where a system may be missing: a missing one is the same as another
missing one only. -/
def same? : Option Crs → Option Crs → Bool
  | some a, some b => a.same b
  | none, none => true
  | _, _ => false

/-- The projection of a system, where it has one. -/
def plotting? (c : Crs) : Option Plotting :=
  match c.system with
  | .projected _ plotting => some plotting
  | _ => none

/-- The projection method of a system, where it has one. -/
def method? (c : Crs) : Option Method := c.plotting?.map (·.method)

/-- The parameters of the projection, none for a system without one. -/
def parameters (c : Crs) : List (Role × Quantity) :=
  (c.plotting?.map (·.parameters)).getD []

/-- The parameter with a given role. -/
def parameter? (c : Crs) (role : Role) : Option Quantity := c.parameters.lookup role

/-- The first parameter present among some roles, or zero. -/
def firstParameter (c : Crs) (roles : List Role) : Quantity :=
  (roles.findSome? c.parameter?).getD 0

/-- The meridian a projection is centred on, in degrees. -/
def centralMeridian (c : Crs) : Quantity :=
  c.firstParameter [.naturalLongitude, .falseLongitude, .originLongitude, .centreLongitude]

/-- The latitude of a projection's origin, in degrees. -/
def latitudeOfOrigin (c : Crs) : Quantity :=
  c.firstParameter [.naturalLatitude, .falseLatitude, .standardLatitude, .centreLatitude]

/-- The standard parallels of a projection, in degrees. -/
def standardParallels (c : Crs) : List Quantity :=
  [Role.firstParallel, Role.secondParallel].filterMap c.parameter?

end Crs

end Antimeridian
