import Antimeridian.Projection.Globe

/-!
# Azimuthal projections

Directions from the centre are true; the projections differ in the spacing of the circles around
it. On a sphere they share one frame: the angular distance and the direction from the centre.
-/

namespace Antimeridian.Projection

/-- Where the centre of an azimuthal projection lies. -/
inductive Aspect where
  | north
  | south
  | equatorial
  | oblique
  deriving DecidableEq

/-- The aspect of a projection centred on a latitude. -/
def Aspect.of (origin : Float) : Aspect :=
  if (origin.abs - quarter).abs < smallAngle then (if origin < 0 then .south else .north)
  else if origin.abs < smallAngle then .equatorial
  else .oblique

/-- A point of a sphere seen from a centre: the cosine of its distance, and its components to the
east and to the north of the centre. -/
structure Sight where
  depth : Float
  east : Float
  north : Float

/-- The point at a longitude from the centre's meridian and a latitude, seen from a centre. -/
def Sight.of (origin lon lat : Float) : Sight :=
  let centerSine := origin.sin
  let centerCosine := origin.cos
  let s := lat.sin
  let c := lat.cos
  { depth := centerSine * s + centerCosine * c * lon.cos
    east := c * lon.sin
    north := centerCosine * s - centerSine * c * lon.cos }

/-- The longitude and latitude of the point in the direction of a vector and at a distance from
the centre, given by the sine and cosine of the distance. -/
def fromCenter (origin east north radius s c : Float) : Option (Float × Float) :=
  match Aspect.of origin with
  | .north => some (east.atan2 (-north), quarter - s.atan2 c)
  | .south => some (east.atan2 north, s.atan2 c - quarter)
  | .equatorial | .oblique => do
    let centerSine := origin.sin
    let centerCosine := origin.cos
    let sine := c * centerSine + north * s * centerCosine / radius
    let lat ← arcSine? sine
    let ahead := (c - centerSine * lat.sin) * radius
    some (if ahead == 0 && east == 0 then 0 else (east * s * centerCosine).atan2 ahead, lat)

/-- The orthographic projection of a sphere: the globe from far away. Only the near half is
seen. -/
def orthographic (origin : Float) : Chart where
  plot lon lat :=
    let sight := Sight.of origin lon lat
    if sight.depth < -smallAngle then none else some (sight.east, sight.north)
  locate x y :=
    let radius := Binary64.length x y
    if 1 + smallAngle < radius then none
    else if radius ≤ smallAngle then some (0, origin)
    else
      let s := if 1 < radius then 1 else radius
      let c := (1 - s * s).sqrt
      match Aspect.of origin with
      | .north => some (x.atan2 (-y), s.acos)
      | .south => some (x.atan2 y, -s.acos)
      | .equatorial | .oblique =>
        let centerSine := origin.sin
        let centerCosine := origin.cos
        let sine := c * centerSine + y * s * centerCosine / radius
        let lat := if 1 ≤ sine.abs then (if sine < 0 then -quarter else quarter) else sine.asin
        some ((x * s * centerCosine).atan2 ((c - centerSine * sine) * radius), lat)

/-- The gnomonic projection of a sphere: the globe seen from its middle. -/
def gnomonic (origin : Float) : Chart where
  plot lon lat :=
    let sight := Sight.of origin lon lat
    if sight.depth ≤ smallAngle then none
    else some (sight.east / sight.depth, sight.north / sight.depth)
  locate x y :=
    let radius := Binary64.length x y
    if radius ≤ smallAngle then some (0, origin)
    else
      let distance := radius.atan
      fromCenter origin x y radius distance.sin distance.cos

/-- The azimuthal projection of a sphere that keeps distances from the centre. -/
def azimuthalEquidistant (origin : Float) : Chart where
  plot lon lat :=
    let sight := Sight.of origin lon lat
    if (sight.depth.abs - 1).abs < 1e-14 then (if sight.depth < 0 then none else some (0, 0))
    else
      let distance := sight.depth.acos
      let stretch := distance / distance.sin
      some (stretch * sight.east, stretch * sight.north)
  locate x y :=
    let radius := Binary64.length x y
    if pi + smallAngle < radius then none
    else if radius < smallAngle then some (0, origin)
    else
      let distance := if pi < radius then pi else radius
      fromCenter origin x y distance distance.sin distance.cos

/-- Lambert's azimuthal projection of a sphere, which keeps areas. -/
def sphericalEqualArea (origin : Float) : Chart where
  plot lon lat :=
    match Aspect.of origin with
    | .north =>
      if (lat + origin).abs < smallAngle then none
      else
        let radius := 2 * (pi / 4 - lat * 0.5).sin
        some (radius * lon.sin, -(radius * lon.cos))
    | .south =>
      if (lat + origin).abs < smallAngle then none
      else
        let radius := 2 * (pi / 4 - lat * 0.5).cos
        some (radius * lon.sin, radius * lon.cos)
    | .equatorial | .oblique =>
      let sight := Sight.of origin lon lat
      if 1 + sight.depth ≤ smallAngle then none
      else
        let stretch := (2 / (1 + sight.depth)).sqrt
        some (stretch * sight.east, stretch * sight.north)
  locate x y :=
    let radius := Binary64.length x y
    if 1 < radius * 0.5 then none
    else if radius ≤ smallAngle && origin.abs < quarter - smallAngle then some (0, origin)
    else
      let distance := 2 * (radius * 0.5).asin
      match Aspect.of origin with
      | .north => some (x.atan2 (-y), quarter - distance)
      | .south => some (x.atan2 y, distance - quarter)
      | .equatorial | .oblique => fromCenter origin x y radius distance.sin distance.cos

/-- Lambert's azimuthal projection of an ellipsoid, which keeps areas. -/
def ellipsoidalEqualArea (g : Figure) (origin : Float) : Chart :=
  let whole := g.zoneArea 1
  let scale := (0.5 * whole).sqrt
  let centerSine := g.zoneArea origin.sin / whole
  let centerCosine := (1 - centerSine * centerSine).sqrt
  let squeeze :=
    match Aspect.of origin with
    | .equatorial => 1 / scale
    | _ => g.parallelRadius origin / (scale * centerCosine)
  let polar (lon area side : Float) : Option (Float × Float) :=
    if 1e-15 ≤ area then
      let radius := area.sqrt
      some (radius * lon.sin, side * (radius * lon.cos))
    else some (0, 0)
  { plot := fun lon lat =>
      let area := g.zoneArea lat.sin
      match Aspect.of origin with
      | .north => if (quarter + lat).abs < smallAngle then none else polar lon (whole - area) (-1)
      | .south => if (lat - quarter).abs < smallAngle then none else polar lon (whole + area) 1
      | .equatorial | .oblique =>
        let s := area / whole
        let rest := 1 - s * s
        let c := if 0 < rest then rest.sqrt else 0
        let depth := 1 + centerSine * s + centerCosine * c * lon.cos
        if depth.abs < smallAngle then none
        else
          let stretch := (2 / depth).sqrt
          some (scale * squeeze * stretch * c * lon.sin,
            scale / squeeze * stretch * (centerCosine * s - centerSine * c * lon.cos))
    locate := fun x y =>
      let atPole (north side : Float) : Option (Float × Float) :=
        let area := x * x + y * y
        if area == 0 then some (0, origin)
        else do
          let sine := 1 - area / whole
          if 1 < sine.abs then none
          else some (x.atan2 north, g.latitudeOfAuthalic (side * sine).asin)
      match Aspect.of origin with
      | .north => atPole (-y) 1
      | .south => atPole y (-1)
      | .equatorial | .oblique =>
        let east := x / squeeze
        let north := y * squeeze
        let radius := Binary64.length east north
        if radius < smallAngle then some (0, origin)
        else if 1 < 0.5 * radius / scale then none
        else
          let distance := 2 * (0.5 * radius / scale).asin
          let s := distance.sin
          let c := distance.cos
          let sine := c * centerSine + north * s * centerCosine / radius
          let lon := (east * s).atan2 (radius * centerCosine * c - north * centerSine * s)
          some (lon, g.latitudeOfAuthalic sine.asin) }

end Antimeridian.Projection
