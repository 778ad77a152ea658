import Antimeridian.Crs.Basic

/-!
# The registry of coordinate reference systems

The systems the library can name, each with the text that identifies it. An authority and a code
identify a system of an authority's list, whatever the case of the authority; a whole number is
a code of the first authority; a projection text identifies itself.
-/

namespace Antimeridian.Crs

namespace Registry

/-! ## Figures and frames -/

/-- The ellipsoid of satellite positioning. -/
def wgsEllipsoid : Ellipsoid := ⟨6378137, some 298.257223563⟩

/-- The ellipsoid that most continental frames share. -/
def grsEllipsoid : Ellipsoid := ⟨6378137, some 298.257222101⟩

/-- A sphere of the given radius. -/
def sphere (radius : Quantity) : Ellipsoid := ⟨radius, none⟩

/-- Degrees from the international meridian to that of Paris. -/
def parisMeridian : Quantity := 2.33722917

/-- Metres in the foot of the survey of the United States. -/
def usFoot : Quantity := 0.304800609601219

/-- Frames that agree with satellite positioning share this key. -/
def wgsKey : String := "EPSG:4326"

def wgs84 : Frame := { name := "WGS 84", text := "EPSG:4326", ellipsoid := wgsEllipsoid }

def wgs84LongitudeFirst : Frame where
  name := "WGS 84 (CRS84)"
  text := "OGC:CRS84"
  ellipsoid := wgsEllipsoid
  key := wgsKey

def wgs84Unnamed : Frame where
  name := "unknown"
  text := "+proj=longlat +datum=WGS84 +type=crs"
  ellipsoid := wgsEllipsoid
  key := wgsKey

def wgs84Paris : Frame where
  name := "unknown"
  text := "+proj=longlat +datum=WGS84 +pm=paris +type=crs"
  ellipsoid := wgsEllipsoid
  meridian := parisMeridian

def earthSphere : Frame where
  name := "unknown"
  text := "+proj=longlat +R=6371000 +type=crs"
  ellipsoid := sphere 6371000

def moonSphere : Frame where
  name := "unknown"
  text := "+proj=longlat +R=1737400 +type=crs"
  ellipsoid := sphere 1737400
  body := .moon

def authalicSphere : Frame where
  name := "NSIDC Authalic Sphere"
  text := "EPSG:10346"
  ellipsoid := sphere 6371228

def northAmerica1983 : Frame := { name := "NAD83", text := "EPSG:4269", ellipsoid := grsEllipsoid }

def canada : Frame := { name := "NAD83(CSRS)", text := "EPSG:4617", ellipsoid := grsEllipsoid }

def europe1989 : Frame := { name := "ETRS89", text := "EPSG:4258", ellipsoid := grsEllipsoid }

def france1993 : Frame := { name := "RGF93 v1", text := "EPSG:4171", ellipsoid := grsEllipsoid }

def australia1994 : Frame := { name := "GDA94", text := "EPSG:4283", ellipsoid := grsEllipsoid }

def europe1950 : Frame where
  name := "ED50"
  text := "EPSG:4230"
  ellipsoid := ⟨6378388, some 297⟩

def britain1936 : Frame where
  name := "OSGB36"
  text := "EPSG:4277"
  ellipsoid := ⟨6377563.396, some 299.3249646⟩

def americanSamoa : Frame where
  name := "American Samoa 1962"
  text := "EPSG:4169"
  ellipsoid := ⟨6378206.4, some 294.978698214⟩

def amersfoort : Frame where
  name := "Amersfoort"
  text := "EPSG:4289"
  ellipsoid := ⟨6377397.155, some 299.1528128⟩

def swiss : Frame where
  name := "CH1903+"
  text := "EPSG:4150"
  ellipsoid := ⟨6377397.155, some 299.1528128⟩

def southAmerica1969 : Frame where
  name := "SAD69"
  text := "EPSG:4618"
  ellipsoid := ⟨6378160, some 298.25⟩

def madrid : Frame where
  name := "Madrid 1870 (Madrid)"
  text := "EPSG:4903"
  ellipsoid := ⟨6378298.3, some 294.73⟩
  meridian := -3.687375

def france1895 : Frame where
  name := "NTF (Paris)"
  text := "EPSG:4807"
  ellipsoid := ⟨6378249.2, some 293.466021294⟩
  meridian := parisMeridian
  angularUnit := 0.9

/-! ## Systems -/

/-- A geographic system. -/
def geographic (text name : String) (frame : Frame) : Crs :=
  { text, name, system := .geographic frame }

/-- A system of three axes through the centre of the globe. -/
def geocentric (text name : String) (frame : Frame) : Crs :=
  { text, name, system := .geocentric frame }

/-- A system of heights. -/
def heights (text name : String) : Crs := { text, name, system := .vertical }

/-- A map projection with coordinates in metres. -/
def projected (text name : String) (frame : Frame) (method : Method)
    (parameters : List (Role × Quantity)) : Crs :=
  { text, name, system := .projected frame { method, parameters } }

/-- A map projection known by its definition only. -/
def unnamed (text : String) (frame : Frame) (method : Method)
    (parameters : List (Role × Quantity)) : Crs :=
  projected text "unknown" frame method parameters

end Registry

/-- A system that carries heights above a horizontal one. -/
def above (c : Crs) (text name : String) : Crs := { c with withoutHeight := some (text, name) }

/-- A projection with its coordinates in another unit. -/
def inUnit (c : Crs) (unit : Quantity) : Crs :=
  match c.system with
  | .projected frame plotting => { c with system := .projected frame { plotting with unit } }
  | _ => c

open Registry in
/-- Every system with a name. -/
def registry : List Crs := [
  projected "EPSG:2056" "CH1903+ / LV95" swiss .obliqueMercatorB
    [(.centreLatitude, 46.9524055555556), (.centreLongitude, 7.43958333333333),
     (.centreAzimuth, 90), (.skewAngle, 90), (.centreScale, 1), (.eastingAtCentre, 2600000),
     (.northingAtCentre, 1200000)],
  projected "EPSG:2062" "Madrid 1870 (Madrid) / Spain LCC" madrid .conicConformalOneParallel
    [(.naturalLatitude, 40), (.naturalLongitude, 0), (.naturalScale, 0.9988085293),
     (.falseEasting, 600000), (.falseNorthing, 600000)],
  projected "EPSG:2154" "RGF93 v1 / Lambert-93" france1993 .conicConformalTwoParallels
    [(.falseLatitude, 46.5), (.falseLongitude, 3), (.firstParallel, 49), (.secondParallel, 44),
     (.eastingAtFalseOrigin, 700000), (.northingAtFalseOrigin, 6600000)],
  projected "EPSG:2194" "American Samoa 1962 / American Samoa Lambert"
    americanSamoa .conicConformalOneParallel
    [(.naturalLatitude, -14.2666666666667), (.naturalLongitude, -170), (.naturalScale, 1),
     (.falseEasting, 500000), (.falseNorthing, 0)] |>.inUnit usFoot,
  projected "EPSG:25832" "ETRS89 / UTM zone 32N" europe1989 .transverseMercator
    [(.naturalLatitude, 0), (.naturalLongitude, 9), (.naturalScale, 0.9996),
     (.falseEasting, 500000), (.falseNorthing, 0)],
  projected "EPSG:27572" "NTF (Paris) / Lambert zone II" france1895 .conicConformalOneParallel
    [(.naturalLatitude, 46.8), (.naturalLongitude, 0), (.naturalScale, 0.99987742),
     (.falseEasting, 600000), (.falseNorthing, 2200000)],
  projected "EPSG:27700" "OSGB36 / British National Grid" britain1936 .transverseMercator
    [(.naturalLatitude, 49), (.naturalLongitude, -2), (.naturalScale, 0.9996012717),
     (.falseEasting, 400000), (.falseNorthing, -100000)],
  projected "EPSG:28992" "Amersfoort / RD New" amersfoort .obliqueStereographic
    [(.naturalLatitude, 52.1561605555556), (.naturalLongitude, 5.38763888888889),
     (.naturalScale, 0.9999079), (.falseEasting, 155000), (.falseNorthing, 463000)],
  projected "EPSG:3031" "WGS 84 / Antarctic Polar Stereographic" wgs84 .polarStereographicB
    [(.standardLatitude, -71), (.originLongitude, 0), (.falseEasting, 0), (.falseNorthing, 0)],
  projected "EPSG:3034" "ETRS89-extended / LCC Europe" europe1989 .conicConformalTwoParallels
    [(.falseLatitude, 52), (.falseLongitude, 10), (.firstParallel, 35), (.secondParallel, 65),
     (.eastingAtFalseOrigin, 4000000), (.northingAtFalseOrigin, 2800000)],
  projected "EPSG:3035" "ETRS89-extended / LAEA Europe" europe1989 .azimuthalEqualArea
    [(.naturalLatitude, 52), (.naturalLongitude, 10), (.falseEasting, 4321000),
     (.falseNorthing, 3210000)],
  projected "EPSG:3078" "NAD83 / Michigan Oblique Mercator" northAmerica1983 .obliqueMercatorA
    [(.centreLatitude, 45.3091666666667), (.centreLongitude, -86), (.centreAzimuth, 337.25556),
     (.skewAngle, 337.25556), (.centreScale, 0.9996), (.falseEasting, 2546731.496),
     (.falseNorthing, -4354009.816)],
  projected "EPSG:3112" "GDA94 / Geoscience Australia Lambert"
    australia1994 .conicConformalTwoParallels
    [(.falseLatitude, 0), (.falseLongitude, 134), (.firstParallel, -18), (.secondParallel, -36),
     (.eastingAtFalseOrigin, 0), (.northingAtFalseOrigin, 0)],
  projected "EPSG:32601" "WGS 84 / UTM zone 1N" wgs84 .transverseMercator
    [(.naturalLatitude, 0), (.naturalLongitude, -177), (.naturalScale, 0.9996),
     (.falseEasting, 500000), (.falseNorthing, 0)],
  projected "EPSG:32632" "WGS 84 / UTM zone 32N" wgs84 .transverseMercator
    [(.naturalLatitude, 0), (.naturalLongitude, 9), (.naturalScale, 0.9996),
     (.falseEasting, 500000), (.falseNorthing, 0)],
  projected "EPSG:32660" "WGS 84 / UTM zone 60N" wgs84 .transverseMercator
    [(.naturalLatitude, 0), (.naturalLongitude, 177), (.naturalScale, 0.9996),
     (.falseEasting, 500000), (.falseNorthing, 0)],
  projected "EPSG:32662" "WGS 84 / Plate Carree" wgs84 .equidistantCylindricalSpherical
    [(.naturalLatitude, 0), (.naturalLongitude, 0), (.falseEasting, 0), (.falseNorthing, 0)],
  projected "EPSG:32733" "WGS 84 / UTM zone 33S" wgs84 .transverseMercator
    [(.naturalLatitude, 0), (.naturalLongitude, 15), (.naturalScale, 0.9996),
     (.falseEasting, 500000), (.falseNorthing, 10000000)],
  projected "EPSG:3338" "NAD83 / Alaska Albers" northAmerica1983 .albersEqualArea
    [(.falseLatitude, 50), (.falseLongitude, -154), (.firstParallel, 55), (.secondParallel, 65),
     (.eastingAtFalseOrigin, 0), (.northingAtFalseOrigin, 0)],
  projected "EPSG:3348" "NAD83(CSRS) / Statistics Canada Lambert"
    canada .conicConformalTwoParallels
    [(.falseLatitude, 63.390675), (.falseLongitude, -91.8666666666667), (.firstParallel, 49),
     (.secondParallel, 77), (.eastingAtFalseOrigin, 6200000), (.northingAtFalseOrigin, 3000000)],
  projected "EPSG:3395" "WGS 84 / World Mercator" wgs84 .mercatorA
    [(.naturalLatitude, 0), (.naturalLongitude, 0), (.naturalScale, 1), (.falseEasting, 0),
     (.falseNorthing, 0)],
  projected "EPSG:3408" "NSIDC EASE-Grid North" authalicSphere .azimuthalEqualAreaSpherical
    [(.naturalLatitude, 90), (.naturalLongitude, 0), (.falseEasting, 0), (.falseNorthing, 0)],
  projected "EPSG:3413" "WGS 84 / NSIDC Sea Ice Polar Stereographic North"
    wgs84 .polarStereographicB
    [(.standardLatitude, 70), (.originLongitude, -45), (.falseEasting, 0), (.falseNorthing, 0)],
  projected "EPSG:3571" "WGS 84 / North Pole LAEA Bering Sea" wgs84 .azimuthalEqualArea
    [(.naturalLatitude, 90), (.naturalLongitude, 180), (.falseEasting, 0), (.falseNorthing, 0)],
  projected "EPSG:3832" "WGS 84 / PDC Mercator" wgs84 .mercatorA
    [(.naturalLatitude, 0), (.naturalLongitude, 150), (.naturalScale, 1), (.falseEasting, 0),
     (.falseNorthing, 0)],
  projected "EPSG:3857" "WGS 84 / Pseudo-Mercator" wgs84 .pseudoMercator
    [(.naturalLatitude, 0), (.naturalLongitude, 0), (.falseEasting, 0), (.falseNorthing, 0)],
  projected "EPSG:3994" "WGS 84 / Mercator 41" wgs84 .mercatorB
    [(.firstParallel, -41), (.naturalLongitude, 100), (.falseEasting, 0), (.falseNorthing, 0)],
  projected "EPSG:4087" "WGS 84 / World Equidistant Cylindrical" wgs84 .equidistantCylindrical
    [(.firstParallel, 0), (.naturalLongitude, 0), (.falseEasting, 0), (.falseNorthing, 0)],
  geographic "EPSG:4230" "ED50" europe1950,
  geographic "EPSG:4258" "ETRS89" europe1989,
  geographic "EPSG:4269" "NAD83" northAmerica1983,
  geographic "EPSG:4283" "GDA94" australia1994,
  geographic "EPSG:4326" "WGS 84" wgs84,
  geographic "EPSG:4807" "NTF (Paris)" france1895,
  geographic "EPSG:4939" "GDA94" australia1994 |>.above "EPSG:4283" "GDA94",
  geocentric "EPSG:4978" "WGS 84" wgs84,
  geographic "EPSG:4979" "WGS 84" wgs84 |>.above "EPSG:4326" "WGS 84",
  projected "EPSG:5041" "WGS 84 / UPS North (E,N)" wgs84 .polarStereographicA
    [(.naturalLatitude, 90), (.naturalLongitude, 0), (.naturalScale, 0.994),
     (.falseEasting, 2000000), (.falseNorthing, 2000000)],
  projected "EPSG:5042" "WGS 84 / UPS South (E,N)" wgs84 .polarStereographicA
    [(.naturalLatitude, -90), (.naturalLongitude, 0), (.naturalScale, 0.994),
     (.falseEasting, 2000000), (.falseNorthing, 2000000)],
  heights "EPSG:5703" "NAVD88 height",
  projected "EPSG:6931" "WGS 84 / NSIDC EASE-Grid 2.0 North" wgs84 .azimuthalEqualArea
    [(.naturalLatitude, 90), (.naturalLongitude, 0), (.falseEasting, 0), (.falseNorthing, 0)],
  projected "EPSG:6932" "WGS 84 / NSIDC EASE-Grid 2.0 South" wgs84 .azimuthalEqualArea
    [(.naturalLatitude, -90), (.naturalLongitude, 0), (.falseEasting, 0), (.falseNorthing, 0)],
  projected "EPSG:6933" "WGS 84 / NSIDC EASE-Grid 2.0 Global" wgs84 .cylindricalEqualArea
    [(.firstParallel, 30), (.naturalLongitude, 0), (.falseEasting, 0), (.falseNorthing, 0)],
  projected "EPSG:7405" "OSGB36 / British National Grid + ODN height"
    britain1936 .transverseMercator
    [(.naturalLatitude, 49), (.naturalLongitude, -2), (.naturalScale, 0.9996012717),
     (.falseEasting, 400000), (.falseNorthing, -100000)]
     |>.above "EPSG:27700" "OSGB36 / British National Grid",
  projected "EPSG:8857" "WGS 84 / Equal Earth Greenwich" wgs84 .equalEarth
    [(.naturalLongitude, 0), (.falseEasting, 0), (.falseNorthing, 0)],
  geographic "EPSG:9707" "WGS 84 + EGM96 height" wgs84 |>.above "EPSG:4326" "WGS 84",
  projected "ESRI:102017" "North_Pole_Lambert_Azimuthal_Equal_Area" wgs84 .azimuthalEqualArea
    [(.naturalLatitude, 90), (.naturalLongitude, 0), (.falseEasting, 0), (.falseNorthing, 0)],
  projected "ESRI:102018" "North_Pole_Stereographic" wgs84 .polarStereographicA
    [(.naturalLatitude, 90), (.naturalLongitude, 0), (.naturalScale, 1), (.falseEasting, 0),
     (.falseNorthing, 0)],
  projected "ESRI:102032" "South_America_Equidistant_Conic" southAmerica1969 .equidistantConic
    [(.falseLatitude, -32), (.falseLongitude, -60), (.firstParallel, -5), (.secondParallel, -42),
     (.eastingAtFalseOrigin, 0), (.northingAtFalseOrigin, 0)],
  projected "ESRI:54009" "World_Mollweide" wgs84 .mollweide
    [(.naturalLongitude, 0), (.falseEasting, 0), (.falseNorthing, 0)],
  projected "ESRI:54030" "World_Robinson" wgs84 .robinson
    [(.naturalLongitude, 0), (.falseEasting, 0), (.falseNorthing, 0)],
  geographic "OGC:CRS84" "WGS 84 (CRS84)" wgs84LongitudeFirst,
  unnamed "+proj=aeqd +lat_0=-45 +lon_0=0 +R=6371000 +type=crs" earthSphere .azimuthalEquidistant
    [(.naturalLatitude, -45), (.naturalLongitude, 0), (.falseEasting, 0), (.falseNorthing, 0)],
  unnamed "+proj=cea +lat_ts=30 +datum=WGS84 +type=crs" wgs84Unnamed .cylindricalEqualArea
    [(.firstParallel, 30), (.naturalLongitude, 0), (.falseEasting, 0), (.falseNorthing, 0)],
  unnamed "+proj=eqc +lon_0=90 +R=6371000 +type=crs" earthSphere .equidistantCylindricalSpherical
    [(.firstParallel, 0), (.naturalLatitude, 0), (.naturalLongitude, 90), (.falseEasting, 0),
     (.falseNorthing, 0)],
  unnamed "+proj=gnom +lat_0=90 +R=6371000 +type=crs" earthSphere .gnomonic
    [(.naturalLatitude, 90), (.naturalLongitude, 0), (.falseEasting, 0), (.falseNorthing, 0)],
  unnamed "+proj=laea +lat_0=10 +lon_0=-60 +R=6371000 +type=crs"
    earthSphere .azimuthalEqualAreaSpherical
    [(.naturalLatitude, 10), (.naturalLongitude, -60), (.falseEasting, 0), (.falseNorthing, 0)],
  unnamed "+proj=laea +lat_0=52 +lon_0=10 +x_0=4321000 +y_0=3210000 +datum=WGS84 +type=crs"
    wgs84Unnamed .azimuthalEqualArea
    [(.naturalLatitude, 52), (.naturalLongitude, 10), (.falseEasting, 4321000),
     (.falseNorthing, 3210000)],
  unnamed
    "+proj=lcc +lat_0=52 +lon_0=10 +lat_1=35 +lat_2=65 +x_0=4000000 +y_0=2800000 +datum=WGS84 +type=crs"
    wgs84Unnamed .conicConformalTwoParallels
    [(.falseLatitude, 52), (.falseLongitude, 10), (.firstParallel, 35), (.secondParallel, 65),
     (.eastingAtFalseOrigin, 4000000), (.northingAtFalseOrigin, 2800000)],
  unnamed "+proj=lcc +lat_1=-20 +lat_2=-40 +lat_0=-30 +lon_0=135 +R=6371000 +type=crs"
    earthSphere .conicConformalTwoParallels
    [(.falseLatitude, -30), (.falseLongitude, 135), (.firstParallel, -20),
     (.secondParallel, -40), (.eastingAtFalseOrigin, 0), (.northingAtFalseOrigin, 0)],
  unnamed "+proj=lcc +lat_1=20 +lat_2=-20.5 +lat_0=0 +lon_0=0 +R=6371000 +type=crs"
    earthSphere .conicConformalTwoParallels
    [(.falseLatitude, 0), (.falseLongitude, 0), (.firstParallel, 20), (.secondParallel, -20.5),
     (.eastingAtFalseOrigin, 0), (.northingAtFalseOrigin, 0)],
  unnamed "+proj=lcc +lat_1=30 +lat_0=30 +lon_0=-96 +R=6371000 +type=crs"
    earthSphere .conicConformalOneParallel
    [(.naturalLatitude, 30), (.naturalLongitude, -96), (.naturalScale, 1), (.falseEasting, 0),
     (.falseNorthing, 0)],
  geographic "+proj=longlat +R=1737400 +type=crs" "unknown" moonSphere,
  geographic "+proj=longlat +R=6371000 +type=crs" "unknown" earthSphere,
  geographic "+proj=longlat +datum=WGS84 +pm=paris +type=crs" "unknown" wgs84Paris,
  unnamed "+proj=merc +datum=WGS84 +units=us-ft +type=crs" wgs84Unnamed .mercatorA
    [(.naturalLatitude, 0), (.naturalLongitude, 0), (.naturalScale, 1), (.falseEasting, 0),
     (.falseNorthing, 0)] |>.inUnit usFoot,
  unnamed "+proj=merc +lon_0=-100 +datum=WGS84 +type=crs" wgs84Unnamed .mercatorA
    [(.naturalLatitude, 0), (.naturalLongitude, -100), (.naturalScale, 1), (.falseEasting, 0),
     (.falseNorthing, 0)],
  unnamed "+proj=merc +lon_0=150 +R=6371000 +type=crs" earthSphere .mercatorA
    [(.naturalLatitude, 0), (.naturalLongitude, 150), (.naturalScale, 1), (.falseEasting, 0),
     (.falseNorthing, 0)],
  unnamed "+proj=moll +R=6371000 +type=crs" earthSphere .mollweide
    [(.naturalLongitude, 0), (.falseEasting, 0), (.falseNorthing, 0)],
  unnamed "+proj=omerc +lat_0=4 +lonc=115 +alpha=53 +gamma=53 +R=6371000 +type=crs"
    earthSphere .obliqueMercatorB
    [(.centreLatitude, 4), (.centreLongitude, 115), (.centreAzimuth, 53), (.skewAngle, 53),
     (.centreScale, 1), (.eastingAtCentre, 0), (.northingAtCentre, 0)],
  unnamed "+proj=ortho +lat_0=0 +lon_0=20 +R=6371000 +type=crs" earthSphere .orthographic
    [(.naturalLatitude, 0), (.naturalLongitude, 20), (.falseEasting, 0), (.falseNorthing, 0)],
  unnamed "+proj=ortho +lat_0=50 +lon_0=0 +R=6371000 +type=crs" earthSphere .orthographic
    [(.naturalLatitude, 50), (.naturalLongitude, 0), (.falseEasting, 0), (.falseNorthing, 0)],
  unnamed "+proj=sinu +R=6371000 +type=crs" earthSphere .sinusoidal
    [(.naturalLongitude, 0), (.falseEasting, 0), (.falseNorthing, 0)],
  unnamed "+proj=stere +lat_0=44.9 +R=6371000 +type=crs" earthSphere .stereographic
    [(.naturalLatitude, 44.9), (.naturalLongitude, 0), (.naturalScale, 1), (.falseEasting, 0),
     (.falseNorthing, 0)],
  unnamed "+proj=stere +lat_0=45 +R=6371000 +type=crs" earthSphere .stereographic
    [(.naturalLatitude, 45), (.naturalLongitude, 0), (.naturalScale, 1), (.falseEasting, 0),
     (.falseNorthing, 0)],
  unnamed "+proj=tmerc +lon_0=-175 +R=6371000 +type=crs" earthSphere .transverseMercator
    [(.naturalLatitude, 0), (.naturalLongitude, -175), (.naturalScale, 1), (.falseEasting, 0),
     (.falseNorthing, 0)]
]

/-- The text of a system with its authority in capitals. -/
def canonicalText (text : String) : String :=
  match text.splitOn ":" with
  | [authority, code] => authority.toUpper ++ ":" ++ code
  | _ => text

/-- The system that a text identifies. -/
def find? (text : String) : Option Crs :=
  let wanted := canonicalText text
  registry.find? (·.text == wanted)

/-- The system that a code of the first authority identifies. -/
def ofCode? (code : Int) : Option Crs := find? ("EPSG:" ++ toString code)

/-- Longitude and latitude of satellite positioning, the system in which distant data are
compared. -/
def wgs84 : Crs := ofFrame Registry.wgs84

end Antimeridian.Crs
