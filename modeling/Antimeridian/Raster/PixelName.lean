import Antimeridian.Raster.Pixel

/-!
# Names of pixel types

A pixel type has a name, other names for the same, and codes: a letter for the kind of number,
the bytes of a pixel, and perhaps a mark for their order in front. The memory of a read can be
estimated for more kinds of pixels than rasters hold.
-/

namespace Antimeridian.PixelType

/-- Names for pixel types besides their own. -/
def synonyms : List (String × PixelType) := [
  ("byte", int8), ("ubyte", uint8), ("short", int16), ("ushort", uint16), ("intc", int32),
  ("uintc", uint32), ("int", int64), ("uint", uint64), ("intp", int64), ("uintp", uint64),
  ("long", int64), ("ulong", uint64), ("longlong", int64), ("ulonglong", uint64),
  ("half", float16), ("single", float32), ("double", float64), ("float", float64),
  ("bool_", flag)]

/-- Codes of pixel types. -/
def codes : List (String × PixelType) := [
  ("i1", int8), ("u1", uint8), ("i2", int16), ("u2", uint16), ("i4", int32), ("u4", uint32),
  ("i8", int64), ("u8", uint64), ("f2", float16), ("f4", float32), ("f8", float64), ("b1", flag),
  ("b", int8), ("B", uint8), ("h", int16), ("H", uint16), ("i", int32), ("I", uint32), ("l", int64),
  ("L", uint64), ("q", int64), ("Q", uint64), ("p", int64), ("P", uint64), ("e", float16),
  ("f", float32), ("d", float64), ("?", flag)]

/-- Sizes in bytes of pixels that rasters do not hold, by name and code. -/
def otherSizes : List (String × Nat) := [
  ("complex64", 8), ("csingle", 8), ("complex128", 16), ("cdouble", 16), ("complex", 16),
  ("complex256", 32), ("clongdouble", 32), ("float128", 16), ("longdouble", 16),
  ("datetime64", 8), ("timedelta64", 8), ("object", 8), ("str", 0), ("bytes", 0), ("void", 0),
  ("c8", 8), ("F", 8), ("c16", 16), ("D", 16), ("c32", 32), ("G", 32), ("f16", 16), ("g", 16),
  ("M8", 8), ("m8", 8), ("M", 8), ("m", 8), ("O", 8), ("O8", 8), ("S", 0), ("U", 0), ("V", 0),
  ("c", 1)]

/-- A code without the mark for the order of its bytes. -/
def withoutOrder (code : String) : String :=
  match code.toList with
  | mark :: rest =>
    if mark = '<' || mark = '>' || mark = '=' || mark = '|' then String.ofList rest else code
  | [] => code

/-- The pixel type of a name or a code. -/
def ofName? (text : String) : Option PixelType :=
  (all.find? (·.label == text)) <|> synonyms.lookup text <|> codes.lookup (withoutOrder text)

/-- The number of bytes of the pixels of a name or a code. -/
def sizeOfName? (text : String) : Option Nat :=
  ((ofName? text).map size) <|> otherSizes.lookup (withoutOrder text)

end Antimeridian.PixelType
