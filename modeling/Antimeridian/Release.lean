/-!
# Release

The version of the library.
-/

namespace Antimeridian

/-- The version of the library: major, minor and patch number. -/
def version : String := "0.1.0"

end Antimeridian
