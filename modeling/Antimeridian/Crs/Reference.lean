import Antimeridian.Crs.Registry
import Antimeridian.Failure
import Antimeridian.Text.Literal

/-!
# References to systems

A caller names a reference system by its text or by its code. Anything else names none, and a
missing value asks for a system where one is required.
-/

namespace Antimeridian.Crs

open Text (Literal)

variable {α : Type}

/-- The system that a value names. -/
def ofLiteral (value : Literal) : Except (Failure α) Crs :=
  let known (found : Option Crs) : Except (Failure α) Crs :=
    match found with
    | some crs => .ok crs
    | none => .error (.crsUnknown value.write)
  match value with
  | .missing => .error .crsMissing
  | .text text => known (find? text)
  | .whole code => known (ofCode? code)
  | .flag _ | .decimal _ | .list _ | .record _ => .error (.crsUnknown value.write)

/-- The system that a value names, none where the value is missing. -/
def ofLiteral? : Literal → Except (Failure α) (Option Crs)
  | .missing => .ok none
  | value => some <$> ofLiteral value

end Antimeridian.Crs
