import Antimeridian.Crs.Reference
import Antimeridian.Document.Number

/-!
# Envelopes and systems in documents

An envelope is a record of its four bounds and its system, or one that says that it is empty. A
system is a value that names one.
-/

namespace Antimeridian.Document

open Text (Literal)

/-- The system under a name of a record, which has to be there. -/
def crs (l : Literal) : Reading Crs := Crs.ofLiteral l

/-- A system that may be missing. -/
def crs? (l : Literal) : Reading (Option Crs) := Crs.ofLiteral? l

/-- The envelope that a value describes. -/
def envelope (l : Literal) : Reading (Envelope Float) := do
  if (l.field "empty").holds then return Envelope.empty (← crs? (l.field "crs"))
  match (l.field "bounds").items with
  | [west, south, east, north] =>
    return ⟨← number west, ← number south, ← number east, ← number north,
      ← crs? (l.field "crs")⟩
  | _ => .error .valueRejected

end Antimeridian.Document
