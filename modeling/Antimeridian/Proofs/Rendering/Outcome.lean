import Antimeridian.Rendering.Copies
import Mathlib

/-!
# What work on a request comes to

Work on a rendering request started in a state comes to a result or to a failure, and leaves a
state behind. The lemmas below run it step by step. Work on a geometry begins with a check that
there is one, and cutting it to the queries then depends on them and on the choice about the
antimeridian only.
-/

namespace Antimeridian.Rendering.Action

variable {α β γ : Type}

/-- What work comes to in a state, and the state it leaves. -/
def outcome (work : Action α β) (s : State α) : Except (Failure α) β × State α := work.run.run s

@[simp] theorem outcome_pure (b : β) (s : State α) :
    outcome (pure b : Action α β) s = (.ok b, s) := rfl

theorem outcome_bind (work : Action α β) (next : β → Action α γ) (s : State α) :
    outcome (work >>= next) s =
      match outcome work s with
      | (.ok b, s') => outcome (next b) s'
      | (.error failure, s') => (.error failure, s') := by
  unfold outcome ExceptT.run StateT.run
  simp only [bind, ExceptT.bind, ExceptT.mk, StateT.bind, ExceptT.bindCont]
  cases work s with
  | mk result s' => cases result <;> rfl

theorem outcome_map (f : β → γ) (work : Action α β) (s : State α) :
    outcome (f <$> work) s =
      match outcome work s with
      | (.ok b, s') => (.ok (f b), s')
      | (.error failure, s') => (.error failure, s') := by
  unfold outcome ExceptT.run StateT.run
  simp only [Functor.map, ExceptT.map, ExceptT.mk, bind, StateT.bind]
  cases work s with
  | mk result s' => cases result <;> rfl

theorem outcome_map_eq_ok_iff {f : β → γ} {work : Action α β} {c : γ} {s s' : State α} :
    outcome (f <$> work) s = (.ok c, s') ↔ ∃ b, outcome work s = (.ok b, s') ∧ f b = c := by
  rw [outcome_map]
  rcases outcome work s with ⟨failure | b, s₁⟩
  · simp
  · simp [and_comm]

@[simp] theorem outcome_lift (result : Except (Failure α) β) (s : State α) :
    outcome (liftM result) s = (result, s) := rfl

@[simp] theorem outcome_get (s : State α) : outcome (get : Action α (State α)) s = (.ok s, s) := rfl

@[simp] theorem outcome_set (s s' : State α) :
    outcome (set s' : Action α PUnit) s = (.ok ⟨⟩, s') := rfl

@[simp] theorem outcome_modify (f : State α → State α) (s : State α) :
    outcome (modify f : Action α PUnit) s = (.ok ⟨⟩, f s) := rfl

end Antimeridian.Rendering.Action

namespace Antimeridian.Rendering

variable {α : Type}

/-! ## Checking geometries -/

theorem checkGeometry_eq_ok {g : Option (Geometry α)} {shape : Geometry α} :
    checkGeometry g = .ok shape ↔ g = some shape ∧ shape.isEmpty = false := by
  rcases g with _ | own
  · simp [checkGeometry]
  · cases hempty : own.isEmpty with
    | true =>
        simp only [checkGeometry, hempty, ↓reduceIte, reduceCtorEq, Option.some.injEq, false_iff]
        rintro ⟨rfl, hsome⟩
        simp [hempty] at hsome
    | false =>
        simp only [checkGeometry, hempty, Bool.false_eq_true, ↓reduceIte, Except.ok.injEq,
          Option.some.injEq, iff_self_and]
        rintro rfl
        exact hempty

theorem checkGeometry_some {g : Geometry α} (hne : g.isEmpty = false) :
    checkGeometry (some g) = .ok g :=
  checkGeometry_eq_ok.mpr ⟨rfl, hne⟩

/-! ## Cutting geometries -/

variable [Scalar α] (setting : Setting α) (r : Rendering α)

/-- What cutting a geometry to some queries comes to. -/
def cutToQueries (g : Geometry α) (across : Bool) (found : List (Envelope α)) :
    Except (Failure α) (Revision α) := do
  let e := Envelope.ofGeometry g (some r.source)
  let mask := r.queryMask across found
  match ← r.validMask setting e with
  | none => return cutTo setting mask g e
  | some valid => return cutTo setting (mask.map (·.intersection valid)) g e

variable {setting r} {g : Geometry α}

/-- A geometry is cut once the queries are there, and cutting it leaves everything else alone. -/
theorem outcome_preProcess_eq (hne : g.isEmpty = false) (s : State α) :
    (r.preProcess setting (some g)).outcome s =
      match (r.queries setting).outcome s with
      | (.error failure, s') => (.error failure, s')
      | (.ok found, s') => (r.cutToQueries setting g s'.acrossDateline found, s') := by
  unfold preProcess cutToQueries
  rw [Action.outcome_bind, Action.outcome_lift, checkGeometry_some hne]
  simp only [Action.outcome_bind]
  rcases (r.queries setting).outcome s with ⟨failure | found, s'⟩
  · rfl
  · simp only [Action.outcome_get, Action.outcome_lift]
    rcases r.validMask setting (Envelope.ofGeometry g (some r.source)) with
      failure | _ | valid <;> rfl

end Antimeridian.Rendering
