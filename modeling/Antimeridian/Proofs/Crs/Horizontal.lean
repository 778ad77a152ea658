import Antimeridian.Crs.Basic

/-!
# Systems without heights

What a system is, its heights aside, does not change when they are left out.
-/

namespace Antimeridian.Crs

@[simp] theorem system_horizontal (c : Crs) : c.horizontal.system = c.system := by
  unfold horizontal
  split <;> rfl

@[simp] theorem horizontal_horizontal (c : Crs) : c.horizontal.horizontal = c.horizontal := by
  cases heq : c.withoutHeight <;> simp [horizontal, heq]

@[simp] theorem isGeographic_horizontal (c : Crs) : c.horizontal.isGeographic = c.isGeographic := by
  rw [isGeographic, isGeographic, system_horizontal]

@[simp] theorem same_horizontal_left (a b : Crs) : a.horizontal.same b = a.same b := by
  rw [same, same, system_horizontal, horizontal_horizontal]

@[simp] theorem same_horizontal_right (a b : Crs) : a.same b.horizontal = a.same b := by
  rw [same, same, system_horizontal, horizontal_horizontal]

theorem System.plotsAs_comm (a b : System) : a.plotsAs b = b.plotsAs a := by
  cases a with
  | projected f p =>
      cases b with
      | projected g q => simp only [plotsAs, BEq.comm (a := f.key), BEq.comm (a := p)]
      | geographic _ | geocentric _ | vertical => rfl
  | geographic _ | geocentric _ | vertical =>
      cases b <;> rfl

theorem beq_comm (a b : Crs) : (a == b) = (b == a) := by
  change (a.text == b.text || a.definedAs b) = (b.text == a.text || b.definedAs a)
  rw [BEq.comm (a := a.text), definedAs, definedAs, System.plotsAs_comm,
    Bool.and_comm a.withoutHeight.isNone]

theorem same_comm (a b : Crs) : a.same b = b.same a := by
  unfold same
  cases a.system <;> cases b.system <;> simp only [beq_comm a.horizontal, BEq.comm (α := String)]

theorem same_self_of_isGeographic {c : Crs} (hgeographic : c.isGeographic = true) :
    c.same c = true := by
  unfold isGeographic at hgeographic
  unfold same
  split at hgeographic
  next heq => simp [heq]
  next => contradiction

end Antimeridian.Crs
