import Antimeridian.Envelope.Basic
import Antimeridian.Proofs.Geometry.Map
import Antimeridian.Proofs.Scalar.Extended

/-!
# Geometries with numbers as coordinates

A vertex, a geometry or an envelope over a field stands for one over exact scalars whose
coordinates are all numbers. Moving it and bounding it are then done in the field.
-/

namespace Antimeridian

/-- The least element of a list of numbers; zero for the empty list. -/
def least {K : Type} [Zero K] [Min K] (xs : List K) : K := xs.min?.getD 0

/-- The greatest element of a list of numbers; zero for the empty list. -/
def greatest {K : Type} [Zero K] [Max K] (xs : List K) : K := xs.max?.getD 0

section Extremes

variable {K : Type} [Field K] [LinearOrder K]

theorem least_spec {xs : List K} (hne : xs ≠ []) : least xs ∈ xs ∧ ∀ x ∈ xs, least xs ≤ x := by
  rw [← List.min?_eq_some_iff]
  cases xs with
  | nil => contradiction
  | cons x rest => rfl

theorem greatest_spec {xs : List K} (hne : xs ≠ []) :
    greatest xs ∈ xs ∧ ∀ x ∈ xs, x ≤ greatest xs := by
  rw [← List.max?_eq_some_iff]
  cases xs with
  | nil => contradiction
  | cons x rest => rfl

variable [IsStrictOrderedRing K]

theorem least_map_add {xs : List K} (hne : xs ≠ []) (dx : K) :
    least (xs.map (· + dx)) = least xs + dx := by
  have hmoved := @least_spec K _ _ (xs.map (· + dx)) (by simpa using hne)
  have hown := least_spec hne
  obtain ⟨x, hx, heq⟩ := List.mem_map.mp hmoved.1
  apply le_antisymm
  · exact hmoved.2 _ (List.mem_map_of_mem hown.1)
  · rw [← heq]
    exact add_le_add_left (hown.2 x hx) dx

theorem greatest_map_add {xs : List K} (hne : xs ≠ []) (dx : K) :
    greatest (xs.map (· + dx)) = greatest xs + dx := by
  have hmoved := @greatest_spec K _ _ (xs.map (· + dx)) (by simpa using hne)
  have hown := greatest_spec hne
  obtain ⟨x, hx, heq⟩ := List.mem_map.mp hmoved.1
  apply le_antisymm
  · rw [← heq]
    exact add_le_add_left (hown.2 x hx) dx
  · exact hmoved.2 _ (List.mem_map_of_mem hown.1)

end Extremes

namespace Vertex

/-- The vertex among exact scalars. -/
def finite {K : Type} (v : Vertex K) : Vertex (Extended K) := v.convert Extended.finite

/-- The vertex moved along the horizontal axis. -/
def translate {K : Type} [Add K] (dx : K) (v : Vertex K) : Vertex K := { v with x := v.x + dx }

variable {K : Type}

@[simp] theorem finite_x (v : Vertex K) : v.finite.x = .finite v.x := rfl

@[simp] theorem finite_y (v : Vertex K) : v.finite.y = .finite v.y := rfl

@[simp] theorem finite_z (v : Vertex K) : v.finite.z = v.z.map .finite := rfl

@[simp] theorem translate_x [Add K] (dx : K) (v : Vertex K) : (v.translate dx).x = v.x + dx := rfl

@[simp] theorem translate_y [Add K] (dx : K) (v : Vertex K) : (v.translate dx).y = v.y := rfl

@[simp] theorem translate_z [Add K] (dx : K) (v : Vertex K) : (v.translate dx).z = v.z := rfl

theorem translate_zero [AddMonoid K] (v : Vertex K) : v.translate 0 = v := by
  rw [translate, add_zero]

theorem finite_injective : Function.Injective (finite : Vertex K → Vertex (Extended K)) := by
  rintro ⟨x, y, z⟩ ⟨x', y', z'⟩ heq
  obtain ⟨hx, hy, hz⟩ := Vertex.mk.inj heq
  cases Extended.finite.inj hx
  cases Extended.finite.inj hy
  cases Option.map_injective (fun _ _ => Extended.finite.inj) hz
  rfl

end Vertex

namespace Geometry

variable {K : Type}

/-- The geometry among exact scalars. -/
def finite (g : Geometry K) : Geometry (Extended K) := g.convert Extended.finite

theorem finite_eq_map (g : Geometry K) : g.finite = g.map Vertex.finite := rfl

theorem finite_injective [Zero K] :
    Function.Injective (finite : Geometry K → Geometry (Extended K)) :=
  have : Nonempty (Vertex K) := ⟨⟨0, 0, none⟩⟩
  map_injective Vertex.finite_injective

@[simp] theorem isEmpty_finite (g : Geometry K) : g.finite.isEmpty = g.isEmpty := isEmpty_map _ g

@[simp] theorem vertices_finite (g : Geometry K) :
    g.finite.vertices = g.vertices.map Vertex.finite := vertices_map _ g

@[simp] theorem outline_finite (g : Geometry K) :
    g.finite.outline = g.outline.map Vertex.finite := outline_map _ g

@[simp] theorem parts_finite (g : Geometry K) : g.finite.parts = g.parts.map finite :=
  parts_map _ g

/-- The geometry moved along the horizontal axis. -/
def translate [Add K] (g : Geometry K) (dx : K) : Geometry K := g.map (Vertex.translate dx)

@[simp] theorem isEmpty_translate [Add K] (g : Geometry K) (dx : K) :
    (g.translate dx).isEmpty = g.isEmpty := isEmpty_map _ g

@[simp] theorem translate_zero [AddMonoid K] (g : Geometry K) : g.translate 0 = g :=
  (map_congr fun v _ => v.translate_zero).trans g.map_id

/-- The least abscissa of a geometry that is not empty. -/
def west [Zero K] [Min K] (g : Geometry K) : K := least (g.outline.map (·.x))

/-- The greatest abscissa of a geometry that is not empty. -/
def east [Zero K] [Max K] (g : Geometry K) : K := greatest (g.outline.map (·.x))

/-- The least ordinate of a geometry that is not empty. -/
def south [Zero K] [Min K] (g : Geometry K) : K := least (g.outline.map (·.y))

/-- The greatest ordinate of a geometry that is not empty. -/
def north [Zero K] [Max K] (g : Geometry K) : K := greatest (g.outline.map (·.y))

variable [Field K] [LinearOrder K]

theorem bounds?_finite [FloorRing K] {g : Geometry K} (hne : g.isEmpty = false) :
    g.finite.bounds? =
      some (.finite g.west, .finite g.south, .finite g.east, .finite g.north) := by
  rw [bounds?, outline_finite, west, south, east, north]
  cases houtline : g.outline with
  | nil => simp [(outline_eq_nil_iff g).mp houtline] at hne
  | cons v rest =>
      have hx : (rest.map Vertex.finite).map (·.x) = (rest.map (·.x)).map Extended.finite := by
        simp
      have hy : (rest.map Vertex.finite).map (·.y) = (rest.map (·.y)).map Extended.finite := by
        simp
      simp only [List.map_cons, hx, hy, Vertex.finite_x, Vertex.finite_y,
        Extended.minimum_finite, Extended.maximum_finite]
      rfl

omit [Field K] [LinearOrder K] in
theorem outline_map_ne_nil {β : Type} {g : Geometry K} (hne : g.isEmpty = false)
    (f : Vertex K → β) : g.outline.map f ≠ [] := by
  intro hnil
  rw [(outline_eq_nil_iff g).mp (List.map_eq_nil_iff.mp hnil)] at hne
  contradiction

theorem west_le {g : Geometry K} {v : Vertex K} (hv : v ∈ g.outline) : g.west ≤ v.x :=
  (least_spec (List.ne_nil_of_mem (List.mem_map_of_mem hv))).2 _ (List.mem_map_of_mem hv)

theorem le_east {g : Geometry K} {v : Vertex K} (hv : v ∈ g.outline) : v.x ≤ g.east :=
  (greatest_spec (List.ne_nil_of_mem (List.mem_map_of_mem hv))).2 _ (List.mem_map_of_mem hv)

theorem south_le {g : Geometry K} {v : Vertex K} (hv : v ∈ g.outline) : g.south ≤ v.y :=
  (least_spec (List.ne_nil_of_mem (List.mem_map_of_mem hv))).2 _ (List.mem_map_of_mem hv)

theorem le_north {g : Geometry K} {v : Vertex K} (hv : v ∈ g.outline) : v.y ≤ g.north :=
  (greatest_spec (List.ne_nil_of_mem (List.mem_map_of_mem hv))).2 _ (List.mem_map_of_mem hv)

theorem exists_west {g : Geometry K} (hne : g.isEmpty = false) : ∃ v ∈ g.outline, v.x = g.west :=
  List.mem_map.mp (least_spec (outline_map_ne_nil hne _)).1

theorem exists_east {g : Geometry K} (hne : g.isEmpty = false) : ∃ v ∈ g.outline, v.x = g.east :=
  List.mem_map.mp (greatest_spec (outline_map_ne_nil hne _)).1

theorem exists_south {g : Geometry K} (hne : g.isEmpty = false) :
    ∃ v ∈ g.outline, v.y = g.south :=
  List.mem_map.mp (least_spec (outline_map_ne_nil hne _)).1

theorem exists_north {g : Geometry K} (hne : g.isEmpty = false) :
    ∃ v ∈ g.outline, v.y = g.north :=
  List.mem_map.mp (greatest_spec (outline_map_ne_nil hne _)).1

theorem west_le_east {g : Geometry K} (hne : g.isEmpty = false) : g.west ≤ g.east := by
  obtain ⟨v, hv, heq⟩ := exists_west hne
  exact heq ▸ le_east hv

variable [IsStrictOrderedRing K]

theorem abs_sub_le_width {g : Geometry K} {v w : Vertex K} (hv : v ∈ g.outline)
    (hw : w ∈ g.outline) : |w.x - v.x| ≤ g.east - g.west :=
  abs_sub_le_iff.mpr ⟨sub_le_sub (le_east hw) (west_le hv), sub_le_sub (le_east hv) (west_le hw)⟩

/-- Moving every abscissa by one amount moves the bounds with them. -/
theorem west_map {g : Geometry K} (hne : g.isEmpty = false) {f : Vertex K → Vertex K} {dx : K}
    (hf : ∀ v ∈ g.outline, (f v).x = v.x + dx) : (g.map f).west = g.west + dx := by
  rw [west, west, ← least_map_add (outline_map_ne_nil hne _), outline_map, List.map_map,
    List.map_map]
  exact congrArg least (List.map_congr_left hf)

theorem east_map {g : Geometry K} (hne : g.isEmpty = false) {f : Vertex K → Vertex K} {dx : K}
    (hf : ∀ v ∈ g.outline, (f v).x = v.x + dx) : (g.map f).east = g.east + dx := by
  rw [east, east, ← greatest_map_add (outline_map_ne_nil hne _), outline_map, List.map_map,
    List.map_map]
  exact congrArg greatest (List.map_congr_left hf)

omit [IsStrictOrderedRing K] in
theorem shift_finite [FloorRing K] (g : Geometry K) (dx : K) :
    g.finite.shift (.finite dx) = (g.translate dx).finite := by
  rw [shift, finite_eq_map, finite_eq_map, translate, map_map, map_map]
  rfl

end Geometry

namespace Envelope

variable {K : Type}

/-- The envelope among exact scalars. -/
def finite (e : Envelope K) : Envelope (Extended K) :=
  ⟨.finite e.minx, .finite e.miny, .finite e.maxx, .finite e.maxy, e.crs⟩

@[simp] theorem finite_minx (e : Envelope K) : e.finite.minx = .finite e.minx := rfl

@[simp] theorem finite_miny (e : Envelope K) : e.finite.miny = .finite e.miny := rfl

@[simp] theorem finite_maxx (e : Envelope K) : e.finite.maxx = .finite e.maxx := rfl

@[simp] theorem finite_maxy (e : Envelope K) : e.finite.maxy = .finite e.maxy := rfl

@[simp] theorem finite_crs (e : Envelope K) : e.finite.crs = e.crs := rfl

theorem finite_injective : Function.Injective (finite : Envelope K → Envelope (Extended K)) := by
  rintro ⟨minx, miny, maxx, maxy, crs⟩ ⟨minx', miny', maxx', maxy', crs'⟩ heq
  obtain ⟨hwest, hsouth, heast, hnorth, hcrs⟩ := Envelope.mk.inj heq
  cases Extended.finite.inj hwest
  cases Extended.finite.inj hsouth
  cases Extended.finite.inj heast
  cases Extended.finite.inj hnorth
  cases hcrs
  rfl

end Envelope

end Antimeridian
