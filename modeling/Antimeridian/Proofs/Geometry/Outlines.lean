import Antimeridian.Proofs.Geometry.Painted
import Antimeridian.Proofs.Envelope.Exact

/-!
# Outlines of envelopes

The outline of an envelope is a polygon with the bounds of the envelope that paints all of it.
-/

namespace Antimeridian

namespace Geometry

variable {α β : Type}

/-! ## Polygons of a geometry -/

@[simp] theorem extractPolygonsAll_eq (gs : List (Geometry α)) :
    extractPolygonsAll gs = gs.flatMap extractPolygons := by
  induction gs with
  | nil => rfl
  | cons g rest ih => rw [extractPolygonsAll, ih, List.flatMap_cons]

theorem extractPolygons_map (f : Vertex α → Vertex β) (g : Geometry α) :
    (g.map f).extractPolygons = g.extractPolygons.map (·.map (·.map f)) := by
  induction g with
  | point | line | ring | points | lines => rfl
  | polygon rings =>
      rw [map, extractPolygons, extractPolygons, isEmptyPolygon_map]
      split <;> rfl
  | polygons members =>
      rw [map, extractPolygons, extractPolygons, List.filter_map]
      congr 1
      refine List.filter_congr fun rings _ => ?_
      rw [Function.comp_apply, isEmptyPolygon_map]
  | collection members ih =>
      simp only [map, extractPolygons, mapAll_eq, extractPolygonsAll_eq, List.flatMap_map,
        List.map_flatMap]
      exact List.flatMap_congr ih

theorem isEmptyPolygon_of_mem {g : Geometry α} {rings : List (List (Vertex α))}
    (hrings : rings ∈ g.extractPolygons) : isEmptyPolygon rings = false ∧ g.isEmpty = false := by
  induction g with
  | point | line | ring | points | lines => contradiction
  | polygon own =>
      rw [extractPolygons] at hrings
      split at hrings
      · contradiction
      next hsome =>
        obtain rfl := List.mem_singleton.mp hrings
        have hempty := Bool.eq_false_iff.mpr hsome
        exact ⟨hempty, hempty⟩
  | polygons members =>
      obtain ⟨hmem, hsome⟩ := List.mem_filter.mp hrings
      rw [Bool.not_eq_true'] at hsome
      refine ⟨hsome, ?_⟩
      rw [isEmpty, List.all_eq_false]
      exact ⟨rings, hmem, by simp [hsome]⟩
  | collection members ih =>
      rw [extractPolygons, extractPolygonsAll_eq] at hrings
      obtain ⟨g, hg, hrings⟩ := List.mem_flatMap.mp hrings
      obtain ⟨hempty, hsome⟩ := ih g hg hrings
      refine ⟨hempty, ?_⟩
      rw [isEmpty, isEmptyAll_eq, List.all_eq_false]
      exact ⟨g, hg, by simp [hsome]⟩

end Geometry

namespace Envelope

variable {K : Type}

/-- The corners of an envelope, counter-clockwise from the south-eastern one and back to it. -/
def corners (e : Envelope K) : List (Vertex K) :=
  [⟨e.maxx, e.miny, none⟩, ⟨e.maxx, e.maxy, none⟩, ⟨e.minx, e.maxy, none⟩,
    ⟨e.minx, e.miny, none⟩, ⟨e.maxx, e.miny, none⟩]

theorem flat_of_mem_corners {e : Envelope K} {v : Vertex K} (hv : v ∈ e.corners) : v.z = none := by
  simp only [corners, List.mem_cons, List.not_mem_nil, or_false] at hv
  rcases hv with rfl | rfl | rfl | rfl | rfl <;> rfl

/-- The outline of an envelope. -/
def surrounded (e : Envelope K) : Geometry K := .polygon [e.corners]

variable [Field K] [LinearOrder K] {e : Envelope K}

theorem toPolygon_finite [FloorRing K] (harea : e.HasArea) :
    e.finite.toPolygon = e.surrounded.finite := by
  have hopen : e.minx ≠ e.maxx := harea.1.ne
  rw [toPolygon, isEmpty_finite harea.occupied]
  simp [Geometry.closed, Vertex.sameAs, hopen, surrounded, corners, Geometry.finite_eq_map,
    Geometry.map, Vertex.finite, Vertex.convert]

theorem bounds_surrounded (hocc : e.Occupied) : e.surrounded.west = e.minx ∧
    e.surrounded.south = e.miny ∧ e.surrounded.east = e.maxx ∧ e.surrounded.north = e.maxy := by
  obtain ⟨hx, hy⟩ := hocc
  simp [Geometry.west, Geometry.south, Geometry.east, Geometry.north, least, greatest,
    Geometry.outline, surrounded, corners, List.min?, List.max?, hx, hy]

variable [IsStrictOrderedRing K]

/-- The outline of an envelope paints the envelope. -/
theorem painted_surrounded (hocc : e.Occupied) : e.surrounded.painted = e.region := by
  have hsides : Geometry.sides (e.corners.map Vertex.place) =
      [((e.maxx, e.miny), (e.maxx, e.maxy)), ((e.maxx, e.maxy), (e.minx, e.maxy)),
        ((e.minx, e.maxy), (e.minx, e.miny)), ((e.minx, e.miny), (e.maxx, e.miny)),
        ((e.maxx, e.miny), (e.maxx, e.miny))] := rfl
  ext p
  rw [mem_region]
  constructor
  · intro hp
    obtain ⟨hwest, hsouth, heast, hnorth⟩ := bounds_surrounded hocc
    have hbounds := Geometry.mem_bounds_of_mem_painted hp
    rwa [hwest, hsouth, heast, hnorth] at hbounds
  · rintro ⟨⟨hwest, heast⟩, hsouth, hnorth⟩
    refine ⟨?_, by simp⟩
    rcases heast.eq_or_lt with hright | hright
    · refine .inl ⟨((e.maxx, e.miny), (e.maxx, e.maxy)), by simp [hsides], ?_⟩
      rw [← Prod.image_mk_segment_right, segment_eq_uIcc, Set.uIcc_of_le hocc.2]
      exact ⟨p.2, ⟨hsouth, hnorth⟩, Prod.ext hright.symm rfl⟩
    rcases hnorth.eq_or_lt with htop | htop
    · refine .inl ⟨((e.maxx, e.maxy), (e.minx, e.maxy)), by simp [hsides], ?_⟩
      rw [← Prod.image_mk_segment_left, segment_eq_uIcc, Set.uIcc_of_ge hocc.1]
      exact ⟨p.1, ⟨hwest, heast⟩, Prod.ext rfl htop.symm⟩
    · -- a ray to the east leaves through the eastern side alone
      have hhigh := sub_pos.mpr (hsouth.trans_lt htop)
      have hout : (e.maxy - e.miny) * (p.1 - e.maxx) < 0 :=
        mul_neg_of_pos_of_neg hhigh (sub_neg.mpr hright)
      have hback : 0 ≤ (e.maxy - e.miny) * (p.1 - e.minx) :=
        mul_nonneg hhigh.le (sub_nonneg.mpr hwest)
      have hodd : Geometry.Encloses (e.corners.map Vertex.place) p := by
        rw [Geometry.Encloses, hsides]
        simp [Geometry.crosses, Geometry.leftness, hsouth, htop, htop.not_ge, hsouth.not_gt, hout,
          hback]
      exact .inr hodd

end Envelope

end Antimeridian
