import Antimeridian.Geometry.Parts
import Mathlib

/-!
# Geometries vertex by vertex

Replacing the vertices of a geometry keeps its shape: its parts, its outline and whether it is
empty. Functions on lists of members are the list operations they spell out, so that an
induction over a geometry only ever meets the members of a collection one at a time.
-/

namespace Antimeridian.Geometry

variable {α β γ : Type}

/-! ## Members of collections -/

@[elab_as_elim, induction_eliminator]
theorem memberInduction {motive : Geometry α → Prop} (point : ∀ position, motive (.point position))
    (line : ∀ vertices, motive (.line vertices)) (ring : ∀ vertices, motive (.ring vertices))
    (polygon : ∀ rings, motive (.polygon rings)) (points : ∀ parts, motive (.points parts))
    (lines : ∀ parts, motive (.lines parts)) (polygons : ∀ parts, motive (.polygons parts))
    (collection : ∀ members, (∀ g ∈ members, motive g) → motive (.collection members))
    (g : Geometry α) : motive g :=
  @Geometry.rec α motive (fun members => ∀ g ∈ members, motive g)
    point line ring polygon points lines polygons collection
    (fun _ hmem => by cases hmem)
    (fun _ _ hhead htail => List.forall_mem_cons.mpr ⟨hhead, htail⟩) g

@[simp] theorem isEmptyAll_eq (gs : List (Geometry α)) : isEmptyAll gs = gs.all isEmpty := by
  induction gs with
  | nil => rfl
  | cons g rest ih => rw [isEmptyAll, ih, List.all_cons]

@[simp] theorem outlineAll_eq (gs : List (Geometry α)) :
    outlineAll gs = gs.flatMap outline := by
  induction gs with
  | nil => rfl
  | cons g rest ih => rw [outlineAll, ih, List.flatMap_cons]

@[simp] theorem verticesAll_eq (gs : List (Geometry α)) :
    verticesAll gs = gs.flatMap vertices := by
  induction gs with
  | nil => rfl
  | cons g rest ih => rw [verticesAll, ih, List.flatMap_cons]

@[simp] theorem mapAll_eq (f : Vertex α → Vertex β) (gs : List (Geometry α)) :
    mapAll f gs = gs.map (map f) := by
  induction gs with
  | nil => rfl
  | cons g rest ih => rw [mapAll, ih, List.map_cons]

/-! ## What replacing the vertices keeps -/

attribute [simp] map

theorem isEmptyPolygon_map (f : Vertex α → Vertex β) (rings : List (List (Vertex α))) :
    isEmptyPolygon (rings.map (·.map f)) = isEmptyPolygon rings := by
  cases rings <;> simp [isEmptyPolygon]

@[simp] theorem isEmpty_map (f : Vertex α → Vertex β) (g : Geometry α) :
    (g.map f).isEmpty = g.isEmpty := by
  induction g with
  | polygon rings => exact isEmptyPolygon_map f rings
  | polygons parts =>
      simp only [map, isEmpty, List.all_map]
      exact congrArg (List.all parts) (funext (isEmptyPolygon_map f))
  | collection members ih =>
      simp only [map, isEmpty, mapAll_eq, isEmptyAll_eq, List.all_map]
      rw [Bool.eq_iff_iff, List.all_eq_true, List.all_eq_true]
      exact forall₂_congr fun g hg => by rw [Function.comp_apply, ih g hg]
  | _ => simp [isEmpty, Function.comp_def]

@[simp] theorem hasFlatRingAny_eq (gs : List (Geometry α)) :
    hasFlatRingAny gs = gs.any hasFlatRing := by
  induction gs with
  | nil => rfl
  | cons g rest ih => rw [hasFlatRingAny, ih, List.any_cons]

theorem hasFlatRing_map {f : Vertex α → Vertex β} (hf : ∀ v, (f v).z.isNone = v.z.isNone)
    (g : Geometry α) : (g.map f).hasFlatRing = g.hasFlatRing := by
  induction g with
  | point | line | points | lines => rfl
  | ring | polygon | polygons => simp [hasFlatRing, hf, Function.comp_def]
  | collection members ih =>
      simp only [map, hasFlatRing, mapAll_eq, hasFlatRingAny_eq, List.any_map]
      rw [Bool.eq_iff_iff, List.any_eq_true, List.any_eq_true]
      exact exists_congr fun g => and_congr_right fun hg => by rw [Function.comp_apply, ih g hg]

@[simp] theorem vertices_map (f : Vertex α → Vertex β) (g : Geometry α) :
    (g.map f).vertices = g.vertices.map f := by
  induction g with
  | point position => cases position <;> rfl
  | collection members ih =>
      simp only [map, vertices, mapAll_eq, verticesAll_eq, List.flatMap_map, List.map_flatMap]
      exact List.flatMap_congr fun g hg => ih g hg
  | points parts => simp [vertices, List.filterMap_map, List.map_filterMap]
  | polygon rings => simp [vertices, List.map_flatten]
  | lines parts => simp [vertices, List.map_flatten]
  | polygons parts => simp [vertices, List.flatMap_map, List.map_flatMap, List.map_flatten]
  | _ => rfl

@[simp] theorem outline_map (f : Vertex α → Vertex β) (g : Geometry α) :
    (g.map f).outline = g.outline.map f := by
  induction g with
  | point position => cases position <;> rfl
  | collection members ih =>
      simp only [map, outline, mapAll_eq, outlineAll_eq, List.flatMap_map, List.map_flatMap]
      exact List.flatMap_congr fun g hg => ih g hg
  | points parts => simp [outline, List.filterMap_map, List.map_filterMap]
  | polygon rings => cases rings <;> simp [outline]
  | lines parts => simp [outline, List.map_flatten]
  | polygons parts =>
      simp only [map, outline, List.flatMap_map, List.map_flatMap]
      refine List.flatMap_congr fun rings _ => ?_
      cases rings <;> simp
  | _ => rfl

theorem map_congr {f h : Vertex α → Vertex β} {g : Geometry α}
    (heq : ∀ v ∈ g.vertices, f v = h v) : g.map f = g.map h := by
  induction g with
  | point position => cases position <;> simp_all [vertices]
  | collection members ih =>
      simp only [map, mapAll_eq, collection.injEq]
      refine List.map_congr_left fun g hg => ih g hg fun v hv => heq v ?_
      simp only [vertices, verticesAll_eq, List.mem_flatMap]
      exact ⟨g, hg, hv⟩
  | points parts =>
      simp only [map, points.injEq]
      refine List.map_congr_left fun position hposition => ?_
      cases position with
      | none => rfl
      | some v => exact congrArg some (heq v (List.mem_filterMap.mpr ⟨_, hposition, rfl⟩))
  | polygon rings =>
      simp only [map, polygon.injEq]
      exact List.map_congr_left fun ring hring => List.map_congr_left fun v hv =>
        heq v (List.mem_flatten.mpr ⟨ring, hring, hv⟩)
  | lines parts =>
      simp only [map, lines.injEq]
      exact List.map_congr_left fun part hpart => List.map_congr_left fun v hv =>
        heq v (List.mem_flatten.mpr ⟨part, hpart, hv⟩)
  | polygons parts =>
      simp only [map, polygons.injEq]
      exact List.map_congr_left fun rings hrings => List.map_congr_left fun ring hring =>
        List.map_congr_left fun v hv => heq v
          (List.mem_flatMap.mpr ⟨rings, hrings, List.mem_flatten.mpr ⟨ring, hring, hv⟩⟩)
  | line vertices => exact congrArg line (List.map_congr_left heq)
  | ring vertices => exact congrArg ring (List.map_congr_left heq)

@[simp] theorem map_map (h : Vertex β → Vertex γ) (f : Vertex α → Vertex β) (g : Geometry α) :
    (g.map f).map h = g.map (h ∘ f) := by
  induction g with
  | collection members ih =>
      simp only [map, mapAll_eq, List.map_map, collection.injEq]
      exact List.map_congr_left fun g hg => ih g hg
  | _ => simp [Function.comp_def]

@[simp] theorem map_id (g : Geometry α) : g.map id = g := by
  induction g with
  | collection members ih =>
      simp only [map, mapAll_eq, collection.injEq]
      exact (List.map_congr_left fun g hg => ih g hg).trans (List.map_id _)
  | _ => simp

theorem map_injective [Nonempty (Vertex α)] {f : Vertex α → Vertex β}
    (hf : Function.Injective f) : Function.Injective (map f) := by
  have hinverse : Function.LeftInverse (map (Function.invFun f)) (map f) := fun g => by
    rw [map_map, Function.invFun_comp hf, map_id]
  exact hinverse.injective

/-! ## Parts -/

@[simp] theorem parts_map (f : Vertex α → Vertex β) (g : Geometry α) :
    (g.map f).parts = g.parts.map (map f) := by
  cases g <;> simp [parts]

theorem parts_flatMap_vertices (g : Geometry α) : g.parts.flatMap vertices = g.vertices := by
  cases g with
  | points positions =>
      simp only [parts, vertices, List.flatMap_map]
      induction positions with
      | nil => rfl
      | cons position rest ih => cases position <;> simp_all
  | _ => simp [parts, vertices, List.flatMap_map, List.flatMap_id']

theorem mem_vertices_iff_parts {g : Geometry α} {v : Vertex α} :
    v ∈ g.vertices ↔ ∃ part ∈ g.parts, v ∈ part.vertices := by
  rw [← parts_flatMap_vertices, List.mem_flatMap]

theorem parts_flatMap_outline (g : Geometry α) : g.parts.flatMap outline = g.outline := by
  cases g with
  | points positions =>
      simp only [parts, outline, List.flatMap_map]
      induction positions with
      | nil => rfl
      | cons position rest ih => cases position <;> simp_all
  | lines members => simp [parts, outline, List.flatMap_map, List.flatMap_id']
  | _ => simp [parts, outline, List.flatMap_map]

theorem outline_eq_nil_iff (g : Geometry α) : g.outline = [] ↔ g.isEmpty = true := by
  induction g with
  | point position => simp [outline, isEmpty, Option.toList_eq_nil_iff]
  | collection members ih =>
      simp only [outline, isEmpty, outlineAll_eq, isEmptyAll_eq, List.flatMap_eq_nil_iff,
        List.all_eq_true]
      exact forall₂_congr ih
  | points parts => simp [outline, isEmpty, List.filterMap_eq_nil_iff]
  | polygon rings => cases rings <;> simp [outline, isEmpty, isEmptyPolygon]
  | polygons parts =>
      simp only [outline, isEmpty, List.flatMap_eq_nil_iff, List.all_eq_true]
      refine forall₂_congr fun rings _ => ?_
      cases rings <;> simp [isEmptyPolygon]
  | _ => simp [outline, isEmpty]

end Antimeridian.Geometry
