import Antimeridian.Proofs.Geometry.Gathering
import Antimeridian.Proofs.Geometry.Outlines

/-!
# Flattened geometries

The members of a collection may be collections themselves. What is found below all of them are
points, lines, rings and polygons, the atoms of the collection. Gathering geometries looks one level
deep, and still keeps their atoms and the order of them, unless it comes upon an empty line or an
empty point among the members of a geometry.
-/

namespace Antimeridian

namespace Geometry

variable {α : Type}

/-! ## Members and atoms -/

/-- The direct members of a multi geometry or of a collection. Other geometries have none. -/
def members : Geometry α → List (Geometry α)
  | .points positions => positions.map .point
  | .lines parts => parts.map .line
  | .polygons parts => parts.map .polygon
  | .collection parts => parts
  | _ => []

/-- Whether no direct member of a geometry is an empty line or an empty point. -/
def HasFullMembers (g : Geometry α) : Prop :=
  ∀ part ∈ g.members, part ≠ .line [] ∧ part ≠ .point none

mutual

/-- The points, lines, rings and polygons found in a geometry at any depth, empty ones left
out. -/
def atoms : Geometry α → List (Geometry α)
  | .collection parts => atomsAll parts
  | g => g.occupied

/-- The points, lines, rings and polygons found in a list of members, empty ones left out. -/
def atomsAll : List (Geometry α) → List (Geometry α)
  | [] => []
  | g :: rest => g.atoms ++ atomsAll rest

end

@[simp] theorem atomsAll_eq (gs : List (Geometry α)) : atomsAll gs = gs.flatMap atoms := by
  induction gs with
  | nil => rfl
  | cons g rest ih => rw [atomsAll, ih, List.flatMap_cons]

theorem mem_parts {g part : Geometry α} (hpart : part ∈ g.parts) : part = g ∨ part ∈ g.members := by
  cases g with
  | points | lines | polygons | collection => exact .inr hpart
  | point | line | ring | polygon => exact .inl (List.mem_singleton.mp hpart)

theorem atoms_of_isEmpty {g : Geometry α} (hempty : g.isEmpty = true) : g.atoms = [] := by
  induction g with
  | collection gs ih =>
      rw [isEmpty, isEmptyAll_eq, List.all_eq_true] at hempty
      rw [atoms, atomsAll_eq, List.flatMap_eq_nil_iff]
      exact fun g hg => ih g hg (hempty g hg)
  | point | line | ring | polygon | points | lines | polygons =>
      exact occupied_eq_nil_iff.mpr hempty

/-- Geometries that have no members are their only atoms, unless they are empty. -/
theorem flatMap_atoms_of_single {β : Type} {c : β → Geometry α}
    (hsingle : ∀ b, (c b).atoms = [c b].filter fun part => !part.isEmpty) (bs : List β) :
    (bs.map c).flatMap atoms = (bs.map c).filter fun part => !part.isEmpty := by
  conv_rhs => rw [← List.flatMap_singleton' (bs.map c), List.filter_flatMap]
  rw [List.flatMap_map, List.flatMap_map]
  exact List.flatMap_congr fun b _ => hsingle b

/-- The atoms of a geometry are those of its parts. -/
theorem parts_flatMap_atoms (g : Geometry α) : g.parts.flatMap atoms = g.atoms := by
  cases g with
  | collection gs => rw [atoms, atomsAll_eq, parts]
  | point | line | ring | polygon => exact List.flatMap_singleton atoms _
  | points positions => exact flatMap_atoms_of_single (fun _ => rfl) positions
  | lines members => exact flatMap_atoms_of_single (fun _ => rfl) members
  | polygons members => exact flatMap_atoms_of_single (fun _ => rfl) members

/-- The polygons among the atoms of a geometry are the polygons extracted from it. -/
theorem atoms_filterMap_polygon? (g : Geometry α) :
    g.atoms.filterMap polygon? = g.extractPolygons := by
  induction g with
  | collection gs ih =>
      rw [atoms, atomsAll_eq, extractPolygons, extractPolygonsAll_eq, List.filterMap_flatMap]
      exact List.flatMap_congr ih
  | polygon rings =>
      cases hempty : isEmptyPolygon rings <;>
        simp [atoms, occupied, parts, extractPolygons, isEmpty, hempty, polygon?]
  | polygons members =>
      simp [atoms, occupied, parts, extractPolygons, List.filter_map, List.filterMap_map,
        Function.comp_def, isEmpty, polygon?]
  | point | line | ring | points | lines =>
      rw [extractPolygons, List.filterMap_eq_nil_iff]
      all_goals simp [atoms, mem_occupied, parts, polygon?]

/-! ## Gathering -/

section Gathering

variable {gs : List (Option (Geometry α))} {whole : Geometry α}

theorem partsAll_eq (gs : List (Option (Geometry α))) :
    partsAll gs = (gs.reduceOption.filter fun g => !g.isEmpty).flatMap parts := by
  induction gs with
  | nil => rfl
  | cons g rest ih =>
      rw [partsAll, List.flatMap_cons, ← partsAll, ih]
      cases g with
      | none => rfl
      | some g => cases hempty : g.isEmpty <;> simp [hempty]

theorem partsAll_flatMap_atoms (gs : List (Option (Geometry α))) :
    (partsAll gs).flatMap atoms = gs.reduceOption.flatMap atoms := by
  rw [partsAll_eq, List.flatMap_assoc, List.flatMap_congr fun g _ => parts_flatMap_atoms g]
  exact flatMap_filter_of_nil (fun g hempty => atoms_of_isEmpty (by simpa using hempty)) _

theorem atoms_collect (hwhole : collect gs = .ok whole) :
    whole.atoms = gs.reduceOption.flatMap atoms := by
  rw [← parts_flatMap_atoms, ← partsAll_flatMap_atoms]
  rcases parts_collect hwhole with heq | heq
  · rw [heq]
  · rw [heq]
    exact flatMap_filter_of_nil (fun g hempty => atoms_of_isEmpty (by simpa using hempty)) _

theorem extractPolygons_collect (hwhole : collect gs = .ok whole) :
    whole.extractPolygons = gs.reduceOption.flatMap extractPolygons := by
  rw [← atoms_filterMap_polygon?, atoms_collect hwhole, List.filterMap_flatMap]
  exact List.flatMap_congr fun g _ => atoms_filterMap_polygon? g

theorem mem_partsAll {part : Geometry α} :
    part ∈ partsAll gs ↔ ∃ g, some g ∈ gs ∧ g.isEmpty = false ∧ part ∈ g.parts := by
  simp [partsAll_eq, List.reduceOption_mem_iff, and_assoc]

/-- Geometries can be gathered if their members are full. They may be empty themselves, since empty
geometries are left out before their parts are looked at. -/
theorem exists_collect (hfull : ∀ g, some g ∈ gs → g.HasFullMembers) :
    ∃ whole, collect gs = .ok whole := by
  rw [exists_collect_iff]
  intro hkind part hpart
  obtain ⟨g, hg, hsome, hparts⟩ := mem_partsAll.mp hpart
  rcases mem_parts hparts with rfl | hmember
  · exact hsome
  obtain ⟨hline, hpoint⟩ := hfull g hg part hmember
  rcases hkind with ⟨members, hlines⟩ | ⟨members, hpoints⟩
  · rw [hlines] at hpart
    obtain ⟨vs, -, rfl⟩ := List.mem_map.mp hpart
    simpa [isEmpty] using hline
  · rw [hpoints] at hpart
    obtain ⟨position, -, rfl⟩ := List.mem_map.mp hpart
    simpa [isEmpty, Option.isSome_iff_ne_none] using hpoint

/-- What geometries come to when they are gathered: all of their atoms and polygons in order, in a
multi geometry of one kind if there are parts and all of them are of that kind, and in a collection
otherwise. -/
structure Gathers (gs : List (Option (Geometry α))) (whole : Geometry α) : Prop where
  atoms_eq : whole.atoms = gs.reduceOption.flatMap atoms
  polygons_eq : whole.extractPolygons = gs.reduceOption.flatMap extractPolygons
  polygons_iff : whole ∈ Set.range polygons ↔ partsAll gs ≠ [] ∧ ArePolygons (partsAll gs)
  lines_iff : whole ∈ Set.range lines ↔ partsAll gs ≠ [] ∧ AreLines (partsAll gs)
  points_iff : whole ∈ Set.range points ↔ partsAll gs ≠ [] ∧ ArePoints (partsAll gs)
  collection_iff : whole ∈ Set.range collection ↔ partsAll gs = [] ∨
    ¬ArePolygons (partsAll gs) ∧ ¬AreLines (partsAll gs) ∧ ¬ArePoints (partsAll gs)

theorem gathers_of_collect (hwhole : collect gs = .ok whole) : Gathers gs whole := by
  have hatoms := atoms_collect hwhole
  have hpolygons := extractPolygons_collect hwhole
  rcases collect_cases gs with ⟨hnil, hok⟩ | ⟨members, hne, hflat, hok⟩ |
    ⟨members, hne, hflat, hok⟩ | ⟨members, hne, hflat, hok⟩ | ⟨hnot, hlines, hpoints, hok⟩
  · obtain rfl := Except.ok.inj (hwhole.symm.trans hok)
    refine ⟨hatoms, hpolygons, ?_, ?_, ?_, ?_⟩ <;> simp [nothing, hnil]
  · obtain rfl := Except.ok.inj (hwhole.symm.trans hok)
    have hsome : partsAll gs ≠ [] := by simpa [hflat] using hne
    have hkind : ArePolygons (partsAll gs) := ⟨members, hflat⟩
    have hlines := hkind.not_areLines hsome
    have hpoints := hkind.not_arePoints hsome
    refine ⟨hatoms, hpolygons, ?_, ?_, ?_, ?_⟩ <;>
      simp [multiPolygon, hsome, hkind, hlines, hpoints]
  · obtain rfl := (multiLine_eq_ok.mp (hok.symm.trans hwhole)).2
    have hsome : partsAll gs ≠ [] := by simpa [hflat] using hne
    have hkind : AreLines (partsAll gs) := ⟨members, hflat⟩
    have hnot : ¬ArePolygons (partsAll gs) := fun hall => hall.not_areLines hsome hkind
    have hpoints := hkind.not_arePoints hsome
    refine ⟨hatoms, hpolygons, ?_, ?_, ?_, ?_⟩ <;> simp [hsome, hkind, hnot, hpoints]
  · obtain rfl := (multiPoint_eq_ok.mp (hok.symm.trans hwhole)).2
    have hsome : partsAll gs ≠ [] := by simpa [hflat] using hne
    have hkind : ArePoints (partsAll gs) := ⟨members, hflat⟩
    have hnot : ¬ArePolygons (partsAll gs) := fun hall => hall.not_arePoints hsome hkind
    have hlines : ¬AreLines (partsAll gs) := fun hall => hall.not_arePoints hsome hkind
    refine ⟨hatoms, hpolygons, ?_, ?_, ?_, ?_⟩ <;> simp [hsome, hkind, hnot, hlines]
  · obtain rfl := Except.ok.inj (hwhole.symm.trans hok)
    refine ⟨hatoms, hpolygons, ?_, ?_, ?_, ?_⟩ <;> simp [hnot, hlines, hpoints]

/-- Gathering loses no part of what it gathers, and does not reorder the parts. -/
theorem collect_keeps_parts (hfull : ∀ g, some g ∈ gs → g.HasFullMembers) :
    ∃ whole, collect gs = .ok whole ∧ Gathers gs whole := by
  obtain ⟨whole, hwhole⟩ := exists_collect hfull
  exact ⟨whole, hwhole, gathers_of_collect hwhole⟩

/-- A missing geometry, an empty one, polygons one of which is empty, and a line two collections
deep. -/
def assorted : List (Option (Geometry Int)) :=
  [none, some (.points []), some (.polygons [[], [[⟨0, 0, none⟩, ⟨1, 0, none⟩, ⟨0, 1, none⟩]]]),
    some (.collection [.polygon [], .collection [.line [⟨2, 0, none⟩, ⟨3, 0, none⟩]]])]

/-- Of an assortment of geometries gathering keeps the triangle and the line. -/
theorem collect_keeps_assorted :
    (∀ g, some g ∈ assorted → g.HasFullMembers) ∧
      ∃ whole, collect assorted = .ok whole ∧ Gathers assorted whole ∧
        whole.atoms = [.polygon [[⟨0, 0, none⟩, ⟨1, 0, none⟩, ⟨0, 1, none⟩]],
          .line [⟨2, 0, none⟩, ⟨3, 0, none⟩]] := by
  have hfull : ∀ g, some g ∈ assorted → g.HasFullMembers := by
    simp [assorted, HasFullMembers, members]
  obtain ⟨whole, hwhole, hgathers⟩ := collect_keeps_parts hfull
  exact ⟨hfull, whole, hwhole, hgathers, hgathers.atoms_eq⟩

end Gathering

end Geometry

end Antimeridian
