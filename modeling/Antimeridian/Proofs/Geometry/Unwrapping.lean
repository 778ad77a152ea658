import Antimeridian.Proofs.Geometry.Gathering
import Antimeridian.Proofs.Geometry.Winding

/-!
# Unwrapped geometries

Unwrapping moves vertices, and adds some to close a ring along a pole. What comes of a geometry with
numbers as coordinates has numbers as coordinates, no heights but those it was given, as many
parts that are not empty, and no fewer vertices on its outline; where a ring was closed along a
pole it has more.
-/

namespace Antimeridian

open Antimeridian.Geometry

variable {K : Type}

/-- What a geometry has to do with one that unwrapping makes of it. -/
structure Unwraps (g u : Geometry K) (atPole : Bool) : Prop where
  flat : (∀ v ∈ g.vertices, v.z = none) → ∀ v ∈ u.vertices, v.z = none
  occupied_length : u.occupied.length = g.occupied.length
  outline_length : g.outline.length + atPole.toNat ≤ u.outline.length

theorem Unwraps.refl (g : Geometry K) : Unwraps g g false := ⟨id, rfl, le_rfl⟩

theorem Unwraps.isEmpty_eq {g u : Geometry K} {atPole : Bool} (hu : Unwraps g u atPole) :
    u.isEmpty = g.isEmpty := by
  rw [Bool.eq_iff_iff, ← occupied_eq_nil_iff, ← occupied_eq_nil_iff, ← List.length_eq_zero_iff,
    ← List.length_eq_zero_iff, hu.occupied_length]

/-- A geometry that is its only part. -/
theorem Unwraps.of_single {g u : Geometry K} {atPole : Bool} (hg : g.parts = [g])
    (hu : u.parts = [u]) (hflat : ∀ v ∈ u.vertices, v.z = none)
    (hempty : u.isEmpty = g.isEmpty)
    (hlength : g.outline.length + atPole.toNat ≤ u.outline.length) : Unwraps g u atPole where
  flat _ := hflat
  occupied_length := by
    rw [occupied, occupied, hg, hu, List.filter_singleton, List.filter_singleton, hempty]
    cases g.isEmpty <;> rfl
  outline_length := hlength

theorem Unwraps.cons {g u : Geometry K} {gs us : List (Geometry K)} {atPole otherAtPole : Bool}
    (hu : Unwraps g u atPole) (hus : Unwraps (.collection gs) (.collection us) otherAtPole) :
    Unwraps (.collection (g :: gs)) (.collection (u :: us)) (atPole || otherAtPole) where
  flat hflat := by
    simp only [vertices, verticesAll_eq, List.flatMap_cons, List.forall_mem_append] at hflat ⊢
    have hrest := hus.flat
    simp only [vertices, verticesAll_eq] at hrest
    exact ⟨hu.flat hflat.1, hrest hflat.2⟩
  occupied_length := by
    have hlength := hus.occupied_length
    simp only [occupied, parts] at hlength
    simp only [occupied, parts, List.filter_cons, hu.isEmpty_eq]
    split <;> simp [hlength]
  outline_length := by
    have hfirst := hu.outline_length
    have hrest := hus.outline_length
    simp only [outline, outlineAll_eq] at hrest
    simp only [outline, outlineAll_eq, List.flatMap_cons, List.length_append]
    have hor : (atPole || otherAtPole).toNat ≤ atPole.toNat + otherAtPole.toNat := by
      cases atPole <;> cases otherAtPole <;> decide
    omega

/-- Geometries with the same parts have the same to do with others. -/
theorem Unwraps.of_parts {g g' u u' : Geometry K} {atPole : Bool} (hu : Unwraps g u atPole)
    (hg : g'.parts = g.parts) (huu : u'.parts = u.parts) : Unwraps g' u' atPole := by
  have hvertices {a b : Geometry K} (hparts : a.parts = b.parts) : a.vertices = b.vertices := by
    rw [← parts_flatMap_vertices, hparts, parts_flatMap_vertices]
  have houtline {a b : Geometry K} (hparts : a.parts = b.parts) : a.outline = b.outline := by
    rw [← parts_flatMap_outline, hparts, parts_flatMap_outline]
  refine ⟨?_, ?_, ?_⟩
  · rw [hvertices hg, hvertices huu]
    exact hu.flat
  · rw [occupied, occupied, hg, huu]
    exact hu.occupied_length
  · rw [houtline hg, houtline huu]
    exact hu.outline_length

/-- Leaving out empty polygons does not matter. -/
theorem Unwraps.multiPolygon {g : Geometry K} {members : List (List (List (Vertex K)))}
    {atPole : Bool} (hu : Unwraps g (.polygons members) atPole) :
    Unwraps g (Geometry.multiPolygon members) atPole where
  flat hflat v hv := by
    refine hu.flat hflat v ?_
    simp only [Geometry.multiPolygon, vertices, List.mem_flatMap, List.mem_filter] at hv ⊢
    obtain ⟨rings, ⟨hrings, -⟩, hv⟩ := hv
    exact ⟨rings, hrings, hv⟩
  occupied_length := by
    rw [← hu.occupied_length]
    simp [occupied, parts, Geometry.multiPolygon, List.filter_map, isEmpty, Function.comp_def]
  outline_length := by
    refine hu.outline_length.trans_eq ?_
    rw [← occupied_flatMap_outline, ← occupied_flatMap_outline (Geometry.multiPolygon members)]
    simp [occupied, parts, Geometry.multiPolygon, List.filter_map, isEmpty, Function.comp_def]

/-! ## Lists of vertices -/

section Vertices

variable [Field K] [LinearOrder K] [FloorRing K] {radius : K}

/-- Unwrapping a list of vertices keeps its length. -/
theorem exists_unwrap_vertices (radius : K) (vs : List (Vertex K)) :
    ∃ ws : List (Vertex K), Unwrap.vertices (.finite radius) (vs.map Vertex.finite) =
      ws.map Vertex.finite ∧ ws.length = vs.length ∧ ∀ w ∈ ws, w.z = none := by
  obtain ⟨ws, hws, hturned⟩ := exists_unwrapped radius vs
  exact ⟨ws, hws, hturned.length_eq.symm, hturned.flat⟩

theorem exists_unwrap_line (radius : K) (vs : List (Vertex K)) :
    ∃ ws : List (Vertex K), Unwrap.vertices (.finite radius) (vs.map Vertex.finite) =
      ws.map Vertex.finite ∧ Unwraps (.line vs) (.line ws) false := by
  obtain ⟨ws, hws, hlength, hflat⟩ := exists_unwrap_vertices radius vs
  refine ⟨ws, hws, .of_single rfl rfl hflat ?_ hlength.ge⟩
  rw [isEmpty, isEmpty, Bool.eq_iff_iff, List.isEmpty_iff, List.isEmpty_iff,
    ← List.length_eq_zero_iff, ← List.length_eq_zero_iff, hlength]

theorem exists_nearPole (vs : List (Vertex K)) (south north : K) :
    ∃ pole : K, Unwrap.nearPole (vs.map Vertex.finite) (.finite south) (.finite north) =
      .finite pole := by
  rw [Unwrap.nearPole]
  split <;> exact ⟨_, rfl⟩

theorem exists_unwrap_closed (radius : K) (vs : List (Vertex K)) :
    ∃ ws : List (Vertex K),
      Geometry.closed (Unwrap.vertices (.finite radius) (vs.map Vertex.finite)) =
        ws.map Vertex.finite ∧ Unwraps (.ring vs) (.ring ws) false := by
  obtain ⟨ws, hws, hlength, hflat⟩ := exists_unwrap_vertices radius vs
  rw [hws]
  cases ws with
  | nil =>
      rw [List.length_eq_zero_iff.mp hlength.symm]
      exact ⟨[], rfl, .refl _⟩
  | cons w rest =>
      have hempty : vs.isEmpty = false := by
        rw [List.isEmpty_eq_false_iff, ← List.length_pos_iff, ← hlength]
        simp
      rw [List.map_cons, Geometry.closed]
      split
      · exact ⟨w :: rest, rfl, .of_single rfl rfl hflat hempty.symm hlength.ge⟩
      · refine ⟨w :: rest ++ [w], by simp, .of_single rfl rfl ?_ hempty.symm ?_⟩
        · rw [vertices, List.forall_mem_append]
          exact ⟨hflat, by simpa using hflat w List.mem_cons_self⟩
        · simp [outline, ← hlength]

/-- The ordinates of the poles among exact scalars. -/
def finitePoles (poles : Option (K × K)) : Option (Extended K × Extended K) :=
  poles.map fun p => (.finite p.1, .finite p.2)

/-- A ring that is closed has no fewer vertices, and more of them if it is closed along a pole. -/
theorem exists_unwrap_ring (poles : Option (K × K)) (vs : List (Vertex K))
    {ring : List (Vertex (Extended K)) × Bool}
    (hok : Unwrap.ring (.finite radius) (finitePoles poles) (vs.map Vertex.finite) =
      .ok (some ring)) :
    ∃ ws : List (Vertex K), ring.1 = ws.map Vertex.finite ∧ vs ≠ [] ∧
      vs.length + ring.2.toNat ≤ ws.length ∧ ∀ w ∈ ws, w.z = none := by
  obtain ⟨ws, hws, hlength, hflat⟩ := exists_unwrap_vertices radius vs
  rw [Unwrap.ring, hws] at hok
  cases ws with
  | nil => simp at hok
  | cons first rest =>
      have hne : vs ≠ [] := by
        rintro rfl
        simp at hlength
      obtain ⟨last, hlast⟩ : ∃ last, (first :: rest).getLast? = some last :=
        ⟨_, List.getLast?_cons⟩
      rw [List.getLast?_map, hlast] at hok
      simp only [List.map_cons, List.head?_cons, Option.map_some] at hok
      split at hok
      · -- the ends meet, and the last vertex is replaced by the first one
        cases hok
        refine ⟨(first :: rest).dropLast ++ [first], by simp [Unwrap.replaceLast], hne,
          by simp [← hlength], fun w hw => hflat w ?_⟩
        rcases List.mem_append.mp hw with hw | hw
        · exact List.mem_of_mem_dropLast hw
        · rw [List.mem_singleton.mp hw]
          exact List.mem_cons_self
      · cases poles with
        | none => simp [finitePoles] at hok
        | some ordinates =>
            obtain ⟨pole, hpole⟩ := exists_nearPole (first :: rest) ordinates.1 ordinates.2
            simp only [finitePoles, Option.map_some, ← List.map_cons, hpole] at hok
            cases hok
            refine ⟨first :: rest ++ [⟨last.x, pole, none⟩, ⟨first.x, pole, none⟩, first], ?_, hne,
              by simp [← hlength], ?_⟩
            · simp only [List.map_append, List.map_cons, List.map_nil]
              rfl
            · simp only [List.mem_append, List.mem_cons, List.not_mem_nil, or_false]
              rintro w (hw | rfl | rfl | rfl)
              · exact hflat w (List.mem_cons.mpr hw)
              · rfl
              · rfl
              · exact hflat _ List.mem_cons_self

end Vertices

/-! ## Rings and polygons -/

section Polygons

variable [Field K] [LinearOrder K] [FloorRing K] {radius : K}
  {valid : List (List (Vertex (Extended K))) → Bool} {poles : Option (K × K)}

theorem exists_unwrap_holes (holes : List (List (Vertex K)))
    {inner : List (List (Vertex (Extended K)))}
    (hok : Unwrap.holes (.finite radius) (holes.map (·.map Vertex.finite)) = .ok (some inner)) :
    ∃ hs : List (List (Vertex K)), inner = hs.map (·.map Vertex.finite) ∧
      ∀ hole ∈ hs, ∀ v ∈ hole, v.z = none := by
  induction holes generalizing inner with
  | nil =>
      cases hok
      exact ⟨[], rfl, by simp⟩
  | cons hole rest ih =>
      rw [List.map_cons, Unwrap.holes] at hok
      obtain ⟨first, hfirst, hok⟩ := bind_eq_ok_iff.mp hok
      cases first with
      | none => cases hok
      | some first =>
          obtain ⟨others, hothers, hok⟩ := bind_eq_ok_iff.mp hok
          cases others with
          | none => cases hok
          | some others =>
              cases hok
              obtain ⟨ws, hws, -, -, hflat⟩ := exists_unwrap_ring none hole hfirst
              obtain ⟨hs, rfl, hrest⟩ := ih hothers
              exact ⟨ws :: hs, by rw [List.map_cons, hws], List.forall_mem_cons.mpr ⟨hflat, hrest⟩⟩

theorem exists_unwrap_polygon {rings : List (List (Vertex K))}
    {result : Option (List (List (Vertex (Extended K))) × Bool)}
    (hok : Unwrap.polygon valid (.finite radius) (finitePoles poles)
      (rings.map (·.map Vertex.finite)) = .ok result) :
    result = none ∨ ∃ us : List (List (Vertex K)), ∃ atPole : Bool,
      result = some (us.map (·.map Vertex.finite), atPole) ∧
      Unwraps (.polygon rings) (.polygon us) atPole := by
  rcases result with _ | ⟨unwrapped, atPole⟩
  · exact .inl rfl
  · obtain ⟨shell, inner, rfl, hshell, hinner⟩ := exists_rings_of_polygon hok
    cases rings with
    | nil =>
        obtain ⟨-, -, hne, -⟩ := exists_unwrap_ring poles [] hshell
        contradiction
    | cons first holes =>
        obtain ⟨ws, hws, hne, hlength, hflat⟩ := exists_unwrap_ring poles first hshell
        obtain ⟨hs, rfl, hinside⟩ := exists_unwrap_holes holes hinner
        refine .inr ⟨ws :: hs, atPole, by rw [List.map_cons, ← hws], ?_⟩
        refine .of_single rfl rfl ?_ ?_ hlength
        · simp only [vertices, List.flatten_cons, List.mem_append, List.mem_flatten]
          rintro v (hv | ⟨hole, hhole, hv⟩)
          · exact hflat v hv
          · exact hinside hole hhole v hv
        · have hwne : ws ≠ [] := by
            rintro rfl
            have hpos := List.length_pos_iff.mpr hne
            simp only [List.length_nil] at hlength
            omega
          rw [isEmpty, isEmpty, isEmptyPolygon, isEmptyPolygon,
            List.isEmpty_eq_false_iff.mpr hne, List.isEmpty_eq_false_iff.mpr hwne]

theorem exists_unwrap_polygons {members : List (List (List (Vertex K)))}
    {result : List (List (List (Vertex (Extended K))))} {atPole : Bool}
    (hok : Unwrap.polygons valid (.finite radius) (finitePoles poles)
      (members.map (·.map (·.map Vertex.finite))) = .ok (result, atPole)) :
    ∃ us : List (List (List (Vertex K))), result = us.map (·.map (·.map Vertex.finite)) ∧
      Unwraps (.polygons members) (.polygons us) atPole := by
  induction members generalizing result atPole with
  | nil =>
      cases hok
      exact ⟨[], rfl, .refl _⟩
  | cons rings rest ih =>
      rw [List.map_cons, Unwrap.polygons] at hok
      obtain ⟨first, hfirst, hok⟩ := bind_eq_ok_iff.mp hok
      obtain ⟨⟨others, otherAtPole⟩, hothers, hok⟩ := bind_eq_ok_iff.mp hok
      obtain ⟨us, rfl, hus⟩ := ih hothers
      have hrest : Unwraps (.collection (rest.map polygon)) (.collection (us.map polygon))
          otherAtPole := hus.of_parts rfl rfl
      rcases exists_unwrap_polygon hfirst with rfl | ⟨own, ownAtPole, rfl, hown⟩
      · cases hok
        exact ⟨rings :: us, rfl, ((Unwraps.refl _).cons hrest).of_parts rfl rfl⟩
      · cases hok
        exact ⟨own :: us, rfl, (hown.cons hrest).of_parts rfl rfl⟩

end Polygons

/-! ## Geometries -/

section Geometries

variable [Field K] [LinearOrder K] [FloorRing K] {radius : K}
  {valid : List (List (Vertex (Extended K))) → Bool} {poles : Option (K × K)}

theorem exists_unwrap_lines (radius : K) (members : List (List (Vertex K))) :
    ∃ us : List (List (Vertex K)),
      (members.map (·.map Vertex.finite)).map (Unwrap.vertices (.finite radius)) =
        us.map (·.map Vertex.finite) ∧ Unwraps (.lines members) (.lines us) false := by
  induction members with
  | nil => exact ⟨[], rfl, .refl _⟩
  | cons vs rest ih =>
      obtain ⟨us, hus, hrest⟩ := ih
      obtain ⟨ws, hws, hline⟩ := exists_unwrap_line radius vs
      have hmembers : Unwraps (.collection (rest.map line)) (.collection (us.map line)) false :=
        hrest.of_parts rfl rfl
      refine ⟨ws :: us, ?_, (hline.cons hmembers).of_parts rfl rfl⟩
      rw [List.map_cons, List.map_cons, hws, hus, List.map_cons]

theorem exists_unwraps_members {members : List (Geometry K)}
    (hmembers : ∀ g ∈ members, ∀ {revision : Revision (Extended K)} {atPole : Bool},
      Unwrap.geometry valid (.finite radius) (finitePoles poles) g.finite =
        .ok (revision, atPole) →
      ∃ u : Geometry K, revision.applyTo g.finite = u.finite ∧ Unwraps g u atPole)
    {result : List (Geometry (Extended K))} {atPole : Bool}
    (hok : Unwrap.geometries valid (.finite radius) (finitePoles poles)
      (members.map Geometry.finite) = .ok (result, atPole)) :
    ∃ us : List (Geometry K), result = us.map Geometry.finite ∧
      Unwraps (.collection members) (.collection us) atPole := by
  induction members generalizing result atPole with
  | nil =>
      cases hok
      exact ⟨[], rfl, .refl _⟩
  | cons g rest ih =>
      obtain ⟨hfirst, hrest⟩ := List.forall_mem_cons.mp hmembers
      rw [List.map_cons, Unwrap.geometries] at hok
      obtain ⟨⟨revision, ownAtPole⟩, hrevision, hok⟩ := bind_eq_ok_iff.mp hok
      obtain ⟨⟨others, otherAtPole⟩, hothers, hok⟩ := bind_eq_ok_iff.mp hok
      cases hok
      obtain ⟨u, hu, hown⟩ := hfirst hrevision
      obtain ⟨us, rfl, hus⟩ := ih hrest hothers
      exact ⟨u :: us, by rw [List.map_cons, hu], hown.cons hus⟩

variable (poles) in
/-- What becomes of a geometry with numbers as coordinates, where it can be unwrapped. -/
theorem exists_unwraps {g : Geometry K} {revision : Revision (Extended K)} {atPole : Bool}
    (hok : Unwrap.geometry valid (.finite radius) (finitePoles poles) g.finite =
      .ok (revision, atPole)) :
    ∃ u : Geometry K, revision.applyTo g.finite = u.finite ∧ Unwraps g u atPole := by
  induction g generalizing revision atPole with
  | point position =>
      cases hok
      exact ⟨_, rfl, .refl _⟩
  | points parts =>
      cases hok
      exact ⟨_, rfl, .refl _⟩
  | line vs =>
      obtain ⟨ws, hws, hline⟩ := exists_unwrap_line radius vs
      cases hok
      exact ⟨.line ws, congrArg line hws, hline⟩
  | ring vs =>
      obtain ⟨ws, hws, hring⟩ := exists_unwrap_closed radius vs
      cases hok
      exact ⟨.ring ws, congrArg ring hws, hring⟩
  | polygon rings =>
      obtain ⟨result, hresult, hok⟩ := bind_eq_ok_iff.mp hok
      rcases exists_unwrap_polygon hresult with rfl | ⟨us, ownAtPole, rfl, hus⟩
      · cases hok
        exact ⟨_, rfl, .refl _⟩
      · cases hok
        exact ⟨.polygon us, rfl, hus⟩
  | polygons members =>
      obtain ⟨⟨unwrapped, ownAtPole⟩, hunwrapped, hok⟩ := bind_eq_ok_iff.mp hok
      obtain ⟨us, rfl, hus⟩ := exists_unwrap_polygons hunwrapped
      cases hok
      exact ⟨multiPolygon us, multiPolygon_map _ us, hus.multiPolygon⟩
  | lines members =>
      obtain ⟨us, hus, hlines⟩ := exists_unwrap_lines radius members
      obtain ⟨unwrapped, hunwrapped, hok⟩ := bind_eq_ok_iff.mp hok
      obtain ⟨-, rfl⟩ := multiLine_eq_ok.mp hunwrapped
      cases hok
      exact ⟨.lines us, congrArg lines hus, hlines⟩
  | collection members ih =>
      rw [finite, convert, map, mapAll_eq] at hok
      obtain ⟨⟨unwrapped, ownAtPole⟩, hunwrapped, hok⟩ := bind_eq_ok_iff.mp hok
      obtain ⟨us, rfl, hus⟩ := exists_unwraps_members ih hunwrapped
      cases hok
      exact ⟨.collection us, congrArg collection (mapAll_eq _ us).symm, hus⟩

end Geometries

end Antimeridian
