import Antimeridian.Geometry.Canonical
import Antimeridian.Proofs.Geometry.PoleSides
import Antimeridian.Proofs.Geometry.Flattening

/-!
# Unwrapping geometries with empty members

A ring without vertices has no ends that could meet, and unwrapping fails where it comes to one; so
it does where it puts lines together one of which is empty. Everything else is unwrapped into a
geometry of the same kind, member by member, and what is empty in it is passed through.
-/

namespace Antimeridian

open Antimeridian.Geometry

theorem Geometry.isEmptyPolygon_iff {α : Type} {rings : List (List (Vertex α))} :
    isEmptyPolygon rings = true ↔ rings.headD [] = [] := by
  cases rings <;> simp [isEmptyPolygon]

namespace Unwrap

variable {α : Type} [Scalar α] {valid : List (List (Vertex α)) → Bool} {radius : α}
  {poles : Option (α × α)}

/-! ## Rings -/

section Rings

variable {vs : List (Vertex α)}

theorem exists_ends (radius : α) (hne : vs ≠ []) :
    ∃ first last, (vertices radius vs).head? = some first ∧
      (vertices radius vs).getLast? = some last := by
  cases vs with
  | nil => contradiction
  | cons v rest => exact ⟨_, _, rfl, List.getLast?_cons⟩

theorem goesAround_nil : goesAround radius [] = false := rfl

/-- A ring that winds stays as it is where no pole is known. -/
theorem ring_none_of_goesAround (haround : goesAround radius vs = true) :
    ring radius none vs = .ok none := by
  have hne : vs ≠ [] := by
    rintro rfl
    cases haround
  obtain ⟨first, last, hfirst, hlast⟩ := exists_ends radius hne
  simp only [goesAround, hfirst, hlast, Bool.not_eq_true', decide_eq_false_iff_not] at haround
  simp only [ring, hfirst, hlast, if_neg haround]

/-- A ring that does not wind closes, whether poles are known or not. -/
theorem exists_ring_of_closes (poles : Option (α × α)) (hne : vs ≠ [])
    (hcloses : goesAround radius vs = false) :
    ∃ closed, ring radius poles vs = .ok (some (closed, false)) := by
  obtain ⟨first, last, hfirst, hlast⟩ := exists_ends radius hne
  simp only [goesAround, hfirst, hlast, Bool.not_eq_false', decide_eq_true_eq] at hcloses
  exact ⟨replaceLast first (vertices radius vs), by simp only [ring, hfirst, hlast, if_pos hcloses]⟩

/-- Whether a ring can be closed: it does not wind, or there are poles to close it at. -/
def Closable (radius : α) (poles : Option (α × α)) (vs : List (Vertex α)) : Prop :=
  poles.isSome = true ∨ goesAround radius vs = false

theorem exists_ring_of_closable (hne : vs ≠ []) (hclosable : Closable radius poles vs) :
    ∃ closed atPole, ring radius poles vs = .ok (some (closed, atPole)) := by
  cases haround : goesAround radius vs with
  | false =>
      obtain ⟨closed, hclosed⟩ := exists_ring_of_closes poles hne haround
      exact ⟨closed, false, hclosed⟩
  | true =>
      have hpoles : poles.isSome = true := hclosable.resolve_right (by simp [haround])
      obtain ⟨ordinates, rfl⟩ := Option.isSome_iff_exists.mp hpoles
      obtain ⟨closed, hclosed⟩ := exists_ring_of_goesAround haround ordinates.1 ordinates.2
      exact ⟨closed, true, hclosed⟩

theorem ring_of_not_closable (hnot : ¬Closable radius poles vs) :
    ring radius poles vs = .ok none := by
  simp only [Closable, not_or, Bool.not_eq_true, Option.isSome_eq_false_iff, Bool.not_eq_false,
    Option.isNone_iff_eq_none] at hnot
  rw [hnot.1, ring_none_of_goesAround hnot.2]

theorem ne_nil_of_ring {closed : List (Vertex α)} {atPole : Bool}
    (hok : ring radius poles vs = .ok (some (closed, atPole))) : closed ≠ [] := by
  rw [ring] at hok
  split at hok
  next =>
    split at hok
    · cases hok
      simp [replaceLast]
    · cases poles with
      | none => cases hok
      | some ordinates =>
          cases hok
          simp
  next => cases hok

end Rings

/-! ## Polygons -/

/-- The holes of a polygon are unwrapped up to the first one that winds. -/
theorem holes_fails_iff {inner : List (List (Vertex α))} :
    (∃ failure, holes radius inner = .error failure) ↔
      [] ∈ inner.takeWhile fun hole => !goesAround radius hole := by
  induction inner with
  | nil => simp [holes]
  | cons hole rest ih =>
      by_cases hempty : hole = []
      · subst hempty
        exact iff_of_true ⟨_, rfl⟩ (by simp [goesAround_nil])
      cases haround : goesAround radius hole with
      | true =>
          rw [holes, ring_none_of_goesAround haround]
          exact iff_of_false (by rintro ⟨_, ⟨⟩⟩) (by simp [haround])
      | false =>
          obtain ⟨closed, hclosed⟩ := exists_ring_of_closes none hempty haround
          rw [holes, hclosed, List.takeWhile_cons_of_pos (by simp [haround]), List.mem_cons,
            or_iff_right (Ne.symm hempty), ← ih]
          cases holes radius rest with
          | error failure => exact iff_of_true ⟨_, rfl⟩ ⟨_, rfl⟩
          | ok others => cases others <;> exact iff_of_false (by rintro ⟨_, ⟨⟩⟩) (by simp)

/-- Whether unwrapping a polygon comes to a ring without vertices. It starts with the shell; where
that can be closed it goes on with the holes, up to the first one that winds. -/
def Stalls (radius : α) (poles : Option (α × α)) (rings : List (List (Vertex α))) : Prop :=
  isEmptyPolygon rings = true ∨ Closable radius poles (rings.headD []) ∧
    [] ∈ rings.tail.takeWhile fun hole => !goesAround radius hole

theorem polygon_fails_iff (valid : List (List (Vertex α)) → Bool)
    {rings : List (List (Vertex α))} :
    (∃ failure, polygon valid radius poles rings = .error failure) ↔
      Stalls radius poles rings := by
  by_cases hempty : rings.headD [] = []
  · refine iff_of_true ⟨.vertexMissing, ?_⟩ (.inl (isEmptyPolygon_iff.mpr hempty))
    rw [polygon, hempty]
    rfl
  rw [Stalls, or_iff_right (mt isEmptyPolygon_iff.mp hempty), polygon]
  by_cases hclosable : Closable radius poles (rings.headD [])
  · obtain ⟨closed, atPole, hclosed⟩ := exists_ring_of_closable hempty hclosable
    rw [and_iff_right hclosable, ← holes_fails_iff, hclosed]
    cases holes radius rings.tail with
    | error failure => exact iff_of_true ⟨_, rfl⟩ ⟨_, rfl⟩
    | ok inner =>
        refine iff_of_false ?_ (by simp)
        rintro ⟨failure, hfail⟩
        cases inner with
        | none => cases hfail
        | some inner =>
            change (if (atPole && !valid (closed :: inner)) = true then pure none
              else pure (some (closed :: inner, atPole))) = Except.error failure at hfail
            split at hfail <;> cases hfail
  · rw [ring_of_not_closable hclosable]
    exact iff_of_false (by rintro ⟨_, ⟨⟩⟩) fun hboth => hclosable hboth.1

/-- The polygons of a multi geometry are unwrapped like the members of a collection. -/
theorem geometries_map_polygon (members : List (List (List (Vertex α)))) :
    geometries valid radius poles (members.map .polygon) =
      (polygons valid radius poles members).map fun unwrapped =>
        (unwrapped.1.map .polygon, unwrapped.2) := by
  induction members with
  | nil => rfl
  | cons rings rest ih =>
      rw [List.map_cons, geometries, ih, geometry, polygons]
      cases hresult : polygon valid radius poles rings with
      | error failure => rfl
      | ok result =>
          cases polygons valid radius poles rest with
          | error failure => cases result <;> rfl
          | ok others => cases result <;> rfl

/-! ## Geometries -/

/-- Whether unwrapping a geometry comes to an empty member that it cannot pass through: to a ring
without vertices in a polygon, or to an empty line among lines. -/
inductive Stumbles (radius : α) (poles : Option (α × α)) : Geometry α → Prop
  | polygon {rings : List (List (Vertex α))} (hstalls : Stalls radius poles rings) :
      Stumbles radius poles (.polygon rings)
  | polygons {members : List (List (List (Vertex α)))} {rings : List (List (Vertex α))}
      (hmem : rings ∈ members) (hstalls : Stalls radius poles rings) :
      Stumbles radius poles (.polygons members)
  | lines {members : List (List (Vertex α))} (hmem : [] ∈ members) :
      Stumbles radius poles (.lines members)
  | collection {members : List (Geometry α)} {g : Geometry α} (hmem : g ∈ members)
      (hstumbles : Stumbles radius poles g) : Stumbles radius poles (.collection members)

theorem stumbles_polygon_iff {rings : List (List (Vertex α))} :
    Stumbles radius poles (.polygon rings) ↔ Stalls radius poles rings := by
  constructor
  · intro hstumbles
    cases hstumbles with
    | polygon hstalls => exact hstalls
  · exact .polygon

theorem stumbles_polygons_iff {members : List (List (List (Vertex α)))} :
    Stumbles radius poles (.polygons members) ↔ ∃ rings ∈ members, Stalls radius poles rings := by
  constructor
  · intro hstumbles
    cases hstumbles with
    | polygons hmem hstalls => exact ⟨_, hmem, hstalls⟩
  · rintro ⟨rings, hmem, hstalls⟩
    exact .polygons hmem hstalls

theorem stumbles_lines_iff {members : List (List (Vertex α))} :
    Stumbles radius poles (.lines members) ↔ [] ∈ members := by
  constructor
  · intro hstumbles
    cases hstumbles with
    | lines hmem => exact hmem
  · exact .lines

theorem stumbles_collection_iff {members : List (Geometry α)} :
    Stumbles radius poles (.collection members) ↔ ∃ g ∈ members, Stumbles radius poles g := by
  constructor
  · intro hstumbles
    cases hstumbles with
    | collection hmem hinner => exact ⟨_, hmem, hinner⟩
  · rintro ⟨g, hmem, hinner⟩
    exact .collection hmem hinner

theorem geometries_fails_iff {gs : List (Geometry α)} :
    (∃ failure, geometries valid radius poles gs = .error failure) ↔
      ∃ g ∈ gs, ∃ failure, geometry valid radius poles g = .error failure := by
  induction gs with
  | nil => simp [geometries]
  | cons g rest ih =>
      rw [List.exists_mem_cons_iff, ← ih, geometries]
      cases geometry valid radius poles g with
      | error failure => exact iff_of_true ⟨_, rfl⟩ (.inl ⟨_, rfl⟩)
      | ok result =>
          rw [or_iff_right (by simp)]
          cases geometries valid radius poles rest with
          | error failure => exact iff_of_true ⟨_, rfl⟩ ⟨_, rfl⟩
          | ok others => exact iff_of_false (by rintro ⟨_, ⟨⟩⟩) (by simp)

theorem geometry_polygon_fails_iff {rings : List (List (Vertex α))} :
    (∃ failure, geometry valid radius poles (.polygon rings) = .error failure) ↔
      Stalls radius poles rings := by
  rw [← polygon_fails_iff valid, geometry]
  cases polygon valid radius poles rings with
  | error failure => exact iff_of_true ⟨_, rfl⟩ ⟨_, rfl⟩
  | ok result => cases result <;> exact iff_of_false (by rintro ⟨_, ⟨⟩⟩) (by simp)

theorem vertices_eq_nil_iff {vs : List (Vertex α)} : vertices radius vs = [] ↔ vs = [] := by
  cases vs <;> simp [vertices]

/-- Unwrapping fails exactly where it stumbles. -/
theorem geometry_fails_iff {g : Geometry α} :
    (∃ failure, geometry valid radius poles g = .error failure) ↔ Stumbles radius poles g := by
  induction g with
  | point | points | line | ring =>
      exact iff_of_false (by rintro ⟨_, ⟨⟩⟩) (by rintro ⟨⟩)
  | polygon rings =>
      rw [geometry_polygon_fails_iff, stumbles_polygon_iff]
  | lines members =>
      have hmoved : [] ∈ members.map (vertices radius) ↔ [] ∈ members := by
        simp [vertices_eq_nil_iff]
      rw [stumbles_lines_iff, ← hmoved, ← multiLine_fails_iff, geometry]
      cases multiLine (members.map (vertices radius)) with
      | error failure => exact iff_of_true ⟨_, rfl⟩ ⟨_, rfl⟩
      | ok result => exact iff_of_false (by rintro ⟨_, ⟨⟩⟩) (by simp)
  | polygons members =>
      have hmapped : (∃ failure, geometries valid radius poles (members.map .polygon) =
          .error failure) ↔ ∃ g ∈ members.map .polygon, ∃ failure,
            geometry valid radius poles g = .error failure := geometries_fails_iff
      simp only [List.mem_map, exists_exists_and_eq_and, geometry_polygon_fails_iff,
        geometries_map_polygon] at hmapped
      rw [stumbles_polygons_iff, ← hmapped, geometry]
      cases polygons valid radius poles members with
      | error failure => exact iff_of_true ⟨_, rfl⟩ ⟨_, rfl⟩
      | ok result => exact iff_of_false (by rintro ⟨_, ⟨⟩⟩) (by rintro ⟨_, ⟨⟩⟩)
  | collection members ih =>
      have hfails : (∃ g ∈ members, Stumbles radius poles g) ↔
          ∃ failure, geometries valid radius poles members = .error failure := by
        rw [geometries_fails_iff]
        exact exists_congr fun g => and_congr_right fun hg => (ih g hg).symm
      rw [stumbles_collection_iff, hfails, geometry]
      cases geometries valid radius poles members with
      | error failure => exact iff_of_true ⟨_, rfl⟩ ⟨_, rfl⟩
      | ok result => exact iff_of_false (by rintro ⟨_, ⟨⟩⟩) (by simp)

end Unwrap

namespace Geometry

/-! ## What is retained -/

variable {α : Type}

/-- Whether one geometry keeps the kind of another one and has a member for each of its members,
which keeps that member in the same way. Where the other geometry is empty, it is that geometry. -/
inductive Retains : Geometry α → Geometry α → Prop
  | intro {g u : Geometry α} (hkind : u.kindText = g.kindText) (hempty : g.isEmpty = true → u = g)
      (hmembers : List.Forall₂ Retains g.members u.members) : Retains g u

theorem Retains.of_members {g : Geometry α} (hall : ∀ part ∈ g.members, Retains part part) :
    Retains g g :=
  .intro rfl (fun _ => rfl) (List.forall₂_same.mpr hall)

theorem Retains.refl (g : Geometry α) : Retains g g := by
  induction g with
  | point | line | ring | polygon => exact .of_members (by simp [members])
  | points | lines | polygons =>
      exact .of_members (List.forall_mem_map.mpr fun _ _ => .of_members (by simp [members]))
  | collection parts ih => exact .of_members ih

theorem Retains.of_single {g u : Geometry α} (hkind : u.kindText = g.kindText)
    (hempty : g.isEmpty = true → u = g) (hg : g.members = []) (hu : u.members = []) :
    Retains g u :=
  .intro hkind hempty (by rw [hg, hu]; exact .nil)

/-- Lines and rings are retained where nothing comes of nothing. -/
theorem Retains.of_vertices {c : List (Vertex α) → Geometry α} (hc : c = line ∨ c = ring)
    {vs ws : List (Vertex α)} (hnil : vs = [] → ws = []) : Retains (c vs) (c ws) := by
  have hempty (hvs : vs.isEmpty = true) : c ws = c vs := by
    rw [List.isEmpty_iff] at hvs
    rw [hvs, hnil hvs]
  rcases hc with rfl | rfl
  · exact .of_single rfl hempty rfl rfl
  · exact .of_single rfl hempty rfl rfl

/-- Members that are all empty are the ones that are retained of them. -/
theorem eq_of_forall₂_retains {gs us : List (Geometry α)} (hall : List.Forall₂ Retains gs us)
    (hempty : ∀ g ∈ gs, g.isEmpty = true) : us = gs := by
  induction hall with
  | nil => rfl
  | cons hfirst hrest ih =>
      obtain ⟨hhead, htail⟩ := List.forall_mem_cons.mp hempty
      cases hfirst with
      | intro _ hsame _ => rw [hsame hhead, ih htail]

theorem mem_parts_of_mem_members {g part : Geometry α} (hpart : part ∈ g.members) :
    part ∈ g.parts := by
  cases g with
  | points | lines | polygons | collection => exact hpart
  | point | line | ring | polygon => cases hpart

/-- A geometry of many members is retained with them. -/
theorem Retains.of_forall₂ {g u : Geometry α} (hkind : u.kindText = g.kindText)
    (hmembers : List.Forall₂ Retains g.members u.members) (heq : u.members = g.members → u = g) :
    Retains g u := by
  refine .intro hkind (fun hempty => heq (eq_of_forall₂_retains hmembers ?_)) hmembers
  intro part hpart
  exact isEmpty_of_parts hempty part (mem_parts_of_mem_members hpart)

end Geometry

namespace Unwrap

variable {α : Type} [Scalar α] {valid : List (List (Vertex α)) → Bool} {radius : α}
  {poles : Option (α × α)} {revision : Revision α} {atPole : Bool}

/-- A polygon that is unwrapped had a shell, and has one afterwards. -/
theorem exists_polygon_of_unwrapped {rings : List (List (Vertex α))}
    (hok : geometry valid radius poles (.polygon rings) = .ok (revision, atPole)) :
    ∃ unwrapped, revision.applyTo (.polygon rings) = .polygon unwrapped ∧
      isEmptyPolygon unwrapped = false ∧ Retains (.polygon rings) (.polygon unwrapped) := by
  have hsome : isEmptyPolygon rings = false := by
    by_contra hempty
    obtain ⟨failure, hfail⟩ := geometry_polygon_fails_iff.mpr
      (.inl (Bool.eq_true_of_not_eq_false hempty))
    cases hok.symm.trans hfail
  obtain ⟨result, hresult, hok⟩ := bind_eq_ok_iff.mp hok
  cases result with
  | none =>
      cases hok
      exact ⟨rings, rfl, hsome, .refl _⟩
  | some result =>
      cases hok
      obtain ⟨shell, inner, hunwrapped, hshell, -⟩ := exists_rings_of_polygon hresult
      refine ⟨result.1, rfl, ?_, .of_single rfl (fun hempty => ?_) rfl rfl⟩
      · rw [hunwrapped, isEmptyPolygon, List.isEmpty_eq_false_iff]
        exact ne_nil_of_ring hshell
      · rw [isEmpty, hsome] at hempty
        cases hempty

theorem forall₂_of_geometries {gs us : List (Geometry α)} {atPole : Bool}
    (hok : geometries valid radius poles gs = .ok (us, atPole)) :
    List.Forall₂ (fun g u => ∃ revision atPole,
      geometry valid radius poles g = .ok (revision, atPole) ∧ revision.applyTo g = u) gs us := by
  induction gs generalizing us atPole with
  | nil =>
      cases hok
      exact .nil
  | cons g rest ih =>
      obtain ⟨first, hfirst, hok⟩ := bind_eq_ok_iff.mp hok
      obtain ⟨others, hothers, hok⟩ := bind_eq_ok_iff.mp hok
      cases hok
      exact .cons ⟨_, _, hfirst, rfl⟩ (ih hothers)

theorem retains_polygons {members unwrapped : List (List (List (Vertex α)))}
    (hok : polygons valid radius poles members = .ok (unwrapped, atPole)) :
    Retains (.polygons members) (multiPolygon unwrapped) := by
  have hmapped : geometries valid radius poles (members.map .polygon) =
      .ok (unwrapped.map .polygon, atPole) := by
    rw [geometries_map_polygon, hok]
    rfl
  have hall := forall₂_of_geometries hmapped
  rw [List.forall₂_map_left_iff, List.forall₂_map_right_iff] at hall
  have hretains : List.Forall₂ (fun rings u => isEmptyPolygon u = false ∧
      Retains (.polygon rings) (.polygon u)) members unwrapped := by
    refine hall.imp fun rings u hu => ?_
    obtain ⟨revision, atPole, hok, hrevision⟩ := hu
    obtain ⟨u', heq, hsome, hretains⟩ := exists_polygon_of_unwrapped hok
    obtain rfl := Geometry.polygon.inj (heq.symm.trans hrevision)
    exact ⟨hsome, hretains⟩
  have hkept : (unwrapped.filter fun rings => !isEmptyPolygon rings) = unwrapped := by
    rw [List.filter_eq_self]
    intro rings hrings
    obtain ⟨_, -, hsome, -⟩ := exists_mem_of_forall₂ hretains.flip rings hrings
    rw [hsome, Bool.not_false]
  rw [multiPolygon, hkept]
  refine .of_forall₂ rfl ?_ fun heq => ?_
  · exact List.forall₂_map_left_iff.mpr (List.forall₂_map_right_iff.mpr
      (hretains.imp fun _ _ hboth => hboth.2))
  · rw [List.map_injective_iff.mpr (fun _ _ => Geometry.polygon.inj) heq]

/-- What is unwrapped without a failure is retained. -/
theorem retains_of_unwrapped {g : Geometry α}
    (hok : geometry valid radius poles g = .ok (revision, atPole)) :
    Retains g (revision.applyTo g) := by
  induction g generalizing revision atPole with
  | point | points =>
      cases hok
      exact .refl _
  | line vs =>
      cases hok
      exact .of_vertices (.inl rfl) vertices_eq_nil_iff.mpr
  | ring vs =>
      cases hok
      exact .of_vertices (.inr rfl) fun hnil => by rw [hnil]; rfl
  | polygon rings =>
      obtain ⟨unwrapped, heq, -, hretains⟩ := exists_polygon_of_unwrapped hok
      rwa [heq]
  | lines members =>
      obtain ⟨result, hresult, hok⟩ := bind_eq_ok_iff.mp hok
      cases hok
      obtain ⟨-, rfl⟩ := multiLine_eq_ok.mp hresult
      refine .of_forall₂ rfl ?_ fun heq => ?_
      · rw [Revision.applyTo, Geometry.members, Geometry.members, List.map_map,
          List.forall₂_map_left_iff, List.forall₂_map_right_iff, List.forall₂_same]
        exact fun vs _ => .of_vertices (.inl rfl) vertices_eq_nil_iff.mpr
      · exact congrArg Geometry.lines
          (List.map_injective_iff.mpr (fun _ _ => Geometry.line.inj) heq)
  | polygons members =>
      obtain ⟨result, hresult, hok⟩ := bind_eq_ok_iff.mp hok
      cases hok
      exact retains_polygons hresult
  | collection members ih =>
      obtain ⟨result, hresult, hok⟩ := bind_eq_ok_iff.mp hok
      cases hok
      have hall := (List.forall₂_and_left _ _).mpr
        ⟨fun g hg => @ih g hg, forall₂_of_geometries hresult⟩
      refine .of_forall₂ rfl (hall.imp fun g u hu => ?_) (congrArg Geometry.collection)
      obtain ⟨hretains, revision, atPole, hok, rfl⟩ := hu
      exact hretains hok

/-- Unwrapping never fails but for the empty members that it stumbles over. -/
theorem unwraps_or_stumbles (valid : List (List (Vertex α)) → Bool) (radius : α)
    (poles : Option (α × α)) (g : Geometry α) :
    (Stumbles radius poles g ∧ ∃ failure, geometry valid radius poles g = .error failure) ∨
      ¬Stumbles radius poles g ∧ ∃ revision atPole,
        geometry valid radius poles g = .ok (revision, atPole) ∧
          Retains g (revision.applyTo g) := by
  by_cases hstumbles : Stumbles radius poles g
  · exact .inl ⟨hstumbles, geometry_fails_iff.mpr hstumbles⟩
  · refine .inr ⟨hstumbles, ?_⟩
    cases hresult : geometry valid radius poles g with
    | error failure => exact (hstumbles (geometry_fails_iff.mp ⟨failure, hresult⟩)).elim
    | ok result => exact ⟨result.1, result.2, rfl, retains_of_unwrapped hresult⟩

/-- An empty polygon stops the unwrapping of the line it is collected with. -/
theorem empty_polygon_stops_unwrapping :
    ∃ failure, geometry (fun _ => true) (Extended.finite (180 : ℚ)) none
      (.collection [.polygon [], .line [⟨.finite 170, .finite 0, none⟩,
        ⟨.finite (-170), .finite 1, none⟩]]) = .error failure := by
  rcases unwraps_or_stumbles (fun _ => true) (Extended.finite (180 : ℚ)) none
    (.collection [.polygon [], .line [⟨.finite 170, .finite 0, none⟩,
      ⟨.finite (-170), .finite 1, none⟩]]) with ⟨-, hfails⟩ | ⟨hnot, -⟩
  · exact hfails
  · exact (hnot (.collection List.mem_cons_self (.polygon (.inl rfl)))).elim

end Unwrap

end Antimeridian
