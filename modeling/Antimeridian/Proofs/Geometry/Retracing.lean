import Antimeridian.Proofs.Geometry.Multipart
import Antimeridian.Proofs.Geometry.Winding

/-!
# Where the vertices of an unwrapped geometry come from

Unwrapping a geometry without empty members always succeeds, and neither loses a vertex nor makes
one up. Whatever it gives back consists of the vertices of the geometry, each moved by whole
periods, and of those that close a ring along the ordinate of a pole, which lie whole periods to the
east or west of a vertex of the geometry.
-/

namespace Antimeridian

open Antimeridian.Geometry

variable {K : Type}

namespace Geometry

/-- A geometry without empty members at any depth, the rings of polygons included. Its rings end
where they start. -/
inductive Complete : Geometry K → Prop
  | point (v : Vertex K) : Complete (.point (some v))
  | line {vs : List (Vertex K)} (hne : vs ≠ []) : Complete (.line vs)
  | ring {vs : List (Vertex K)} (hcloses : Closes vs) : Complete (.ring vs)
  | polygon {rings : List (List (Vertex K))} (hne : rings ≠ [])
      (hcloses : ∀ ring ∈ rings, Closes ring) : Complete (.polygon rings)
  | points {positions : List (Option (Vertex K))} (hne : positions ≠ [])
      (hpositions : ∀ position ∈ positions, position ≠ none) : Complete (.points positions)
  | lines {members : List (List (Vertex K))} (hne : members ≠ [])
      (hmembers : ∀ vs ∈ members, vs ≠ []) : Complete (.lines members)
  | polygons {members : List (List (List (Vertex K)))} (hne : members ≠ [])
      (hmembers : ∀ rings ∈ members, rings ≠ [] ∧ ∀ ring ∈ rings, Closes ring) :
      Complete (.polygons members)
  | collection {members : List (Geometry K)} (hne : members ≠ [])
      (hmembers : ∀ g ∈ members, Complete g) : Complete (.collection members)

end Geometry

theorem isEmptyPolygon_of_closes {rings : List (List (Vertex K))} (hne : rings ≠ [])
    (hcloses : ∀ ring ∈ rings, Closes ring) : isEmptyPolygon rings = false := by
  cases rings with
  | nil => contradiction
  | cons shell holes => simpa [isEmptyPolygon] using (hcloses shell List.mem_cons_self).ne_nil

theorem Geometry.Complete.parts_ne_nil {g : Geometry K} (hg : g.Complete) : g.parts ≠ [] := by
  cases hg with
  | point | line | ring | polygon => simp [parts]
  | points hne | lines hne | polygons hne | collection hne => simpa [parts] using hne

theorem Geometry.Complete.occupied {g : Geometry K} (hg : g.Complete) :
    ∀ part ∈ g.parts, part.isEmpty = false := by
  induction hg with
  | point v => simp [parts, isEmpty]
  | line hne => simpa [parts, isEmpty] using hne
  | ring hcloses => simpa [parts, isEmpty] using hcloses.ne_nil
  | polygon hne hcloses => simpa [parts, isEmpty] using isEmptyPolygon_of_closes hne hcloses
  | points _ hpositions => simpa [parts, isEmpty, Option.isSome_iff_ne_none] using hpositions
  | lines _ hmembers => simpa [parts, isEmpty] using hmembers
  | polygons _ hmembers =>
      simpa [parts, isEmpty] using fun rings hrings =>
        isEmptyPolygon_of_closes (hmembers rings hrings).1 (hmembers rings hrings).2
  | collection _ hmembers ih =>
      intro part hpart
      exact isEmpty_of_parts_ne_nil (hmembers part hpart).parts_ne_nil (ih part hpart)

/-- The outline of a geometry consists of vertices of it. -/
theorem Geometry.outline_subset (g : Geometry K) : g.outline ⊆ g.vertices := by
  induction g with
  | collection members ih =>
      simp only [outline, vertices, outlineAll_eq, verticesAll_eq]
      intro v hv
      obtain ⟨g, hg, hv⟩ := List.mem_flatMap.mp hv
      exact List.mem_flatMap.mpr ⟨g, hg, ih g hg hv⟩
  | polygon rings =>
      cases rings with
      | nil => exact List.Subset.refl _
      | cons shell holes => exact List.subset_append_left _ _
  | polygons members =>
      intro v hv
      obtain ⟨rings, hrings, hv⟩ := List.mem_flatMap.mp hv
      refine List.mem_flatMap.mpr ⟨rings, hrings, ?_⟩
      cases rings with
      | nil => exact hv
      | cons shell holes => exact List.mem_append_left _ hv
  | _ => exact List.Subset.refl _

theorem ne_nil_of_forall₂ {β γ : Type} {R : β → γ → Prop} {bs : List β} {cs : List γ}
    (hall : List.Forall₂ R bs cs) (hne : bs ≠ []) : cs ≠ [] := by
  rwa [← List.length_pos_iff, ← hall.length_eq, List.length_pos_iff]

/-! ## Lists of vertices -/

section Retracing

variable [Field K] {radius : K} {south north : Extended K}

/-- Vertices that go over those of a list again: they are, up to whole periods, the vertices of the
list and none but these, and others right above or below one of them on one of two ordinates. -/
structure Retraces (radius : K) (south north : Extended K) (vs : List (Vertex K))
    (ws : List (Vertex (Extended K))) : Prop where
  sound : ∀ w ∈ ws, ∃ v ∈ vs, ∃ m : Int, w.x = .finite (v.x + 2 * radius * m) ∧
    (w.y = .finite v.y ∨ w.y = south ∨ w.y = north)
  complete : ∀ v ∈ vs, ∃ w ∈ ws, ∃ m : Int, w.x = .finite (v.x + 2 * radius * m) ∧ w.y = .finite v.y

theorem Retraces.refl (vs : List (Vertex K)) :
    Retraces radius south north vs (vs.map Vertex.finite) where
  sound := List.forall_mem_map.mpr fun v hv => ⟨v, hv, 0, by simp, .inl rfl⟩
  complete v hv := ⟨v.finite, List.mem_map_of_mem hv, 0, by simp, rfl⟩

theorem AreTurned.retraces {vs ws : List (Vertex K)} (hturned : AreTurned radius vs ws) :
    Retraces radius south north vs (ws.map Vertex.finite) where
  sound := by
    refine List.forall_mem_map.mpr fun w hw => ?_
    obtain ⟨v, hv, m, rfl⟩ := exists_mem_of_forall₂ hturned.flip w hw
    exact ⟨v, hv, m, rfl, .inl rfl⟩
  complete v hv := by
    obtain ⟨w, hw, m, rfl⟩ := exists_mem_of_forall₂ hturned v hv
    exact ⟨_, List.mem_map_of_mem hw, m, rfl, rfl⟩

section Lists

variable {vs : List (Vertex K)} {ws more : List (Vertex (Extended K))}

theorem Retraces.ne_nil (hretraces : Retraces radius south north vs ws) (hne : vs ≠ []) :
    ws ≠ [] := by
  obtain ⟨v, hv⟩ := List.exists_mem_of_ne_nil vs hne
  obtain ⟨w, hw, -⟩ := hretraces.complete v hv
  exact List.ne_nil_of_mem hw

/-- More vertices may follow where each of them has the abscissa of one that is there, and its
ordinate or that of a pole. -/
theorem Retraces.append (hretraces : Retraces radius south north vs ws)
    (hmore : ∀ u ∈ more, ∃ w ∈ ws, u.x = w.x ∧ (u.y = w.y ∨ u.y = south ∨ u.y = north)) :
    Retraces radius south north vs (ws ++ more) where
  sound := by
    refine List.forall_mem_append.mpr ⟨hretraces.sound, fun u hu => ?_⟩
    obtain ⟨w, hw, hx, hy⟩ := hmore u hu
    obtain ⟨v, hv, m, hwx, hwy⟩ := hretraces.sound w hw
    refine ⟨v, hv, m, hx.trans hwx, ?_⟩
    rcases hy with hy | hy
    · rwa [hy]
    · exact .inr hy
  complete v hv := by
    obtain ⟨w, hw, hsame⟩ := hretraces.complete v hv
    exact ⟨w, List.mem_append_left _ hw, hsame⟩

theorem Retraces.closed [LinearOrder K] [FloorRing K]
    (hretraces : Retraces radius south north vs ws) :
    Retraces radius south north vs (Geometry.closed ws) := by
  cases ws with
  | nil => exact hretraces
  | cons w rest =>
      rw [Geometry.closed]
      split
      · exact hretraces
      · exact hretraces.append (by simp)

theorem Retraces.flatMap {β γ : Type} {f : β → List (Vertex K)} {h : γ → List (Vertex (Extended K))}
    {bs : List β} {cs : List γ}
    (hall : List.Forall₂ (fun b c => Retraces radius south north (f b) (h c)) bs cs) :
    Retraces radius south north (bs.flatMap f) (cs.flatMap h) where
  sound w hw := by
    obtain ⟨c, hc, hw⟩ := List.mem_flatMap.mp hw
    obtain ⟨b, hb, hretraces⟩ := exists_mem_of_forall₂ hall.flip c hc
    obtain ⟨v, hv, hsame⟩ := hretraces.sound w hw
    exact ⟨v, List.mem_flatMap.mpr ⟨b, hb, hv⟩, hsame⟩
  complete v hv := by
    obtain ⟨b, hb, hv⟩ := List.mem_flatMap.mp hv
    obtain ⟨c, hc, hretraces⟩ := exists_mem_of_forall₂ hall b hb
    obtain ⟨w, hw, hsame⟩ := hretraces.complete v hv
    exact ⟨w, List.mem_flatMap.mpr ⟨c, hc, hw⟩, hsame⟩

theorem Retraces.flatten {vss : List (List (Vertex K))} {wss : List (List (Vertex (Extended K)))}
    (hall : List.Forall₂ (Retraces radius south north) vss wss) :
    Retraces radius south north vss.flatten wss.flatten := by
  simpa using Retraces.flatMap (f := id) (h := id) hall

theorem Retraces.of_copies {γ : Type} {h : γ → List (Vertex (Extended K))} {cs : List γ}
    (hne : cs ≠ []) (hall : ∀ c ∈ cs, Retraces radius south north vs (h c)) :
    Retraces radius south north vs (cs.flatMap h) where
  sound w hw := by
    obtain ⟨c, hc, hw⟩ := List.mem_flatMap.mp hw
    exact (hall c hc).sound w hw
  complete v hv := by
    obtain ⟨c, hc⟩ := List.exists_mem_of_ne_nil cs hne
    obtain ⟨w, hw, hsame⟩ := (hall c hc).complete v hv
    exact ⟨w, List.mem_flatMap.mpr ⟨c, hc, hw⟩, hsame⟩

theorem shift_x_of_turned [LinearOrder K] [FloorRing K] {w : Vertex (Extended K)} {x : K} {m : Int}
    (hx : w.x = .finite (x + 2 * radius * m)) (k : Int) :
    (w.shift (.finite (2 * radius * k))).x = .finite (x + 2 * radius * ((m + k : Int) : K)) := by
  rw [Vertex.shift, hx, Extended.finite_add]
  push_cast
  ring_nf

/-- Moved by whole periods, the vertices still go over the same list. -/
theorem Retraces.shift [LinearOrder K] [FloorRing K] (hretraces : Retraces radius south north vs ws)
    (k : Int) :
    Retraces radius south north vs (ws.map (·.shift (.finite (2 * radius * k)))) where
  sound := by
    refine List.forall_mem_map.mpr fun w hw => ?_
    obtain ⟨v, hv, m, hx, hy⟩ := hretraces.sound w hw
    exact ⟨v, hv, m + k, shift_x_of_turned hx k, hy⟩
  complete v hv := by
    obtain ⟨w, hw, m, hx, hy⟩ := hretraces.complete v hv
    exact ⟨_, List.mem_map_of_mem hw, m + k, shift_x_of_turned hx k, hy⟩

end Lists

end Retracing

/-! ## Rings and polygons -/

section Rings

variable [Field K] [LinearOrder K] [FloorRing K] {radius : K} {south north : Extended K}

theorem retraces_vertices (radius : K) (south north : Extended K) (vs : List (Vertex K)) :
    Retraces radius south north vs (Unwrap.vertices (.finite radius) (vs.map Vertex.finite)) := by
  obtain ⟨ws, hws, hturned⟩ := exists_unwrapped radius vs
  rw [hws]
  exact hturned.retraces

variable [IsStrictOrderedRing K]

/-- A ring is unwrapped without a failure; what it is unwrapped to, if it can be closed at all, goes
over its vertices. -/
theorem exists_retraced_ring (hpos : 0 < radius) (poles : Option (Extended K × Extended K))
    (hpoles : ∀ p ∈ poles, p = (south, north)) {vs : List (Vertex K)} (hcloses : Closes vs) :
    ∃ result, Unwrap.ring (.finite radius) poles (vs.map Vertex.finite) = .ok result ∧
      ∀ ring ∈ result, Retraces radius south north vs ring.1 := by
  obtain ⟨ws, first, last, turns, hwinds⟩ := exists_winds radius hcloses
  have hturned : Retraces radius south north vs (ws.map Vertex.finite) := hwinds.turned.retraces
  refine ⟨_, hwinds.ring_eq hpos poles, fun ring hring => ?_⟩
  split at hring
  · rw [← Option.some.inj hring]
    exact hturned
  · obtain ⟨p, hp, rfl⟩ := Option.map_eq_some_iff.mp hring
    rw [hpoles p hp]
    have hpole := nearPole_eq_or (ws.map Vertex.finite) south north
    have hfirst : first.finite ∈ ws.map Vertex.finite := List.mem_map_of_mem hwinds.first_mem
    have hlast : last.finite ∈ ws.map Vertex.finite := List.mem_map_of_mem hwinds.last_mem
    refine hturned.append ?_
    simp only [closureAlong, List.forall_mem_cons]
    exact ⟨⟨_, hlast, rfl, .inr hpole⟩, ⟨_, hfirst, rfl, .inr hpole⟩, ⟨_, hfirst, rfl, .inl rfl⟩,
      by simp⟩

theorem exists_retraced_holes (hpos : 0 < radius) (south north : Extended K)
    {holes : List (List (Vertex K))} (hholes : ∀ hole ∈ holes, Closes hole) :
    ∃ result, Unwrap.holes (.finite radius) (holes.map (·.map Vertex.finite)) = .ok result ∧
      ∀ inner ∈ result, List.Forall₂ (Retraces radius south north) holes inner := by
  induction holes with
  | nil => exact ⟨some [], rfl, by simp⟩
  | cons hole rest ih =>
      obtain ⟨hcloses, hrest⟩ := List.forall_mem_cons.mp hholes
      have hnone : ∀ p ∈ (none : Option (Extended K × Extended K)), p = (south, north) := by simp
      obtain ⟨first, hfirst, hretraces⟩ := exists_retraced_ring hpos none hnone hcloses
      obtain ⟨others, hothers, hretraces'⟩ := ih hrest
      simp only [List.map_cons, Unwrap.holes, hfirst, hothers, bind, Except.bind, pure, Except.pure]
      cases first with
      | none => exact ⟨none, rfl, by simp⟩
      | some first =>
          cases others with
          | none => exact ⟨none, rfl, by simp⟩
          | some others =>
              refine ⟨some (first.1 :: others), rfl, fun inner hinner => ?_⟩
              cases hinner
              exact .cons (hretraces first rfl) (hretraces' others rfl)

/-- A polygon is unwrapped without a failure, and ring by ring if at all. -/
theorem exists_retraced_polygon (valid : List (List (Vertex (Extended K))) → Bool)
    (hpos : 0 < radius) (south north : Extended K) {rings : List (List (Vertex K))}
    (hne : rings ≠ []) (hcloses : ∀ ring ∈ rings, Closes ring) :
    ∃ result, Unwrap.polygon valid (.finite radius) (some (south, north))
        (rings.map (·.map Vertex.finite)) = .ok result ∧
      List.Forall₂ (Retraces radius south north) rings
        (result.getD (rings.map (·.map Vertex.finite), false)).1 := by
  cases rings with
  | nil => contradiction
  | cons shell holes =>
      obtain ⟨hshell, hholes⟩ := List.forall_mem_cons.mp hcloses
      have hpoles : ∀ p ∈ some (south, north), p = (south, north) := by simp
      obtain ⟨outer, houter, hretraces⟩ := exists_retraced_ring hpos _ hpoles hshell
      obtain ⟨inner, hinner, hretraces'⟩ := exists_retraced_holes hpos south north hholes
      -- what cannot be unwrapped stays as it is, with all of its vertices
      have hkept : List.Forall₂ (Retraces radius south north) (shell :: holes)
          ((shell :: holes).map (·.map Vertex.finite)) :=
        List.forall₂_map_right_iff.mpr (List.forall₂_same.mpr fun ring _ => .refl ring)
      simp only [List.map_cons, Unwrap.polygon, List.headD_cons, List.tail_cons, houter, hinner,
        bind, Except.bind, pure, Except.pure]
      cases outer with
      | none => exact ⟨none, rfl, hkept⟩
      | some outer =>
          cases inner with
          | none => exact ⟨none, rfl, hkept⟩
          | some inner =>
              simp only
              split
              · exact ⟨none, rfl, hkept⟩
              · exact ⟨_, rfl, .cons (hretraces outer rfl) (hretraces' inner rfl)⟩

theorem exists_retraced_polygons (valid : List (List (Vertex (Extended K))) → Bool)
    (hpos : 0 < radius) (south north : Extended K) {members : List (List (List (Vertex K)))}
    (hmembers : ∀ rings ∈ members, rings ≠ [] ∧ ∀ ring ∈ rings, Closes ring) :
    ∃ unwrapped atPole, Unwrap.polygons valid (.finite radius) (some (south, north))
        (members.map (·.map (·.map Vertex.finite))) = .ok (unwrapped, atPole) ∧
      List.Forall₂ (List.Forall₂ (Retraces radius south north)) members unwrapped := by
  induction members with
  | nil => exact ⟨[], false, rfl, .nil⟩
  | cons rings rest ih =>
      obtain ⟨⟨hne, hcloses⟩, hrest⟩ := List.forall_mem_cons.mp hmembers
      obtain ⟨first, hfirst, hretraces⟩ :=
        exists_retraced_polygon valid hpos south north hne hcloses
      obtain ⟨others, otherAtPole, hothers, hretraces'⟩ := ih hrest
      simp only [List.map_cons, Unwrap.polygons, hfirst, hothers, bind, Except.bind, pure,
        Except.pure]
      exact ⟨_, _, rfl, .cons hretraces hretraces'⟩

end Rings

/-! ## Geometries -/

section Geometries

variable [Field K] [LinearOrder K] [FloorRing K] {radius : K} {south north : Extended K}

/-- A geometry that goes over the vertices of another one again, with parts none of which is
empty. -/
structure Redraws (radius : K) (south north : Extended K) (g : Geometry K)
    (u : Geometry (Extended K)) : Prop where
  retraces : Retraces radius south north g.vertices u.vertices
  parts_ne_nil : u.parts ≠ []
  occupied : ∀ part ∈ u.parts, part.isEmpty = false

omit [FloorRing K] [LinearOrder K] in
theorem Redraws.isEmpty_eq {g : Geometry K} {u : Geometry (Extended K)}
    (hu : Redraws radius south north g u) : u.isEmpty = false :=
  isEmpty_of_parts_ne_nil hu.parts_ne_nil hu.occupied

omit [FloorRing K] [LinearOrder K] in
theorem Redraws.of_single {g : Geometry K} {u : Geometry (Extended K)} (hparts : u.parts = [u])
    (hsome : u.isEmpty = false) (hretraces : Retraces radius south north g.vertices u.vertices) :
    Redraws radius south north g u :=
  ⟨hretraces, by simp [hparts], by simpa [hparts] using hsome⟩

omit [FloorRing K] [LinearOrder K] in
/-- A complete geometry goes over its own vertices. -/
theorem Redraws.refl {g : Geometry K} (hg : g.Complete) :
    Redraws radius south north g g.finite where
  retraces := by
    rw [vertices_finite]
    exact .refl _
  parts_ne_nil := by simpa using hg.parts_ne_nil
  occupied := by simpa using hg.occupied

omit [FloorRing K] [LinearOrder K] in
theorem isEmptyPolygon_of_retraces {rings : List (List (Vertex K))}
    {unwrapped : List (List (Vertex (Extended K)))} (hsome : isEmptyPolygon rings = false)
    (hretraces : List.Forall₂ (Retraces radius south north) rings unwrapped) :
    isEmptyPolygon unwrapped = false := by
  cases hretraces with
  | nil => contradiction
  | cons hshell _ =>
      have hne := List.isEmpty_eq_false_iff.mp hsome
      exact List.isEmpty_eq_false_iff.mpr (hshell.ne_nil hne)

omit [FloorRing K] [LinearOrder K] in
theorem redraws_lines {members : List (List (Vertex K))} (hne : members ≠ [])
    (hmembers : ∀ vs ∈ members, vs ≠ []) {unwrapped : List (List (Vertex (Extended K)))}
    (hretraces : List.Forall₂ (Retraces radius south north) members unwrapped) :
    multiLine unwrapped = .ok (.lines unwrapped) ∧
      Redraws radius south north (.lines members) (.lines unwrapped) := by
  have hsome : ∀ ws ∈ unwrapped, ws ≠ [] := by
    intro ws hws
    obtain ⟨vs, hvs, hline⟩ := exists_mem_of_forall₂ hretraces.flip ws hws
    exact hline.ne_nil (hmembers vs hvs)
  refine ⟨multiLine_eq_ok.mpr ⟨hsome, rfl⟩, .flatten hretraces, ?_, ?_⟩
  · simpa [parts] using ne_nil_of_forall₂ hretraces hne
  · simpa [parts, isEmpty] using hsome

omit [FloorRing K] [LinearOrder K] in
theorem redraws_polygons {members : List (List (List (Vertex K)))} (hne : members ≠ [])
    (hmembers : ∀ rings ∈ members, isEmptyPolygon rings = false)
    {unwrapped : List (List (List (Vertex (Extended K))))}
    (hretraces : List.Forall₂ (List.Forall₂ (Retraces radius south north)) members unwrapped) :
    Redraws radius south north (.polygons members) (multiPolygon unwrapped) := by
  have hsome : ∀ rings ∈ unwrapped, isEmptyPolygon rings = false := by
    intro rings hrings
    obtain ⟨own, hown, hpolygon⟩ := exists_mem_of_forall₂ hretraces.flip rings hrings
    exact isEmptyPolygon_of_retraces (hmembers own hown) hpolygon
  have hkept : multiPolygon unwrapped = .polygons unwrapped := by
    rw [multiPolygon, List.filter_eq_self.mpr fun rings hrings => by rw [hsome rings hrings]; rfl]
  rw [hkept]
  refine ⟨.flatMap (hretraces.imp fun _ _ hpolygon => .flatten hpolygon), ?_, ?_⟩
  · simpa [parts] using ne_nil_of_forall₂ hretraces hne
  · simpa [parts, isEmpty] using hsome

omit [FloorRing K] [LinearOrder K] in
theorem redraws_collection {members : List (Geometry K)} (hne : members ≠ [])
    {unwrapped : List (Geometry (Extended K))}
    (hredraws : List.Forall₂ (Redraws radius south north) members unwrapped) :
    Redraws radius south north (.collection members) (.collection unwrapped) := by
  refine ⟨?_, ne_nil_of_forall₂ hredraws hne, fun part hpart => ?_⟩
  · simp only [vertices, verticesAll_eq]
    exact .flatMap (hredraws.imp fun _ _ hg => hg.retraces)
  · obtain ⟨g, -, hg⟩ := exists_mem_of_forall₂ hredraws.flip part hpart
    exact hg.isEmpty_eq

section Redrawn

variable {g : Geometry K} {whole : Geometry (Extended K)}

theorem exists_bounds_of_redraws (hwhole : Redraws radius south north g whole) :
    ∃ (west east : K) (low high : Extended K),
      whole.bounds? = some (.finite west, low, .finite east, high) := by
  obtain ⟨xs, hxs⟩ : ∃ xs : List K, whole.outline.map (·.x) = xs.map Extended.finite := by
    rw [exists_eq_map_iff, List.forall_mem_map]
    intro w hw
    obtain ⟨v, -, m, hx, -⟩ := hwhole.retraces.sound w (outline_subset whole hw)
    exact ⟨_, hx.symm⟩
  have hne : whole.outline ≠ [] := by
    rw [Ne, outline_eq_nil_iff, hwhole.isEmpty_eq]
    exact Bool.false_ne_true
  rw [bounds?]
  cases houtline : whole.outline with
  | nil => contradiction
  | cons v rest =>
      rw [houtline] at hxs
      cases xs with
      | nil => simp at hxs
      | cons x xs =>
          obtain ⟨hx, hrest⟩ := List.cons.inj hxs
          simp only [hx, hrest, Extended.minimum_finite, Extended.maximum_finite]
          exact ⟨_, _, _, _, rfl⟩

theorem Redraws.shift (hwhole : Redraws radius south north g whole) (k : Int) :
    Redraws radius south north g (whole.shift (.finite (2 * radius * k))) where
  retraces := by
    rw [Geometry.shift, vertices_map]
    exact hwhole.retraces.shift k
  parts_ne_nil := by simpa [Geometry.shift] using hwhole.parts_ne_nil
  occupied := by simpa [Geometry.shift] using hwhole.occupied

end Redrawn

variable {valid : List (List (Vertex (Extended K))) → Bool}

theorem exists_redrawn_members {members : List (Geometry K)}
    (hmembers : ∀ g ∈ members, ∃ revision atPole,
      Unwrap.geometry valid (.finite radius) (some (south, north)) g.finite =
        .ok (revision, atPole) ∧ Redraws radius south north g (revision.applyTo g.finite)) :
    ∃ unwrapped atPole, Unwrap.geometries valid (.finite radius) (some (south, north))
        (members.map Geometry.finite) = .ok (unwrapped, atPole) ∧
      List.Forall₂ (Redraws radius south north) members unwrapped := by
  induction members with
  | nil => exact ⟨[], false, rfl, .nil⟩
  | cons g rest ih =>
      obtain ⟨⟨revision, atPole, hok, hredraws⟩, hrest⟩ := List.forall_mem_cons.mp hmembers
      obtain ⟨others, otherAtPole, hothers, hredraws'⟩ := ih hrest
      simp only [List.map_cons, Unwrap.geometries, hok, hothers, bind, Except.bind, pure,
        Except.pure]
      exact ⟨_, _, rfl, .cons hredraws hredraws'⟩

variable [IsStrictOrderedRing K]

/-- A geometry without empty members is unwrapped without a failure, to one that goes over its
vertices again. -/
theorem exists_redrawn (valid : List (List (Vertex (Extended K))) → Bool) (hpos : 0 < radius)
    (south north : Extended K) {g : Geometry K} (hg : g.Complete) :
    ∃ revision atPole, Unwrap.geometry valid (.finite radius) (some (south, north)) g.finite =
        .ok (revision, atPole) ∧ Redraws radius south north g (revision.applyTo g.finite) := by
  induction hg with
  | point v => exact ⟨.kept, false, rfl, .refl (.point v)⟩
  | points hne hpositions => exact ⟨.kept, false, rfl, .refl (.points hne hpositions)⟩
  | @line vs hne =>
      have hretraces := retraces_vertices radius south north vs
      exact ⟨_, _, rfl, .of_single rfl (List.isEmpty_eq_false_iff.mpr (hretraces.ne_nil hne))
        hretraces⟩
  | @ring vs hcloses =>
      have hretraces := (retraces_vertices radius south north vs).closed
      exact ⟨_, _, rfl, .of_single rfl
        (List.isEmpty_eq_false_iff.mpr (hretraces.ne_nil hcloses.ne_nil)) hretraces⟩
  | @polygon rings hne hcloses =>
      obtain ⟨result, hresult, hretraces⟩ :=
        exists_retraced_polygon valid hpos south north hne hcloses
      have hsome := isEmptyPolygon_of_retraces (isEmptyPolygon_of_closes hne hcloses) hretraces
      have hredraws : Redraws radius south north (.polygon rings)
          (.polygon (result.getD (rings.map (·.map Vertex.finite), false)).1) :=
        .of_single rfl hsome (.flatten hretraces)
      cases result with
      | none => exact ⟨.kept, false, bind_eq_ok_iff.mpr ⟨none, hresult, rfl⟩, hredraws⟩
      | some unwrapped => exact ⟨_, _, bind_eq_ok_iff.mpr ⟨_, hresult, rfl⟩, hredraws⟩
  | @lines members hne hmembers =>
      have hretraces : List.Forall₂ (Retraces radius south north) members
          ((members.map (·.map Vertex.finite)).map (Unwrap.vertices (.finite radius))) := by
        rw [List.map_map, List.forall₂_map_right_iff, List.forall₂_same]
        exact fun vs _ => retraces_vertices radius south north vs
      obtain ⟨hgathered, hredraws⟩ := redraws_lines hne hmembers hretraces
      exact ⟨_, _, bind_eq_ok_iff.mpr ⟨_, hgathered, rfl⟩, hredraws⟩
  | @polygons members hne hmembers =>
      obtain ⟨unwrapped, atPole, hunwrapped, hretraces⟩ :=
        exists_retraced_polygons valid hpos south north hmembers
      have hsome : ∀ rings ∈ members, isEmptyPolygon rings = false := fun rings hrings =>
        isEmptyPolygon_of_closes (hmembers rings hrings).1 (hmembers rings hrings).2
      exact ⟨_, _, bind_eq_ok_iff.mpr ⟨_, hunwrapped, rfl⟩, redraws_polygons hne hsome hretraces⟩
  | @collection members hne _ ih =>
      obtain ⟨unwrapped, atPole, hunwrapped, hredraws⟩ := exists_redrawn_members ih
      rw [finite_eq_map, map, mapAll_eq]
      exact ⟨_, _, bind_eq_ok_iff.mpr ⟨_, hunwrapped, rfl⟩, redraws_collection hne hredraws⟩

end Geometries

end Antimeridian
