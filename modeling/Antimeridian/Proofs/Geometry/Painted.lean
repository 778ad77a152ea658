import Antimeridian.Proofs.Geometry.Bounds

/-!
# The points of a geometry

What a geometry paints: its points, the segments of its lines, and of a polygon what its shell
encloses or borders, without what its holes enclose. A ring encloses a point if a ray from the
point to the east crosses it an odd number of times; it is read as closing where it starts.

The points of a geometry move with its vertices and lie between its bounds, and they are those of
its parts together.
-/

namespace Antimeridian

/-- The position of a vertex. -/
def Vertex.place {K : Type} (v : Vertex K) : K × K := (v.x, v.y)

namespace Geometry

section Sides

variable {K : Type}

/-- The sides of a ring, from each position to the next and from the last to the first. -/
def sides (ps : List (K × K)) : List ((K × K) × (K × K)) := ps.zip (ps.tail ++ ps.head?.toList)

theorem mem_of_mem_sides {ps : List (K × K)} {side : (K × K) × (K × K)} (hside : side ∈ sides ps) :
    side.1 ∈ ps ∧ side.2 ∈ ps := by
  have hends := List.of_mem_zip hside
  refine ⟨hends.1, ?_⟩
  rcases List.mem_append.mp hends.2 with htail | hhead
  · exact List.mem_of_mem_tail htail
  · exact List.mem_of_mem_head? (Option.mem_toList.mp hhead)

/-- From a position to a last one, a property changes an even number of times exactly where it is
the same at both. -/
theorem countP_changes (above : K × K → Bool) (p last : K × K) (rest : List (K × K)) :
    (((p :: rest).zip (rest ++ [last])).countP fun side => above side.1 != above side.2) % 2 =
      if above p = above last then 0 else 1 := by
  induction rest generalizing p with
  | nil => by_cases heq : above p = above last <;> simp [heq]
  | cons q rest ih =>
      rw [List.cons_append, List.zip_cons_cons, List.countP_cons, Nat.add_mod, ih q]
      cases above p <;> cases above q <;> cases above last <;> rfl

theorem even_countP_changes (above : K × K → Bool) (ps : List (K × K)) :
    Even ((sides ps).countP fun side => above side.1 != above side.2) := by
  cases ps with
  | nil => simp [sides]
  | cons p rest =>
      rw [Nat.even_iff]
      simpa [sides] using countP_changes above p p rest

variable [Field K]

theorem sides_map_add (d : K × K) (ps : List (K × K)) :
    sides (ps.map (d + ·)) = (sides ps).map (Prod.map (d + ·) (d + ·)) := by
  cases ps with
  | nil => rfl
  | cons p rest => simp [sides, ← List.zip_map]

/-- Positive where a point lies to the left of the line from `a` to `b`. -/
def leftness (a b p : K × K) : K := (b.1 - a.1) * (p.2 - a.2) - (b.2 - a.2) * (p.1 - a.1)

theorem leftness_add (d a b p : K × K) : leftness (d + a) (d + b) (d + p) = leftness a b p := by
  simp only [leftness, Prod.fst_add, Prod.snd_add]
  ring

end Sides

variable {K : Type} [Field K] [LinearOrder K]

/-- The points of the segments between consecutive positions. -/
def track (ps : List (K × K)) : Set (K × K) :=
  {p | p ∈ ps ∨ ∃ side ∈ ps.zip ps.tail, p ∈ segment K side.1 side.2}

/-- The points on the sides of a ring. -/
def border (ps : List (K × K)) : Set (K × K) := {p | ∃ side ∈ sides ps, p ∈ segment K side.1 side.2}

/-- Whether a ray from a point to the east crosses a side. Of the ends of a side, the lower one
belongs to it. -/
def crosses (p : K × K) (side : (K × K) × (K × K)) : Bool :=
  (side.1.2 ≤ p.2 ∧ p.2 < side.2.2 ∧ 0 < leftness side.1 side.2 p) ∨
    (side.2.2 ≤ p.2 ∧ p.2 < side.1.2 ∧ 0 < leftness side.2 side.1 p)

/-- Whether a point lies inside a ring. -/
def Encloses (ps : List (K × K)) (p : K × K) : Prop := Odd ((sides ps).countP (crosses p))

/-- The points of a polygon, given by its rings. -/
def surface : List (List (K × K)) → Set (K × K)
  | [] => ∅
  | shell :: holes =>
    {p | (p ∈ border shell ∨ Encloses shell p) ∧ ∀ hole ∈ holes, Encloses hole p → p ∈ border hole}

mutual

/-- The points of a geometry. -/
def painted : Geometry K → Set (K × K)
  | .point position => {p | ∃ v ∈ position, p = v.place}
  | .line vertices | .ring vertices => track (vertices.map Vertex.place)
  | .polygon rings => surface (rings.map (·.map Vertex.place))
  | .points parts => {p | ∃ position ∈ parts, ∃ v ∈ position, p = v.place}
  | .lines parts => {p | ∃ part ∈ parts, p ∈ track (part.map Vertex.place)}
  | .polygons parts => {p | ∃ rings ∈ parts, p ∈ surface (rings.map (·.map Vertex.place))}
  | .collection members => paintedAll members

/-- The points of a list of members. -/
def paintedAll : List (Geometry K) → Set (K × K)
  | [] => ∅
  | g :: rest => g.painted ∪ paintedAll rest

end

theorem mem_paintedAll {gs : List (Geometry K)} {p : K × K} :
    p ∈ paintedAll gs ↔ ∃ g ∈ gs, p ∈ g.painted := by
  induction gs with
  | nil => simp [paintedAll]
  | cons g rest ih => simp [paintedAll, ih]

/-! ## Parts -/

theorem mem_painted_iff_parts {g : Geometry K} {p : K × K} :
    p ∈ g.painted ↔ ∃ part ∈ g.parts, p ∈ part.painted := by
  cases g <;> simp [painted, parts, mem_paintedAll]

theorem surface_of_isEmpty {rings : List (List (Vertex K))} (hempty : isEmptyPolygon rings = true) :
    surface (rings.map (·.map Vertex.place)) = ∅ := by
  cases rings with
  | nil => rfl
  | cons shell holes =>
      have hshell : shell = [] := List.isEmpty_iff.mp hempty
      subst hshell
      ext p
      simp [surface, border, sides, Encloses]

theorem painted_of_isEmpty {g : Geometry K} (hempty : g.isEmpty = true) : g.painted = ∅ := by
  induction g with
  | point position => simp_all [isEmpty, painted]
  | collection members ih =>
      simp only [isEmpty, isEmptyAll_eq, List.all_eq_true] at hempty
      apply Set.eq_empty_of_forall_notMem
      intro p hp
      obtain ⟨g, hg, hp⟩ := mem_paintedAll.mp hp
      rw [ih g hg (hempty g hg)] at hp
      exact hp
  | points parts =>
      simp only [isEmpty, List.all_eq_true, Option.isNone_iff_eq_none] at hempty
      apply Set.eq_empty_of_forall_notMem
      rintro p ⟨position, hposition, v, hv, rfl⟩
      rw [hempty position hposition] at hv
      contradiction
  | lines parts =>
      simp only [isEmpty, List.all_eq_true, List.isEmpty_iff] at hempty
      apply Set.eq_empty_of_forall_notMem
      rintro p ⟨part, hpart, hp⟩
      simp [hempty part hpart, track] at hp
  | polygon rings => exact surface_of_isEmpty hempty
  | polygons parts =>
      simp only [isEmpty, List.all_eq_true] at hempty
      apply Set.eq_empty_of_forall_notMem
      rintro p ⟨rings, hrings, hp⟩
      rw [surface_of_isEmpty (hempty rings hrings)] at hp
      exact hp
  | _ => simp_all [isEmpty, painted, track]

theorem isEmpty_of_mem_painted {g : Geometry K} {p : K × K} (hp : p ∈ g.painted) :
    g.isEmpty = false := by
  by_contra hnot
  rw [painted_of_isEmpty (Bool.eq_true_of_not_eq_false hnot)] at hp
  contradiction

/-! ## Moving -/

section Moving

variable [IsStrictOrderedRing K] (d : K × K)

theorem mem_track_map_add {ps : List (K × K)} {p : K × K} :
    d + p ∈ track (ps.map (d + ·)) ↔ p ∈ track ps := by
  have hzip : (ps.map (d + ·)).zip (ps.map (d + ·)).tail =
      (ps.zip ps.tail).map (Prod.map (d + ·) (d + ·)) := by
    rw [← List.map_tail, List.zip_map]
  simp only [track, hzip, Set.mem_ofPred_eq, List.mem_map, add_right_inj, exists_eq_right,
    exists_exists_and_eq_and, Prod.map_fst, Prod.map_snd, mem_segment_translate]

theorem mem_border_map_add {ps : List (K × K)} {p : K × K} :
    d + p ∈ border (ps.map (d + ·)) ↔ p ∈ border ps := by
  simp only [border, sides_map_add, Set.mem_ofPred_eq, List.mem_map, exists_exists_and_eq_and,
    Prod.map_fst, Prod.map_snd, mem_segment_translate]

theorem crosses_add (p : K × K) (side : (K × K) × (K × K)) :
    crosses (d + p) (Prod.map (d + ·) (d + ·) side) = crosses p side := by
  simp [crosses, leftness_add]

theorem encloses_map_add {ps : List (K × K)} {p : K × K} :
    Encloses (ps.map (d + ·)) (d + p) ↔ Encloses ps p := by
  rw [Encloses, Encloses, sides_map_add, List.countP_map]
  rw [show (crosses (d + p) ∘ Prod.map (d + ·) (d + ·)) = crosses p from
    funext (crosses_add d p)]

theorem mem_surface_map_add {rings : List (List (K × K))} {p : K × K} :
    d + p ∈ surface (rings.map (·.map (d + ·))) ↔ p ∈ surface rings := by
  cases rings with
  | nil => simp [surface]
  | cons shell holes => simp [surface, mem_border_map_add, encloses_map_add]

/-- Moving the vertices of a geometry moves its points; heights do not matter. -/
theorem add_mem_painted_map {f : Vertex K → Vertex K} (hf : ∀ v, (f v).place = d + v.place)
    {g : Geometry K} {p : K × K} : d + p ∈ (g.map f).painted ↔ p ∈ g.painted := by
  have hplaces (vs : List (Vertex K)) :
      (vs.map f).map Vertex.place = (vs.map Vertex.place).map (d + ·) := by
    rw [List.map_map, List.map_map]
    exact List.map_congr_left fun v _ => hf v
  have hrings (rings : List (List (Vertex K))) :
      (rings.map (·.map f)).map (·.map Vertex.place) =
        (rings.map (·.map Vertex.place)).map (·.map (d + ·)) := by
    rw [List.map_map, List.map_map]
    exact List.map_congr_left fun ring _ => hplaces ring
  induction g with
  | point position => cases position <;> simp [map, painted, hf]
  | collection members ih =>
      simp only [map, painted, mapAll_eq, mem_paintedAll, List.mem_map, exists_exists_and_eq_and]
      exact exists_congr fun g => and_congr_right (ih g)
  | points parts =>
      simp only [map, painted, Set.mem_ofPred_eq, List.mem_map, exists_exists_and_eq_and]
      refine exists_congr fun position => and_congr_right fun _ => ?_
      cases position <;> simp [hf]
  | polygon rings =>
      simp only [map, painted, hrings]
      exact mem_surface_map_add d
  | lines parts =>
      simp only [map, painted, Set.mem_ofPred_eq, List.mem_map, exists_exists_and_eq_and, hplaces]
      exact exists_congr fun part => and_congr_right fun _ => mem_track_map_add d
  | polygons parts =>
      simp only [map, painted, Set.mem_ofPred_eq, List.mem_map, exists_exists_and_eq_and, hrings]
      exact exists_congr fun rings => and_congr_right fun _ => mem_surface_map_add d
  | _ =>
      simp only [map, painted, hplaces]
      exact mem_track_map_add d

theorem mem_painted_map {f : Vertex K → Vertex K} {dx : K}
    (hf : ∀ v, (f v).place = (v.x + dx, v.y)) {g : Geometry K} {p : K × K} :
    p ∈ (g.map f).painted ↔ (p.1 - dx, p.2) ∈ g.painted := by
  have hplace (v : Vertex K) : (f v).place = (dx, 0) + v.place := by
    rw [hf v]
    simp [Vertex.place, add_comm]
  have hmoved : p = (dx, 0) + (p.1 - dx, p.2) := by simp
  rw [hmoved, add_mem_painted_map (dx, 0) hplace, ← hmoved]

theorem mem_painted_translate {g : Geometry K} {dx : K} {p : K × K} :
    p ∈ (g.translate dx).painted ↔ (p.1 - dx, p.2) ∈ g.painted :=
  mem_painted_map fun _ => rfl

end Moving

/-! ## Bounds -/

theorem track_subset {ps : List (K × K)} {s : Set (K × K)} (hconvex : Convex K s)
    (hps : ∀ p ∈ ps, p ∈ s) : track ps ⊆ s := by
  rintro p (hp | ⟨side, hside, hp⟩)
  · exact hps p hp
  · have hends := List.of_mem_zip hside
    exact hconvex.segment_subset (hps _ hends.1) (hps _ (List.mem_of_mem_tail hends.2)) hp

theorem border_subset {ps : List (K × K)} {s : Set (K × K)} (hconvex : Convex K s)
    (hps : ∀ p ∈ ps, p ∈ s) : border ps ⊆ s := by
  rintro p ⟨side, hside, hp⟩
  have hends := mem_of_mem_sides hside
  exact hconvex.segment_subset (hps _ hends.1) (hps _ hends.2) hp

section Bounds

variable [IsStrictOrderedRing K]

/-- A crossed side passes the height of the point, and lies east of it somewhere. -/
theorem bounds_of_crosses {p : K × K} {side : (K × K) × (K × K)} (hcross : crosses p side = true) :
    (side.1.2 ≤ p.2 ∨ side.2.2 ≤ p.2) ∧ (p.2 ≤ side.1.2 ∨ p.2 ≤ side.2.2) ∧
      (p.1 ≤ side.1.1 ∨ p.1 ≤ side.2.1) := by
  obtain ⟨⟨ax, ay⟩, bx, byy⟩ := side
  rcases of_decide_eq_true hcross with ⟨hlow, hhigh, hleft⟩ | ⟨hlow, hhigh, hleft⟩
  · refine ⟨.inl hlow, .inr hhigh.le, ?_⟩
    by_contra hwest
    push Not at hwest
    simp only [leftness] at hlow hhigh hleft hwest
    nlinarith [mul_nonneg (sub_nonneg.mpr hlow) (sub_nonneg.mpr hwest.2.le),
      mul_nonneg (sub_nonneg.mpr hhigh.le) (sub_nonneg.mpr hwest.1.le)]
  · refine ⟨.inr hlow, .inl hhigh.le, ?_⟩
    by_contra hwest
    push Not at hwest
    simp only [leftness] at hlow hhigh hleft hwest
    nlinarith [mul_nonneg (sub_nonneg.mpr hlow) (sub_nonneg.mpr hwest.1.le),
      mul_nonneg (sub_nonneg.mpr hhigh.le) (sub_nonneg.mpr hwest.2.le)]

/-- West of a side, a ray to the east crosses it exactly where it passes the height of the
point. -/
theorem crosses_of_lt {p : K × K} {side : (K × K) × (K × K)} (hfirst : p.1 < side.1.1)
    (hsecond : p.1 < side.2.1) :
    crosses p side = (decide (side.1.2 ≤ p.2) != decide (side.2.2 ≤ p.2)) := by
  obtain ⟨⟨ax, ay⟩, bx, byy⟩ := side
  simp only at hfirst hsecond
  by_cases hlow : ay ≤ p.2 <;> by_cases hhigh : byy ≤ p.2
  · simp [crosses, hlow, hhigh, not_lt.mpr hlow, not_lt.mpr hhigh]
  · have hleft : 0 < leftness (ax, ay) (bx, byy) p := by
      simp only [leftness]
      nlinarith [mul_nonneg (sub_nonneg.mpr hlow) (sub_nonneg.mpr hsecond.le),
        mul_pos (sub_pos.mpr (not_le.mp hhigh)) (sub_pos.mpr hfirst)]
    simp [crosses, hlow, hhigh, not_le.mp hhigh, hleft]
  · have hleft : 0 < leftness (bx, byy) (ax, ay) p := by
      simp only [leftness]
      nlinarith [mul_nonneg (sub_nonneg.mpr hhigh) (sub_nonneg.mpr hfirst.le),
        mul_pos (sub_pos.mpr (not_le.mp hlow)) (sub_pos.mpr hsecond)]
    simp [crosses, hlow, hhigh, not_le.mp hlow, hleft]
  · simp [crosses, hlow, hhigh]

theorem mem_Icc_of_encloses {ps : List (K × K)} {low high p : K × K}
    (hps : ∀ q ∈ ps, q ∈ Set.Icc low high) (henclosed : Encloses ps p) : p ∈ Set.Icc low high := by
  obtain ⟨side, hside, hcross⟩ := List.countP_pos_iff.mp henclosed.pos
  obtain ⟨hsouth, hnorth, heast⟩ := bounds_of_crosses hcross
  obtain ⟨⟨hlow, hhigh⟩, hlow', hhigh'⟩ := And.imp (hps _) (hps _) (mem_of_mem_sides hside)
  rw [Prod.le_def] at hlow hhigh hlow' hhigh'
  refine ⟨⟨?_, ?_⟩, ?_, ?_⟩
  · -- west of every side, the crossings are the changes of side of a closed walk
    by_contra hwest
    refine Nat.not_even_iff_odd.mpr henclosed ?_
    have hcount := even_countP_changes (fun q => decide (q.2 ≤ p.2)) ps
    rwa [← List.countP_congr fun side hside => ?_] at hcount
    have hends := mem_of_mem_sides hside
    rw [crosses_of_lt ((not_le.mp hwest).trans_le (hps _ hends.1).1.1)
      ((not_le.mp hwest).trans_le (hps _ hends.2).1.1)]
  · exact hsouth.elim hlow.2.trans hlow'.2.trans
  · exact heast.elim (·.trans hhigh.1) (·.trans hhigh'.1)
  · exact hnorth.elim (·.trans hhigh.2) (·.trans hhigh'.2)

theorem surface_subset {shell : List (K × K)} {holes : List (List (K × K))} {low high : K × K}
    (hps : ∀ p ∈ shell, p ∈ Set.Icc low high) : surface (shell :: holes) ⊆ Set.Icc low high := by
  rintro p ⟨hborder | henclosed, -⟩
  · exact border_subset (convex_Icc low high) hps hborder
  · exact mem_Icc_of_encloses hps henclosed

theorem painted_subset {g : Geometry K} {low high : K × K}
    (hbounds : ∀ v ∈ g.outline, v.place ∈ Set.Icc low high) : g.painted ⊆ Set.Icc low high := by
  have htrack (vs : List (Vertex K)) (hvs : ∀ v ∈ vs, v.place ∈ Set.Icc low high) :
      track (vs.map Vertex.place) ⊆ Set.Icc low high :=
    track_subset (convex_Icc low high) (List.forall_mem_map.mpr hvs)
  have hsurface (rings : List (List (Vertex K)))
      (hvs : ∀ v ∈ rings.head?.getD [], v.place ∈ Set.Icc low high) :
      surface (rings.map (·.map Vertex.place)) ⊆ Set.Icc low high := by
    cases rings with
    | nil => exact Set.empty_subset _
    | cons shell holes => exact surface_subset (List.forall_mem_map.mpr hvs)
  induction g with
  | point position =>
      rintro p ⟨v, hv, rfl⟩
      exact hbounds v (Option.mem_toList.mpr hv)
  | collection members ih =>
      intro p hp
      obtain ⟨g, hg, hp⟩ := mem_paintedAll.mp hp
      refine ih g hg (fun v hv => hbounds v ?_) hp
      simp only [outline, outlineAll_eq, List.mem_flatMap]
      exact ⟨g, hg, hv⟩
  | points parts =>
      rintro p ⟨position, hposition, v, hv, rfl⟩
      exact hbounds v (List.mem_filterMap.mpr ⟨position, hposition, hv⟩)
  | polygon rings => exact hsurface rings hbounds
  | lines parts =>
      rintro p ⟨part, hpart, hp⟩
      exact htrack part (fun v hv => hbounds v (List.mem_flatten.mpr ⟨part, hpart, hv⟩)) hp
  | polygons parts =>
      rintro p ⟨rings, hrings, hp⟩
      exact hsurface rings (fun v hv => hbounds v (List.mem_flatMap.mpr ⟨rings, hrings, hv⟩)) hp
  | line vertices => exact htrack vertices hbounds
  | ring vertices => exact htrack vertices hbounds

/-- The points of a geometry lie between its bounds. -/
theorem mem_bounds_of_mem_painted {g : Geometry K} {p : K × K} (hp : p ∈ g.painted) :
    (g.west ≤ p.1 ∧ p.1 ≤ g.east) ∧ g.south ≤ p.2 ∧ p.2 ≤ g.north := by
  have hmem : p ∈ Set.Icc (g.west, g.south) (g.east, g.north) :=
    painted_subset (fun v hv => ⟨⟨west_le hv, south_le hv⟩, le_east hv, le_north hv⟩) hp
  exact ⟨⟨hmem.1.1, hmem.2.1⟩, hmem.1.2, hmem.2.2⟩

end Bounds

end Geometry

end Antimeridian
