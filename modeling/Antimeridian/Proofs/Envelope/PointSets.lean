import Antimeridian.Proofs.Scalar.Order

/-!
# Envelopes as sets of points

What an envelope contains decides everything that can be asked of it. Bounds may be infinite, in
the wrong order or missing: an envelope without points is empty however it came about, and two
envelopes are compared and combined as the sets of their points are.
-/

namespace Antimeridian

section Axis

variable {α : Type} [Scalar α]

/-- Whether a scalar lies between two others. -/
def Between (low high x : α) : Prop := low ≤ x ∧ x ≤ high

variable [OrderedScalar α] {low high low' high' x : α}

theorem Between.le (hx : Between low high x) : low ≤ high := OrderedScalar.le_trans hx.1 hx.2

theorem between_ends (hle : low ≤ high) : Between low high low ∧ Between low high high :=
  have ⟨hlow, hhigh⟩ := OrderedScalar.refl_of_le hle
  ⟨⟨hlow, hle⟩, hle, hhigh⟩

theorem between_clip (hle : low ≤ high) (hle' : low' ≤ high') :
    Between (Scalar.max low low') (Scalar.min high high') x ↔
      Between low high x ∧ Between low' high' x := by
  obtain ⟨hlow, hhigh⟩ := OrderedScalar.refl_of_le hle
  obtain ⟨hlow', hhigh'⟩ := OrderedScalar.refl_of_le hle'
  rw [Between, OrderedScalar.max_le_iff hlow hlow', OrderedScalar.le_min_iff hhigh hhigh', Between,
    Between, and_and_and_comm]

theorem exists_between_iff (hle : low ≤ high) (hle' : low' ≤ high') :
    (∃ x, Between low high x ∧ Between low' high' x) ↔ low ≤ high' ∧ low' ≤ high := by
  constructor
  · rintro ⟨x, hx, hx'⟩
    exact ⟨OrderedScalar.le_trans hx.1 hx'.2, OrderedScalar.le_trans hx'.1 hx.2⟩
  · rintro ⟨hcross, hcross'⟩
    -- the larger of the lower ends lies in both
    obtain ⟨hlow, hhigh⟩ := OrderedScalar.refl_of_le hle
    obtain ⟨hlow', hhigh'⟩ := OrderedScalar.refl_of_le hle'
    obtain ⟨hmax, hmax'⟩ := OrderedScalar.le_max hlow hlow'
    exact ⟨Scalar.max low low', ⟨hmax, (OrderedScalar.max_le_iff hlow hlow').mpr ⟨hle, hcross'⟩⟩,
      hmax', (OrderedScalar.max_le_iff hlow hlow').mpr ⟨hcross, hle'⟩⟩

/-- The range from the lower of the lower ends to the higher of the higher ends is the least one
around both ranges. -/
theorem around_span (hle : low ≤ high) (hle' : low' ≤ high') :
    ((Scalar.min low low' ≤ low ∧ high ≤ Scalar.max high high') ∧
        Scalar.min low low' ≤ low' ∧ high' ≤ Scalar.max high high') ∧
      ∀ a b : α, a ≤ low ∧ high ≤ b → a ≤ low' ∧ high' ≤ b →
        a ≤ Scalar.min low low' ∧ Scalar.max high high' ≤ b := by
  obtain ⟨hlow, hhigh⟩ := OrderedScalar.refl_of_le hle
  obtain ⟨hlow', hhigh'⟩ := OrderedScalar.refl_of_le hle'
  obtain ⟨hmin, hmin'⟩ := OrderedScalar.min_le hlow hlow'
  obtain ⟨hmax, hmax'⟩ := OrderedScalar.le_max hhigh hhigh'
  refine ⟨⟨⟨hmin, hmax⟩, hmin', hmax'⟩, ?_⟩
  rintro a b ⟨ha, hb⟩ ⟨ha', hb'⟩
  exact ⟨(OrderedScalar.le_min_iff hlow hlow').mpr ⟨ha, ha'⟩,
    (OrderedScalar.max_le_iff hhigh hhigh').mpr ⟨hb, hb'⟩⟩

end Axis

namespace Envelope

variable {α : Type} [Scalar α]

/-- The points that an envelope contains. -/
def points (e : Envelope α) : Set (α × α) := {p | e.containsPoint p.1 p.2 = true}

theorem isEmpty_eq_false_iff {e : Envelope α} :
    e.isEmpty = false ↔ e.minx ≤ e.maxx ∧ e.miny ≤ e.maxy := by
  simp [isEmpty]

theorem intersects_iff {e f : Envelope α} : e.intersects f = true ↔
    (e.isEmpty = false ∧ f.isEmpty = false) ∧
      (e.minx ≤ f.maxx ∧ f.minx ≤ e.maxx) ∧ e.miny ≤ f.maxy ∧ f.miny ≤ e.maxy := by
  simp [intersects, and_assoc]

theorem contains_iff {e f : Envelope α} : e.contains f = true ↔
    (e.isEmpty = false ∧ f.isEmpty = false) ∧
      (e.minx ≤ f.minx ∧ f.maxx ≤ e.maxx) ∧ e.miny ≤ f.miny ∧ f.maxy ≤ e.maxy := by
  simp [contains, and_assoc]

variable [OrderedScalar α] {e f g : Envelope α} {p : α × α}

theorem mem_points : p ∈ e.points ↔ Between e.minx e.maxx p.1 ∧ Between e.miny e.maxy p.2 := by
  have hcovers : p ∈ e.points ↔ e.isEmpty = false ∧
      Between e.minx e.maxx p.1 ∧ Between e.miny e.maxy p.2 := by
    change e.containsPoint p.1 p.2 = true ↔ _
    simp [containsPoint, covers, Between, and_assoc]
  rw [hcovers, isEmpty_eq_false_iff, and_iff_right_iff_imp]
  exact fun hp => ⟨hp.1.le, hp.2.le⟩

theorem isEmpty_of_mem_points (hp : p ∈ e.points) : e.isEmpty = false :=
  isEmpty_eq_false_iff.mpr ⟨(mem_points.mp hp).1.le, (mem_points.mp hp).2.le⟩

theorem corners_mem_points (hne : e.isEmpty = false) :
    (e.minx, e.miny) ∈ e.points ∧ (e.maxx, e.maxy) ∈ e.points := by
  obtain ⟨hx, hy⟩ := isEmpty_eq_false_iff.mp hne
  exact ⟨mem_points.mpr ⟨(between_ends hx).1, (between_ends hy).1⟩,
    mem_points.mpr ⟨(between_ends hx).2, (between_ends hy).2⟩⟩

theorem isEmpty_iff_points : e.isEmpty = true ↔ e.points = ∅ := by
  rw [Set.eq_empty_iff_forall_notMem]
  constructor
  · intro hempty p hp
    rw [isEmpty_of_mem_points hp] at hempty
    contradiction
  · intro hnone
    by_contra hne
    exact hnone _ (corners_mem_points (Bool.eq_false_of_not_eq_true hne)).1

theorem points_empty (crs : Option Crs) : (empty crs : Envelope α).points = ∅ := by
  rw [Set.eq_empty_iff_forall_notMem]
  intro p hp
  exact OrderedScalar.not_infinity_le (mem_points.mp hp).1.le

/-! ## Relations -/

theorem intersects_iff_points : e.intersects f = true ↔ (e.points ∩ f.points).Nonempty := by
  constructor
  · intro hmeets
    obtain ⟨⟨he, hf⟩, hx, hy⟩ := intersects_iff.mp hmeets
    rw [isEmpty_eq_false_iff] at he hf
    obtain ⟨x, hx, hx'⟩ := (exists_between_iff he.1 hf.1).mpr hx
    obtain ⟨y, hy, hy'⟩ := (exists_between_iff he.2 hf.2).mpr hy
    exact ⟨(x, y), mem_points.mpr ⟨hx, hy⟩, mem_points.mpr ⟨hx', hy'⟩⟩
  · rintro ⟨p, hp, hp'⟩
    refine intersects_iff.mpr ⟨⟨isEmpty_of_mem_points hp, isEmpty_of_mem_points hp'⟩, ?_⟩
    obtain ⟨hx, hy⟩ := mem_points.mp hp
    obtain ⟨hx', hy'⟩ := mem_points.mp hp'
    exact ⟨(exists_between_iff hx.le hx'.le).mp ⟨_, hx, hx'⟩,
      (exists_between_iff hy.le hy'.le).mp ⟨_, hy, hy'⟩⟩

theorem contains_iff_points (hf : f.isEmpty = false) :
    e.contains f = true ↔ f.points ⊆ e.points := by
  constructor
  · intro hcontains p hp
    obtain ⟨-, hx, hy⟩ := contains_iff.mp hcontains
    obtain ⟨hpx, hpy⟩ := mem_points.mp hp
    exact mem_points.mpr
      ⟨⟨OrderedScalar.le_trans hx.1 hpx.1, OrderedScalar.le_trans hpx.2 hx.2⟩,
        OrderedScalar.le_trans hy.1 hpy.1, OrderedScalar.le_trans hpy.2 hy.2⟩
  · intro hsubset
    -- an envelope reaches as far as its corners
    obtain ⟨hlow, hhigh⟩ := corners_mem_points hf
    have hne := isEmpty_of_mem_points (hsubset hlow)
    obtain ⟨hwest, hsouth⟩ := mem_points.mp (hsubset hlow)
    obtain ⟨heast, hnorth⟩ := mem_points.mp (hsubset hhigh)
    exact contains_iff.mpr ⟨⟨hne, hf⟩, ⟨hwest.1, heast.2⟩, hsouth.1, hnorth.2⟩

/-! ## Derived envelopes -/

theorem points_intersection : (e.intersection f).points = e.points ∩ f.points := by
  cases hmeets : e.intersects f with
  | true =>
      obtain ⟨⟨he, hf⟩, -⟩ := intersects_iff.mp hmeets
      rw [isEmpty_eq_false_iff] at he hf
      ext p
      rw [intersection, if_pos hmeets, mem_points, between_clip he.1 hf.1, between_clip he.2 hf.2,
        Set.mem_inter_iff, mem_points, mem_points, and_and_and_comm]
  | false =>
      rw [intersection, hmeets, if_neg Bool.false_ne_true, points_empty, eq_comm,
        ← Set.not_nonempty_iff_eq_empty, ← intersects_iff_points, hmeets]
      exact Bool.false_ne_true

/-- The union of two envelopes with points is the least one that contains both. -/
theorem union_isLeast (he : e.isEmpty = false) (hf : f.isEmpty = false) :
    ((e.union f).contains e = true ∧ (e.union f).contains f = true) ∧
      ∀ g : Envelope α, g.contains e = true → g.contains f = true →
        g.contains (e.union f) = true := by
  have hunion : e.union f = ⟨Scalar.min e.minx f.minx, Scalar.min e.miny f.miny,
      Scalar.max e.maxx f.maxx, Scalar.max e.maxy f.maxy, e.crs⟩ := by
    simp [union, he, hf]
  obtain ⟨hx, hy⟩ := isEmpty_eq_false_iff.mp he
  obtain ⟨hfx, hfy⟩ := isEmpty_eq_false_iff.mp hf
  obtain ⟨⟨haround, hfaround⟩, hleast⟩ := around_span hx hfx
  obtain ⟨⟨haround', hfaround'⟩, hleast'⟩ := around_span hy hfy
  have hne : (e.union f).isEmpty = false := by
    rw [hunion, isEmpty_eq_false_iff]
    exact ⟨OrderedScalar.le_trans haround.1 (OrderedScalar.le_trans hx haround.2),
      OrderedScalar.le_trans haround'.1 (OrderedScalar.le_trans hy haround'.2)⟩
  rw [hunion] at hne ⊢
  refine ⟨⟨contains_iff.mpr ⟨⟨hne, he⟩, haround, haround'⟩,
    contains_iff.mpr ⟨⟨hne, hf⟩, hfaround, hfaround'⟩⟩, fun g hge hgf => ?_⟩
  obtain ⟨⟨hg, -⟩, hgx, hgy⟩ := contains_iff.mp hge
  obtain ⟨-, hgx', hgy'⟩ := contains_iff.mp hgf
  exact contains_iff.mpr ⟨⟨hg, hne⟩, hleast _ _ hgx hgx', hleast' _ _ hgy hgy'⟩

/-! ## The laws -/

/-- Whether operations on two envelopes are those on the sets of their points. -/
structure ActsOnPoints (e f : Envelope α) : Prop where
  intersection : ∀ x y : α, (e.intersection f).containsPoint x y = true ↔
    e.containsPoint x y = true ∧ f.containsPoint x y = true
  intersects : e.intersects f = true ↔
    ∃ x y : α, e.containsPoint x y = true ∧ f.containsPoint x y = true
  contains : f.isEmpty = false → (e.contains f = true ↔
    ∀ x y : α, f.containsPoint x y = true → e.containsPoint x y = true)
  union : e.isEmpty = false → f.isEmpty = false →
    ((e.union f).contains e = true ∧ (e.union f).contains f = true) ∧
      ∀ g : Envelope α, g.contains e = true → g.contains f = true →
        g.contains (e.union f) = true
  isEmpty : e.isEmpty = true ↔ ∀ x y : α, e.containsPoint x y = false

/-- With doubles as bounds, whichever they are, envelopes are rectangles as sets of points. -/
theorem actsOnPoints (e f : Envelope Float) : ActsOnPoints e f where
  intersection x y := Set.ext_iff.mp points_intersection (x, y)
  intersects := by
    rw [intersects_iff_points, Set.Nonempty, Prod.exists]
    rfl
  contains hf := by
    rw [contains_iff_points hf, Set.subset_def, Prod.forall]
    rfl
  union := union_isLeast
  isEmpty := by
    rw [isEmpty_iff_points, Set.eq_empty_iff_forall_notMem, Prod.forall]
    simp only [Bool.eq_false_iff]
    rfl

end Envelope

end Antimeridian
