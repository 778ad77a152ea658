import Antimeridian.Proofs.Envelope.Image

/-!
# Longitudes unfolded along an outline

A chart gives every point along an outline a longitude that is the true one but for whole turns.
Where the true longitudes take no step of half a turn or more, unwrapping recovers them all up to
the turns of the first one, so that the image of an envelope is as wide as the envelope itself.
-/

namespace Antimeridian

namespace Longitude

open Extended

variable {K : Type} [Field K] [LinearOrder K]

/-- A longitude and the whole turns by which it is shown elsewhere. -/
def shown (p : K × Int) : K := p.1 + 360 * p.2

/-- A horizontal axis along which longitudes are linear. -/
structure Axis (K : Type) [Zero K] [LT K] where
  /-- The distance that covers half a turn. -/
  radius : K
  radius_pos : 0 < radius
  /-- The longitude at the origin. -/
  meridian : K
  /-- The abscissa of that longitude. -/
  origin : K

/-- The longitude of an abscissa. -/
def Axis.longitude (axis : Axis K) (x : K) : K :=
  axis.meridian + (x - axis.origin) * (180 / axis.radius)

theorem Axis.longitude_sub (axis : Axis K) (x x' : K) :
    axis.longitude x' - axis.longitude x = (x' - x) * (180 / axis.radius) := by
  simp only [longitude]
  ring

theorem Axis.longitude_origin (axis : Axis K) : axis.longitude axis.origin = axis.meridian := by
  simp [longitude]

theorem Axis.longitude_half (axis : Axis K) :
    axis.longitude (axis.origin + axis.radius) = axis.meridian + 180 := by
  rw [longitude, add_sub_cancel_left, mul_div_cancel₀ _ axis.radius_pos.ne']

variable [FloorRing K] [IsStrictOrderedRing K]

omit [FloorRing K] in
theorem Axis.longitude_strictMono (axis : Axis K) : StrictMono axis.longitude := by
  intro x x' hlt
  have hscale : 0 < 180 / axis.radius := div_pos (by norm_num) axis.radius_pos
  have := mul_pos (sub_pos.mpr hlt) hscale
  rwa [← axis.longitude_sub, sub_pos] at this

/-- A step of less than half a turn, folded by whole turns, is unfolded by as many. -/
theorem stepCorrection_of_short {step : K} (hstep : |step| < 180) (k : Int) :
    stepCorrection (finite (step + 360 * k)) (finite 360) = finite (-(360 * (k : K))) := by
  obtain ⟨hlow, hhigh⟩ := abs_lt.mp hstep
  have hturn : (360 : K) ≠ 0 := by norm_num
  have hfloor : ⌊(step + 360 * k + 180) / 360⌋ = k := by
    rw [Int.floor_eq_iff, le_div_iff₀ (by norm_num), div_lt_iff₀ (by norm_num)]
    constructor <;> linarith
  have hhalf : (360 : K) / 2 = 180 := by norm_num
  have hfolded : Scalar.mod (finite (step + 360 * k - -180)) (finite (360 : K)) + finite (-180) =
      finite step := by
    rw [sub_neg_eq_add, mod_finite _ hturn, hfloor, finite_add]
    congr 1
    ring
  have hedge : ((finite step : Extended K) == finite (-180)) = false := by
    rw [finite_beq_finite]
    simpa using hlow.ne'
  simp only [stepCorrection, ofNat_eq, zero_eq, finite_div _ (two_ne_zero' K), hhalf, finite_neg,
    hfolded, hedge, Bool.false_and, Bool.false_eq_true, if_false, abs_finite, finite_lt_finite,
    finite_sub]
  split
  next hshort =>
    -- two short steps do not differ by whole turns
    obtain ⟨hlow', hhigh'⟩ := abs_lt.mp hshort
    have hbelow : (-1 : K) < k := by linarith
    have habove : (k : K) < 1 := by linarith
    norm_cast at hbelow habove
    obtain rfl : k = 0 := by omega
    simp
  next => rw [sub_add_cancel_left]

/-- After some longitudes have been unfolded, so are the following ones. -/
theorem zipWith_runningSums_of_short (n : Int) {p : K × Int} {ps : List (K × Int)}
    (hsteps : (p :: ps).IsChain fun p q => |q.1 - p.1| < 180) :
    List.zipWith (· + ·) (ps.map (finite ∘ shown))
      (Scalar.runningSums (finite (360 * ((n - p.2 : Int) : K)))
        ((steps ((p :: ps).map (finite ∘ shown))).map (stepCorrection · (finite 360)))) =
      ps.map fun q => finite (q.1 + 360 * (n : K)) := by
  induction ps generalizing p with
  | nil => rfl
  | cons q rest ih =>
      obtain ⟨hstep, hrest⟩ := List.isChain_cons_cons.mp hsteps
      have hjump : shown q - shown p = q.1 - p.1 + 360 * (q.2 - p.2 : Int) := by
        simp only [shown]
        push_cast
        ring
      have htotal : 360 * ((n - p.2 : Int) : K) + -(360 * (q.2 - p.2 : Int)) =
          360 * (n - q.2 : Int) := by
        push_cast
        ring
      have hplace : shown q + 360 * ((n - q.2 : Int) : K) = q.1 + 360 * n := by
        simp only [shown]
        push_cast
        ring
      simp only [List.map_cons, Function.comp_apply, steps, finite_sub, hjump,
        stepCorrection_of_short hstep, Scalar.runningSums, finite_add, htotal,
        List.zipWith_cons_cons, hplace]
      congr 1
      exact ih hrest

theorem unwrap_of_short {p : K × Int} {ps : List (K × Int)}
    (hsteps : (p :: ps).IsChain fun p q => |q.1 - p.1| < 180) :
    unwrap (finite 360) ((p :: ps).map (finite ∘ shown)) =
      (p :: ps).map fun q => finite (q.1 + 360 * (p.2 : K)) := by
  have hrest := zipWith_runningSums_of_short p.2 hsteps
  rw [sub_self, Int.cast_zero, mul_zero] at hrest
  rw [List.map_cons, unwrap, ← List.map_cons, zero_eq, hrest]
  rfl

end Longitude

namespace Envelope

variable {K : Type} [Field K] [LinearOrder K] [FloorRing K] [IsStrictOrderedRing K]

/-- The range of longitudes that are shown elsewhere, all along an outline that closes and is
narrower than a turn, is their own range moved by whole turns. -/
theorem longitudeRange_of_short {p : K × Int} {ps : List (K × Int)}
    (hsteps : (p :: ps).IsChain fun p q => |q.1 - p.1| < 180)
    (hclosed : ((p :: ps).getLastD p).1 = p.1)
    (hnarrow : greatest ((p :: ps).map Prod.fst) - least ((p :: ps).map Prod.fst) < 360)
    (complete : Bool) :
    ∃ n : Int, longitudeRange (.finite (Longitude.shown p))
      (ps.map (Extended.finite ∘ Longitude.shown)) complete =
        (.finite (least ((p :: ps).map Prod.fst) + 360 * n),
          .finite (greatest ((p :: ps).map Prod.fst) + 360 * n)) := by
  have hturn : (360 : K) ≠ 0 := by norm_num
  have hne : (p :: ps).map Prod.fst ≠ [] := by simp
  -- unwrapping moves all of them by the turns of the first
  have hunwrap : Longitude.unwrap (.finite 360)
      (Extended.finite (Longitude.shown p) :: ps.map (Extended.finite ∘ Longitude.shown)) =
        .finite (p.1 + 360 * p.2) :: (ps.map fun q => q.1 + 360 * (p.2 : K)).map .finite := by
    have hshort := Longitude.unwrap_of_short hsteps
    simpa only [List.map_cons, List.map_map, Function.comp_def] using hshort
  have hlast : (Extended.finite (p.1 + 360 * (p.2 : K)) ::
      (ps.map fun q => q.1 + 360 * (p.2 : K)).map .finite).getLastD
        (.finite (Longitude.shown p)) = .finite (p.1 + 360 * p.2) := by
    have hmap := List.getLastD_map (f := fun q : K × Int => Extended.finite (q.1 + 360 * (p.2 : K)))
      (l := p :: ps) (a := p)
    rw [hclosed] at hmap
    simpa only [List.map_cons, List.map_map, Function.comp_def, Longitude.shown] using hmap
  have hmoved : (p.1 + 360 * (p.2 : K)) :: ps.map (fun q => q.1 + 360 * (p.2 : K)) =
      ((p :: ps).map Prod.fst).map (· + 360 * (p.2 : K)) := by simp
  simp only [longitudeRange, Longitude.turn, Extended.ofNat_eq, hunwrap, hlast, List.headD_cons,
    List.tail_cons, range_finite, hmoved, least_map_add hne, greatest_map_add hne,
    Extended.finite_sub, Extended.abs_finite, sub_self, abs_zero, Extended.finite_add,
    Extended.finite_le_finite, Extended.finite_div _ hturn, Extended.finite_div _ (two_ne_zero' K),
    Extended.finite_lt_finite, Extended.roundWhole_finite, Extended.finite_mul,
    add_sub_add_right_eq_sub, not_le.mpr hnarrow]
  have hgap : ¬(360 : K) / 2 < 0 := by norm_num
  generalize Scalar.roundEven (Extended.finite (_ : K)) = turns
  simp only [hgap, decide_false, Bool.and_false, Bool.or_self, Bool.false_eq_true, if_false]
  refine ⟨p.2 - turns, ?_⟩
  push_cast
  congr 2 <;> ring

/-! ## Outlines -/

/-- Points around an envelope from its south-west corner and back to it. No step is longer than
half the width. -/
structure GoesAround (e : Envelope K) (points : List (K × K)) : Prop where
  steps : points.IsChain fun p q => |q.1 - p.1| ≤ (e.maxx - e.minx) / 2
  within : ∀ p ∈ points, e.minx ≤ p.1 ∧ p.1 ≤ e.maxx
  start : points.head? = some (e.minx, e.miny)
  close : points.getLast? = some (e.minx, e.miny)
  east : ∃ p ∈ points, p.1 = e.maxx

/-- Points along an edge, its far end excluded. -/
def edge (f : K → K × K) (n : Nat) : List (K × K) := (List.range n).map fun (i : Nat) => f (i / n)

theorem exists_of_mem_edge {f : K → K × K} {n : Nat} {p : K × K} (hp : p ∈ edge f n) :
    ∃ t, 0 ≤ t ∧ t < 1 ∧ p = f t := by
  obtain ⟨i, hi, rfl⟩ := List.mem_map.mp hp
  have hi : (i : K) < n := by exact_mod_cast List.mem_range.mp hi
  have hpos : (0 : K) < n := lt_of_le_of_lt (Nat.cast_nonneg i) hi
  exact ⟨i / n, by positivity, (div_lt_one hpos).mpr hi, rfl⟩

/-- An edge goes on with what starts at its far end. -/
theorem isChain_edge_append {step : K × K → K × K → Prop} {f : K → K × K} {n : Nat} (hn : n ≠ 0)
    (hstep : ∀ i < n, step (f ((i : Nat) / n)) (f ((i + 1 : Nat) / n))) {next : List (K × K)}
    (hhead : next.head? = some (f 1)) (hnext : next.IsChain step) :
    (edge f n ++ next).IsChain step := by
  obtain ⟨m, rfl⟩ := Nat.exists_eq_succ_of_ne_zero hn
  rw [edge, List.isChain_append, List.isChain_map, List.isChain_range_succ]
  refine ⟨fun i hi => hstep i (by omega), hnext, ?_⟩
  intro p hp q hq
  have hlast : f ((m + 1 : Nat) / (m + 1 : Nat)) = f 1 := by
    rw [div_self (by positivity)]
  have hfar := hstep m (Nat.lt_succ_self m)
  rw [hhead, Option.mem_some_iff] at hq
  simp only [List.getLast?_map, List.getLast?_range, Nat.succ_ne_zero, if_false, Option.map_some,
    Option.mem_some_iff] at hp
  rw [← hp, ← hq, ← hlast]
  exact hfar

omit [IsStrictOrderedRing K] in
theorem head?_edge_append {f : K → K × K} {n : Nat} (hn : n ≠ 0) {p : K × K} (hp : f 0 = p)
    {next : List (K × K)} : (edge f n ++ next).head? = some p := by
  simp [edge, List.head?_range, hn, hp]

omit [IsStrictOrderedRing K] in
theorem fractions_finite [CharZero K] {n : Nat} (hn : n ≠ 0) :
    (fractions n : List (Extended K)) = (List.range n).map fun (i : Nat) => .finite (i / n) := by
  have hne : (n : K) ≠ 0 := by exact_mod_cast hn
  rw [fractions]
  refine List.map_congr_left fun i _ => ?_
  simp only [Extended.ofInt_eq, Extended.one_eq, Extended.zero_eq, Int.cast_natCast,
    Extended.finite_div _ hne, Extended.finite_mul, Extended.finite_add, mul_one_div, add_zero]

/-- Points around an envelope, a number of them along each edge. -/
def around (e : Envelope K) (n : Nat) : List (K × K) :=
  edge (fun t => (e.minx + t * (e.maxx - e.minx), e.miny)) n ++
    (edge (fun t => (e.maxx, e.miny + t * (e.maxy - e.miny))) n ++
      (edge (fun t => (e.maxx - t * (e.maxx - e.minx), e.maxy)) n ++
        (edge (fun t => (e.minx, e.maxy - t * (e.maxy - e.miny))) n ++ [(e.minx, e.miny)])))

omit [LinearOrder K] [FloorRing K] [IsStrictOrderedRing K] in
theorem corners_mem_around (e : Envelope K) {n : Nat} (hn : n ≠ 0) :
    (e.minx, e.miny) ∈ e.around n ∧ (e.maxx, e.maxy) ∈ e.around n := by
  have hcorner {f : K → K × K} {p : K × K} (hp : f 0 = p) : p ∈ edge f n := by
    rw [← hp]
    exact List.mem_map.mpr ⟨0, List.mem_range.mpr (Nat.pos_of_ne_zero hn), by simp⟩
  constructor
  · exact List.mem_append_left _ (hcorner (by simp))
  · exact List.mem_append_right _ (List.mem_append_right _ (List.mem_append_left _
      (hcorner (by simp))))

omit [IsStrictOrderedRing K] in
theorem outline_finite (e : Envelope K) (density : Int) :
    e.finite.outline density =
      (e.around (max density 2).toNat).map fun p => (Extended.finite p.1, Extended.finite p.2) := by
  rw [outline]
  have hn : (max density 2).toNat ≠ 0 := by omega
  simp only [fractions_finite hn, around, List.map_append, List.append_assoc, edge, List.map_map,
    Function.comp_def, Extended.finite_mul, Extended.finite_add, Extended.finite_sub,
    finite_minx, finite_miny, finite_maxx, finite_maxy, List.map_cons, List.map_nil]

section Around

variable {e : Envelope K} {n : Nat}

theorem isChain_around (hocc : e.Occupied) (hn : 2 ≤ n) :
    (e.around n).IsChain fun p q => |q.1 - p.1| ≤ (e.maxx - e.minx) / 2 := by
  have hne : n ≠ 0 := by omega
  have htwo : (2 : K) ≤ n := by exact_mod_cast hn
  have hwidth := sub_nonneg.mpr hocc.1
  have hstep (i : Nat) : |((i + 1 : Nat) / n - (i : Nat) / n : K) * (e.maxx - e.minx)| ≤
      (e.maxx - e.minx) / 2 := by
    have hfraction : ((i + 1 : Nat) / n - (i : Nat) / n : K) = 1 / n := by
      rw [← sub_div]
      push_cast
      ring
    rw [hfraction, abs_of_nonneg (by positivity), one_div, ← div_eq_inv_mul]
    exact div_le_div_of_nonneg_left hwidth two_pos htwo
  have hlevel (x : K) : |x - x| ≤ (e.maxx - e.minx) / 2 := by
    rw [sub_self, abs_zero]
    linarith
  refine isChain_edge_append hne (fun i _ => ?south) (head?_edge_append hne ?_)
    (isChain_edge_append hne (fun i _ => hlevel _) (head?_edge_append hne ?_)
      (isChain_edge_append hne (fun i _ => ?north) (head?_edge_append hne ?_)
        (isChain_edge_append hne (fun i _ => hlevel _) ?_ (List.isChain_singleton _))))
  case south => simpa only [add_sub_add_left_eq_sub, ← sub_mul] using hstep i
  case north =>
    rw [← abs_neg]
    simpa only [sub_sub_sub_cancel_left, ← sub_mul, ← neg_mul, neg_sub] using hstep i
  -- each edge ends where the next one starts
  all_goals simp

theorem region_of_mem_around (hocc : e.Occupied) {p : K × K} (hp : p ∈ e.around n) :
    p ∈ e.region := by
  have hpart {low high t : K} (hle : low ≤ high) (hstart : 0 ≤ t) (hend : t < 1) :
      (low ≤ low + t * (high - low) ∧ low + t * (high - low) ≤ high) ∧
        low ≤ high - t * (high - low) ∧ high - t * (high - low) ≤ high := by
    have hlow := mul_nonneg hstart (sub_nonneg.mpr hle)
    have hhigh := mul_le_of_le_one_left (sub_nonneg.mpr hle) hend.le
    refine ⟨⟨?_, ?_⟩, ?_, ?_⟩ <;> linarith
  simp only [around, List.mem_append, List.mem_singleton] at hp
  rw [mem_region]
  obtain hp | hp | hp | hp | rfl := hp
  · obtain ⟨t, hstart, hend, rfl⟩ := exists_of_mem_edge hp
    exact ⟨(hpart hocc.1 hstart hend).1, le_rfl, hocc.2⟩
  · obtain ⟨t, hstart, hend, rfl⟩ := exists_of_mem_edge hp
    exact ⟨⟨hocc.1, le_rfl⟩, (hpart hocc.2 hstart hend).1⟩
  · obtain ⟨t, hstart, hend, rfl⟩ := exists_of_mem_edge hp
    exact ⟨(hpart hocc.1 hstart hend).2, hocc.2, le_rfl⟩
  · obtain ⟨t, hstart, hend, rfl⟩ := exists_of_mem_edge hp
    exact ⟨⟨le_rfl, hocc.1⟩, (hpart hocc.2 hstart hend).2⟩
  · exact ⟨⟨le_rfl, hocc.1⟩, le_rfl, hocc.2⟩

theorem goesAround_around (hocc : e.Occupied) (hn : 2 ≤ n) : e.GoesAround (e.around n) where
  steps := isChain_around hocc hn
  within _ hp := (mem_region.mp (region_of_mem_around hocc hp)).1
  start := head?_edge_append (by omega) (by simp)
  close := by simp [around]
  east := by
    have hfirst : (e.maxx, e.miny) ∈ edge (fun t => (e.maxx, e.miny + t * (e.maxy - e.miny))) n ++
        (edge (fun t => (e.maxx - t * (e.maxx - e.minx), e.maxy)) n ++
          (edge (fun t => (e.minx, e.maxy - t * (e.maxy - e.miny))) n ++ [(e.minx, e.miny)])) :=
      List.mem_of_mem_head? (head?_edge_append (by omega) (by simp))
    exact ⟨_, List.mem_append_right _ hfirst, rfl⟩

end Around

/-! ## Charts that are linear in longitude -/

/-- A chart shows an envelope, but for whole turns, at the longitudes of an axis, and takes neither
pole into it. -/
structure Unrolls (atlas : Atlas (Extended K)) (e : Envelope K) (own target : Crs)
    (axis : Longitude.Axis K) : Prop where
  image : ∃ chart, atlas.find own target = .ok chart ∧
    ∀ x y : K, (.finite x, .finite y) ∈ e.finite.outline defaultDensity → ∃ (k : Int) (lat : K),
      chart.image (.finite x) (.finite y) = (.finite (axis.longitude x + 360 * k), .finite lat)
  poles : ∃ toOwn, atlas.find target own = .ok toOwn ∧
    ∀ pole ∈ ([90, -90] : List K), ∀ x y : K,
      toOwn.image 0 (.finite pole) = (.finite x, .finite y) → (x, y) ∉ e.region

omit [IsStrictOrderedRing K] in
theorem Unrolls.of_horizontal {atlas : Atlas (Extended K)} {e : Envelope K} {own target : Crs}
    {axis : Longitude.Axis K} (hunrolls : Unrolls atlas e own.horizontal target axis) :
    Unrolls atlas e own target axis where
  image := by simpa using hunrolls.image
  poles := by simpa using hunrolls.poles

/-- Around an envelope that falls short of a turn, the longitudes that are shown have its own range
but for whole turns. -/
theorem GoesAround.exists_longitudeRange {e : Envelope K} {p : K × K} {ps : List (K × K)}
    (haround : e.GoesAround (p :: ps)) {axis : Longitude.Axis K}
    (hnarrow : axis.longitude e.maxx - axis.longitude e.minx ≤ 359) (turns : K × K → Int)
    (complete : Bool) :
    ∃ n : Int, longitudeRange (.finite (axis.longitude p.1 + 360 * turns p))
      (ps.map fun q => Extended.finite (axis.longitude q.1 + 360 * turns q)) complete =
        (.finite (axis.longitude e.minx + 360 * n), .finite (axis.longitude e.maxx + 360 * n)) := by
  let unrolled (q : K × K) : K × Int := (axis.longitude q.1, turns q)
  have hscale : 0 < 180 / axis.radius := div_pos (by norm_num) axis.radius_pos
  have hsteps : (unrolled p :: ps.map unrolled).IsChain fun p q => |q.1 - p.1| < 180 := by
    rw [← List.map_cons, List.isChain_map]
    refine haround.steps.imp fun p q hstep => ?_
    have hscaled := mul_le_mul_of_nonneg_right hstep hscale.le
    rw [axis.longitude_sub] at hnarrow ⊢
    rw [abs_mul, abs_of_pos hscale]
    linarith
  have hwest : p.1 = e.minx := congrArg Prod.fst (Option.some.inj haround.start)
  have hclosed : ((unrolled p :: ps.map unrolled).getLastD (unrolled p)).1 = (unrolled p).1 := by
    rw [← List.map_cons, List.getLastD_map, List.getLastD_eq_getLast?, haround.close]
    exact congrArg axis.longitude hwest.symm
  have hrange {x : K} (hx : x ∈ (unrolled p :: ps.map unrolled).map Prod.fst) :
      axis.longitude e.minx ≤ x ∧ x ≤ axis.longitude e.maxx := by
    rw [← List.map_cons, List.map_map] at hx
    obtain ⟨q, hq, rfl⟩ := List.mem_map.mp hx
    obtain ⟨hlow, hhigh⟩ := haround.within q hq
    exact ⟨axis.longitude_strictMono.monotone hlow, axis.longitude_strictMono.monotone hhigh⟩
  have hne : (unrolled p :: ps.map unrolled).map Prod.fst ≠ [] := by simp
  have hleast : least ((unrolled p :: ps.map unrolled).map Prod.fst) = axis.longitude e.minx := by
    obtain ⟨hmem, hle⟩ := least_spec hne
    refine (hle _ ?_).antisymm (hrange hmem).1
    rw [← hwest]
    exact List.mem_cons_self
  have hgreatest : greatest ((unrolled p :: ps.map unrolled).map Prod.fst) =
      axis.longitude e.maxx := by
    obtain ⟨hmem, hle⟩ := greatest_spec hne
    obtain ⟨q, hq, heast⟩ := haround.east
    refine (hrange hmem).2.antisymm (hle _ ?_)
    rw [← heast, ← List.map_cons, List.map_map]
    exact List.mem_map_of_mem (f := Prod.fst ∘ unrolled) hq
  obtain ⟨n, hrange⟩ := longitudeRange_of_short hsteps hclosed
    (by rw [hleast, hgreatest]; linarith) complete
  rw [hleast, hgreatest, List.map_map] at hrange
  exact ⟨n, hrange⟩

omit [IsStrictOrderedRing K] in
/-- Where all the points of the outline have an image in longitude and latitude, these bound the
image of the envelope. -/
theorem transform_of_images {atlas : Atlas (Extended K)} {e : Envelope (Extended K)}
    {own target : Crs} {chart : Transform (Extended K)} (hcrs : e.crs = some own)
    (hne : e.isEmpty = false) (hdiffer : own.same target = false)
    (hown : own.isGeographic = false) (htarget : target.isGeographic = true)
    (hchart : atlas.find own target = .ok chart) {first : K × K} {rest : List (K × K)}
    (himages : (e.outline defaultDensity).map (fun p => chart.image p.1 p.2) =
      (first :: rest).map fun p => (.finite p.1, .finite p.2)) :
    e.transform atlas target =
      boundGeographic atlas e own target.horizontal (.finite first.1, .finite first.2)
        (rest.map fun p => (.finite p.1, .finite p.2)) true := by
  have hfinite : ∀ image ∈ (first :: rest).map fun p => (Extended.finite p.1, Extended.finite p.2),
      isFinitePoint image = true := by
    intro image himage
    obtain ⟨p, -, rfl⟩ := List.mem_map.mp himage
    rfl
  rw [transform, sampledTransform_of_projected hcrs hne hdiffer hown htarget hchart
    (by rw [himages, List.filter_eq_self.mpr hfinite]), himages, List.all_eq_true.mpr hfinite]

/-- The image is the linear one, moved by whole turns. -/
theorem Unrolls.exists_transform {atlas : Atlas (Extended K)} {e : Envelope K} {own target : Crs}
    {axis : Longitude.Axis K} (hunrolls : Unrolls atlas e own target axis)
    (hcrs : e.crs = some own) (hocc : e.Occupied) (hdiffer : own.same target = false)
    (hown : own.isGeographic = false) (htarget : target.isGeographic = true)
    (hnarrow : axis.longitude e.maxx - axis.longitude e.minx ≤ 359) :
    ∃ (n : Int) (f : Envelope K), f.Occupied ∧ f.minx = axis.longitude e.minx ∧
      f.maxx = axis.longitude e.maxx ∧ f.crs = some target.horizontal ∧
      e.finite.transform atlas target = .ok (f.move (360 * n)).finite := by
  obtain ⟨chart, hchart, himage⟩ := hunrolls.image
  obtain ⟨toOwn, htoOwn, hpoles⟩ := hunrolls.poles
  have houtline := outline_finite e defaultDensity
  have haround := goesAround_around hocc (n := (max defaultDensity 2).toNat) (by decide)
  generalize e.around (max defaultDensity 2).toNat = points at houtline haround
  have hshown : ∀ p ∈ points, ∃ (k : Int) (lat : K), chart.image (.finite p.1) (.finite p.2) =
      (.finite (axis.longitude p.1 + 360 * k), .finite lat) := by
    intro p hp
    apply himage
    rw [houtline]
    exact List.mem_map_of_mem hp
  choose! turns lat hshown using hshown
  have himages : (e.finite.outline defaultDensity).map (fun p => chart.image p.1 p.2) =
      (points.map fun p => (axis.longitude p.1 + 360 * (turns p : K), lat p)).map fun p =>
        (Extended.finite p.1, Extended.finite p.2) := by
    rw [houtline, List.map_map, List.map_map]
    exact List.map_congr_left hshown
  cases points with
  | nil => exact absurd haround.start (by simp)
  | cons p ps =>
      obtain ⟨n, hrange⟩ := haround.exists_longitudeRange hnarrow turns true
      have hpoles' : ∀ pole ∈ ([90, -90] : List K), ¬e.finite.HoldsPole toOwn pole := by
        rintro pole hmem ⟨q, himage, hholds⟩
        exact hpoles pole hmem _ _ himage (holds_finite_iff.mp hholds)
      rw [← Atlas.find_horizontal_left] at htoOwn
      refine ⟨n, ⟨axis.longitude e.minx, least (lat p :: ps.map lat), axis.longitude e.maxx,
          greatest (lat p :: ps.map lat), some target.horizontal⟩,
        ⟨axis.longitude_strictMono.monotone hocc.1, least_le_greatest _ _⟩, rfl, rfl, rfl, ?_⟩
      rw [transform_of_images (e := e.finite) hcrs (isEmpty_finite hocc) hdiffer hown htarget
        hchart himages]
      have hbound := boundGeographic_of_not_holdsPole htoOwn hpoles'
        (axis.longitude p.1 + 360 * (turns p : K), lat p)
        (ps.map fun q => (axis.longitude q.1 + 360 * (turns q : K), lat q))
        (by simpa only [List.map_map, Function.comp_def] using hrange)
      simp only [List.map_map, Function.comp_def] at hbound ⊢
      exact hbound

end Envelope

end Antimeridian
