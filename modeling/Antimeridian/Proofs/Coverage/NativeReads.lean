import Antimeridian.Coverage.FileReader
import Antimeridian.Proofs.Raster.Cropping

/-!
# Reads in a file's own system

A north-up file that is read on a grid of its own system answers with pixels that take up whole
pixels of the file, merged or not. A point that lies deep in the file and in the grid lies in them.
-/

namespace Antimeridian.FileReader

theorem countAt_pos {α : Type} [Scalar α] {pixels count : Int} {native requested : α}
    (hok : countAt pixels native requested = .ok count) : 0 < count := by
  rw [countAt] at hok
  dsimp only at hok
  split at hok
  · contradiction
  · obtain ⟨rounded, -, hok⟩ := bind_eq_ok_iff.mp hok
    cases hok
    exact lt_max_of_lt_left one_pos

variable {K : Type} [Field K] [LinearOrder K] [FloorRing K] [IsStrictOrderedRing K]
  {reader : FileReader (Extended K)} {u : NorthUp K} {g : Grid (Extended K)} {e : Envelope K}
  {m s : K} {p : K × K}

theorem exists_of_readNative (hu : reader.file.contents.transform = u.affine)
    (hg : g.envelope = e.finite) (he : e.Deep m p)
    (hdata : (u.extent reader.file.contents.whole).Deep m p) (hs : 0 ≤ s) (hsm : s < m)
    (hwidth : u.width ≤ 10 ^ 6 * s) (hheight : u.height ≤ 10 ^ 6 * s)
    {resampling : ResamplingChoice} {answer : Option (Raster (Extended K))}
    (hok : reader.readNative reader.file g resampling = .ok answer) :
    ∃ coverage, ∃ v : NorthUp K, answer = some coverage ∧
      coverage.crs = reader.file.contents.crs ∧ coverage.transform = v.affine ∧
      (v.extent coverage.whole).Deep (m - s) p := by
  have hm := hs.trans_lt hsm
  have hmeet := he.meet hdata
  have harea := hmeet.hasArea hm
  have hoverlap : g.envelope.intersection reader.file.contents.envelope =
      (e.meet (u.extent reader.file.contents.whole)).finite := by
    rw [hg, Raster.envelope_eq hu]
    exact Envelope.intersection_of_mem_region (he.mem_region hm.le) (hdata.mem_region hm.le)
  obtain ⟨rect, hrect, hdeep⟩ := NorthUp.exists_clamped
    (NorthUp.deep_covering harea.occupied hmeet hwidth hheight) (hdata.mono (sub_le_self m hs))
    (sub_pos.mpr hsm)
  obtain ⟨hfirst, hsize⟩ := PixelRect.clamped?_eq_some hrect
  rw [readNative, hoverlap] at hok
  simp only [Envelope.lacksArea_finite, Envelope.hasArea_finite_iff.mpr harea, Bool.not_true,
    Bool.false_eq_true, if_false, hu, u.affine_eq, u.frame.coveredPixels?_eq, hrect] at hok
  obtain ⟨_, ⟨⟩, hok⟩ := bind_eq_ok_iff.mp hok
  obtain ⟨width, hwide, hok⟩ := bind_eq_ok_iff.mp hok
  obtain ⟨height, hhigh, hok⟩ := bind_eq_ok_iff.mp hok
  obtain ⟨-, -, hok⟩ := bind_eq_ok_iff.mp hok
  obtain ⟨-, -, hok⟩ := bind_eq_ok_iff.mp hok
  obtain ⟨method, -, hok⟩ := bind_eq_ok_iff.mp hok
  obtain ⟨places, -, hok⟩ := bind_eq_ok_iff.mp hok
  cases hok
  have hcolumns : 0 < width.toNat := by simpa using countAt_pos hwide
  have hrows : 0 < height.toNat := by simpa using countAt_pos hhigh
  obtain ⟨v, hv, hextent⟩ :=
    Raster.exists_merged hu hfirst hsize hcolumns hrows method reader.file.overviews
  exact ⟨_, v, rfl, rfl, hv, hextent ▸ hdeep⟩

end Antimeridian.FileReader
