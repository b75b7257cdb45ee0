import SeriesExec.Proofs.Stores

/-!
# Listings — which series a store lists

Of the series with one physical path a listing shows one, the first that comes, and it shows them by
ascending physical path.  Nothing here depends on how the batches came into the store.

Main statements: a series is found under a physical path exactly if it is the first with this path
(`find?_byPath`); a listing ascends strictly (`sorted_bySeriesPath`), shows the physical paths of
all stored series and no others (`mem_physicalPaths_listSeries`), and shows nothing that is not
stored (`stored_of_mem_listSeries`).
-/

namespace SeriesExec
namespace Store

variable {s : Store} {series : List Series} {x : Series} {p : String}

/-- The series by their physical paths. -/
def byPath (series : List Series) : List (String × Series) :=
  series.foldl (fun l x => KeyedList.insertNew x.physicalPath x l) []

theorem byPath_snoc (series : List Series) (x : Series) :
    byPath (series ++ [x]) = KeyedList.insertNew x.physicalPath x (byPath series) :=
  List.foldl_append

theorem sorted_byPath (series : List Series) : KeyedList.Sorted (byPath series) := by
  induction series using List.reverseRecOn with
  | nil => exact List.Pairwise.nil
  | append_singleton series x ih =>
    rw [byPath_snoc]
    exact KeyedList.sorted_update _ _ ih

/-- Of the series with one physical path the first counts. -/
theorem find?_byPath (p : String) (series : List Series) :
    KeyedList.find? p (byPath series) = series.find? fun x => x.physicalPath == p := by
  induction series using List.reverseRecOn with
  | nil => rfl
  | append_singleton series x ih =>
    rw [byPath_snoc, KeyedList.insertNew, KeyedList.find?_update _ _ _ (sorted_byPath series), ih,
      List.find?_append]
    by_cases hp : p = x.physicalPath
    · subst hp
      rw [if_pos rfl, ih, List.find?_singleton, beq_self_eq_true, if_pos rfl]
      cases series.find? fun y => y.physicalPath == x.physicalPath <;> rfl
    · have hne : (x.physicalPath == p) = false := beq_eq_false_iff_ne.mpr (Ne.symm hp)
      rw [if_neg hp, List.find?_singleton, hne]
      exact (Option.or_none).symm

theorem physicalPath_of_find? (h : (series.find? fun y => y.physicalPath == p) = some x) :
    x.physicalPath = p := by
  have hp := List.find?_some h
  exact eq_of_beq hp

theorem physicalPath_of_mem_byPath {e : String × Series} (he : e ∈ byPath series) :
    e.2.physicalPath = e.1 := by
  have hfound := KeyedList.find?_of_mem (sorted_byPath series) he
  rw [find?_byPath] at hfound
  exact physicalPath_of_find? hfound

theorem mem_bySeriesPath :
    x ∈ bySeriesPath series ↔
      (series.find? fun y => y.physicalPath == x.physicalPath) = some x := by
  rw [← find?_byPath]
  constructor
  · intro hx
    obtain ⟨e, he, rfl⟩ := List.mem_map.mp hx
    rw [physicalPath_of_mem_byPath he]
    exact KeyedList.find?_of_mem (sorted_byPath series) he
  · intro hfound
    exact List.mem_map.mpr ⟨_, KeyedList.mem_of_find? hfound, rfl⟩

theorem mem_of_mem_bySeriesPath (hx : x ∈ bySeriesPath series) : x ∈ series :=
  List.mem_of_find?_eq_some (mem_bySeriesPath.mp hx)

theorem exists_mem_bySeriesPath (hx : x ∈ series) :
    ∃ y ∈ bySeriesPath series, y.physicalPath = x.physicalPath := by
  have hsome : (series.find? fun y => y.physicalPath == x.physicalPath).isSome :=
    List.find?_isSome.mpr ⟨x, hx, beq_self_eq_true _⟩
  obtain ⟨y, hy⟩ := Option.isSome_iff_exists.mp hsome
  have hp := physicalPath_of_find? hy
  exact ⟨y, mem_bySeriesPath.mpr (hp ▸ hy), hp⟩

theorem sorted_bySeriesPath (series : List Series) :
    ((bySeriesPath series).map Series.physicalPath).Pairwise (· < ·) := by
  have hkeys : (bySeriesPath series).map Series.physicalPath = (byPath series).map Prod.fst :=
    (List.map_map ..).trans (List.map_congr_left fun e he => physicalPath_of_mem_byPath he)
  rw [hkeys]
  exact List.pairwise_map.mpr ((sorted_byPath series).imp compareOfLessAndEq_eq_lt.mp)

/-! ## Of all units -/

/-- The series that are stored in some unit. -/
theorem mem_series_units (hs : s.Ordered) :
    x ∈ (s.units.flatMap fun e => e.2.flatMap seriesOfBatch) ↔
      ∃ u, ∃ b ∈ s.batches u, x ∈ seriesOfBatch b := by
  simp only [List.mem_flatMap]
  constructor
  · rintro ⟨⟨u, bs⟩, he, b, hb, hx⟩
    refine ⟨u, b, ?_, hx⟩
    rw [batches, KeyedList.find?_of_mem hs he]
    exact hb
  · rintro ⟨u, b, hb, hx⟩
    rw [batches] at hb
    cases hfound : KeyedList.find? u s.units with
    | none =>
      rw [hfound] at hb
      cases hb
    | some bs =>
      rw [hfound] at hb
      exact ⟨(u, bs), KeyedList.mem_of_find? hfound, b, hb, hx⟩

theorem stored_of_mem_listSeries (hs : s.Ordered) (hx : x ∈ s.listSeries) :
    ∃ u, ∃ b ∈ s.batches u, x ∈ seriesOfBatch b :=
  (mem_series_units hs).mp (mem_of_mem_bySeriesPath hx)

/-- A listing shows the physical paths of the stored series. -/
theorem mem_physicalPaths_listSeries (hs : s.Ordered) :
    p ∈ s.listSeries.map Series.physicalPath ↔
      ∃ u, ∃ b ∈ s.batches u, ∃ x ∈ seriesOfBatch b, x.physicalPath = p := by
  constructor
  · intro hp
    obtain ⟨x, hx, rfl⟩ := List.mem_map.mp hp
    obtain ⟨u, b, hb, hmem⟩ := stored_of_mem_listSeries hs hx
    exact ⟨u, b, hb, x, hmem, rfl⟩
  · rintro ⟨u, b, hb, x, hx, rfl⟩
    obtain ⟨y, hy, hp⟩ := exists_mem_bySeriesPath ((mem_series_units hs).mpr ⟨u, b, hb, hx⟩)
    exact List.mem_map.mpr ⟨y, hy, hp⟩

end Store
end SeriesExec
