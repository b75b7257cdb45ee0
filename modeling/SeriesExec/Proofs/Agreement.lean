import Mathlib.Data.List.Forall2
import SeriesExec.Proofs.Layouts
import SeriesExec.Proofs.Listings

/-!
# Agreement — what a read and a listing take for a series

A listing tells series apart by path and tags, a read by the path alone, and within a batch a read
takes the first column of a name.  This file defines:

* `Agrees` — the rows of a read show each listed series in a column of its own, with its path, its
  tags and all its values, and no value under the path and tags of another series;
* `Legible` — the tags go with the path, and the first column of a name has the values of all
  others.

Main statement: rows agree with the listing if what was inserted is legible for the patterns of the
read, and, where different matching series are listed under different physical paths, in no other
case (`agrees_iff_legible`).  Two insertions with one path under different tags are read as one
series, so they do not agree (`one_column_for_two_series`).
-/

namespace SeriesExec
namespace Store

open Projection

variable {u : UnitId} {s : Store} {bs : List Batch} {b b₂ : Batch} {c c₂ : Column} {f : Field}
variable {patterns : List String} {rows : RowStream} {x y : Series} {l : Layout}

/-! ## Insertions into one unit -/

/-- The store after insertions into one unit, if all of them succeed. -/
def insertAll (u : UnitId) (bs : List Batch) : Except Error Store :=
  bs.foldlM (fun s b => s.insert u b) empty

/-- What insertions leave: the unit has the batches, each with a key, and no other unit has any. -/
theorem batches_insertAll (h : insertAll u bs = .ok s) : s.Ordered ∧ (∀ b ∈ bs, hasKey b = true) ∧
    ∀ v, s.batches v = if v = u then bs else [] := by
  induction bs using List.reverseRecOn generalizing s with
  | nil =>
    cases h
    exact ⟨ordered_empty, List.forall_mem_nil _, fun v => by split <;> rfl⟩
  | append_singleton bs b ih =>
    rw [insertAll, List.foldlM_append] at h
    change (insertAll u bs >>= fun s => [b].foldlM (fun s b => s.insert u b) s) = .ok s at h
    cases hbefore : insertAll u bs with
    | error e =>
      rw [hbefore] at h
      cases h
    | ok s₀ =>
      obtain ⟨hs₀, hkeys, hbatches⟩ := ih hbefore
      rw [hbefore] at h
      change [b].foldlM (fun s b => s.insert u b) s₀ = .ok s at h
      obtain ⟨s', hinsert, hs'⟩ := exists_of_foldlM_cons h
      cases hs'
      cases hb : hasKey b with
      | false =>
        rw [insert_of_not_hasKey hb] at hinsert
        cases hinsert
      | true =>
        rw [insert_of_hasKey hb] at hinsert
        cases hinsert
        refine ⟨KeyedList.sorted_update u _ hs₀, ?_, fun v => ?_⟩
        · intro b' hb'
          rcases List.mem_append.mp hb' with hb' | hb'
          · exact hkeys b' hb'
          · exact List.mem_singleton.mp hb' ▸ hb
        · rw [batches_update hs₀ u (fun old => old ++ [b]) v, hbatches v, hbatches u, if_pos rfl]
          split <;> rfl

theorem stored_of_listed (h : insertAll u bs = .ok s) (hx : x ∈ s.listSeries) :
    ∃ b ∈ bs, x ∈ seriesOfBatch b := by
  obtain ⟨hs, -, hbatches⟩ := batches_insertAll h
  obtain ⟨v, b, hb, hmem⟩ := stored_of_mem_listSeries hs hx
  rw [hbatches] at hb
  split at hb
  · exact ⟨b, hb, hmem⟩
  · cases hb

/-! ## Agreeing -/

/-- The field has the path and the tags of the series. -/
def IsOf (x : Series) (f : Field) : Prop :=
  f.name = x.path ∧ f.metadata = x.tags

/-- The `j`-th series column of rows shows the path and the tags of the series. -/
def Shows (rows : RowStream) (x : Series) (j : Nat) : Prop :=
  ∃ f, (rows.schema.drop 1)[j]? = some f ∧ IsOf x f

/-- What is read of a batch, row by row: the keys of the batch; in each column values that the batch
has under the path and the tags of the column; and of each listed series all that the batch has. -/
structure Mirrors (listed : List Series) (b b' : Batch) : Prop where
  key : b'.column 0 = b.column 0
  sound : ∀ c' ∈ b'.columns.drop 1, ∀ (r : Nat) (v : Value), c'.cells[r]? = some (some v) →
    ∃ c ∈ b.columns.drop 1, c.field.name = c'.field.name ∧ c.field.metadata = c'.field.metadata ∧
      c.cells[r]? = some (some v)
  whole : ∀ x ∈ listed, ∀ c ∈ b.columns.drop 1, IsOf x c.field →
    ∀ c' ∈ b'.columns.drop 1, IsOf x c'.field → c'.cells = c.cells

/-- The rows that are read from inserted batches agree with the series that are listed: each of
these that matches has one column, no two of them have the same, and the batches of the rows mirror
those inserted, but for some that have no value of a series that is read. -/
structure Agrees (listed : List Series) (patterns : List String) (bs : List Batch)
    (rows : RowStream) : Prop where
  own : ∀ x ∈ listed, Wildcard.anyTest patterns x.path = true → ∃! j, Shows rows x j
  apart : ∀ x ∈ listed, ∀ y ∈ listed, x ≠ y → ∀ j, Shows rows x j → ¬Shows rows y j
  values : ∃ keep : Batch → Bool, List.Forall₂ (Mirrors listed) (bs.filter keep) rows.batches ∧
    ∀ b ∈ bs, keep b = false → ∀ x ∈ listed, Wildcard.anyTest patterns x.path = true →
      ∀ c ∈ b.columns.drop 1, IsOf x c.field → ∀ cell ∈ c.cells, cell = none

/-- Column `c` of batch `b` is a series that a pattern matches. -/
structure Matched (patterns : List String) (bs : List Batch) (b : Batch) (c : Column) : Prop where
  batch : b ∈ bs
  column : c ∈ b.columns.drop 1
  path : Wildcard.anyTest patterns c.field.name = true

/-- What a read can show in full: matching columns of one path have the same tags, and what a read
takes for the series in a batch, the first column of its name, has the values of the column. -/
structure Legible (patterns : List String) (bs : List Batch) : Prop where
  tags : ∀ {b c b₂ c₂}, Matched patterns bs b c → Matched patterns bs b₂ c₂ →
    c.field.name = c₂.field.name → c.field.metadata = c₂.field.metadata
  cells : ∀ {b c}, Matched patterns bs b c → Projection.cells b c.field = c.cells

theorem mem_allMatching :
    f ∈ allMatching patterns bs ↔ ∃ b c, Matched patterns bs b c ∧ c.field = f := by
  constructor
  · intro hf
    obtain ⟨b, hb, hmem⟩ := List.mem_flatMap.mp hf
    obtain ⟨hmem, hpath⟩ := List.mem_filter.mp hmem
    obtain ⟨c, hc, rfl⟩ := List.mem_map.mp hmem
    exact ⟨b, c, ⟨hb, hc, hpath⟩, rfl⟩
  · rintro ⟨b, c, h, rfl⟩
    exact List.mem_flatMap.mpr ⟨b, h.batch,
      List.mem_filter.mpr ⟨List.mem_map.mpr ⟨c, h.column, rfl⟩, h.path⟩⟩

/-- Each listed series that matches is stored as a column. -/
theorem matched_of_listed (h : insertAll u bs = .ok s) (hx : x ∈ s.listSeries)
    (hpath : Wildcard.anyTest patterns x.path = true) :
    ∃ b c, Matched patterns bs b c ∧ IsOf x c.field := by
  obtain ⟨b, hb, hmem⟩ := stored_of_listed h hx
  obtain ⟨c, hc, rfl⟩ := List.mem_map.mp hmem
  exact ⟨b, c, ⟨hb, hc, hpath⟩, rfl, rfl⟩

/-! ## The columns of a layout -/

/-- Each column of a layout shows path and tags of a column that matches. -/
theorem matched_of_mem (hl : IsLayout (allMatching patterns bs) l.series) (hf : f ∈ l.series) :
    ∃ b c, Matched patterns bs b c ∧ c.field.name = f.name ∧ c.field.metadata = f.metadata := by
  obtain ⟨f₀, hf₀, rfl⟩ := hl.exists_shown hf
  obtain ⟨b, c, hmatched, rfl⟩ := mem_allMatching.mp hf₀
  exact ⟨b, c, hmatched, rfl, rfl⟩

/-! ## Legible insertions -/

section Legible

variable (h : Legible patterns bs) (hl : IsLayout (allMatching patterns bs) l.series)
include h hl

/-- A matching column has its tags in the layout. -/
theorem Legible.exists_mem (hmatched : Matched patterns bs b c) :
    ∃ f ∈ l.series, f.name = c.field.name ∧ f.metadata = c.field.metadata := by
  obtain ⟨f, hf, hname⟩ := hl.exists_mem (mem_allMatching.mpr ⟨b, c, hmatched, rfl⟩)
  obtain ⟨b₂, c₂, hmatched₂, hname₂, htags₂⟩ := matched_of_mem hl hf
  have htags := h.tags hmatched₂ hmatched (hname₂.trans hname)
  exact ⟨f, hf, hname, htags₂ ▸ htags⟩

theorem Legible.own (hmatched : Matched patterns bs b c) (hx : IsOf x c.field) :
    ∃! j : Nat, ∃ f, l.series[j]? = some f ∧ IsOf x f := by
  obtain ⟨f, hf, hname, htags⟩ := h.exists_mem hl hmatched
  obtain ⟨j, hj⟩ := List.mem_iff_getElem?.mp hf
  refine ⟨j, ⟨f, hj, hname.trans hx.1, htags.trans hx.2⟩, ?_⟩
  rintro k ⟨g, hk, hg⟩
  -- Both positions have the path of the series as their name, and no two have one name.
  have hgf : g = f := hl.eq_of_name (List.mem_of_getElem? hk) hf
    (hg.1.trans (hname.trans hx.1).symm)
  have hnodup : l.series.Nodup := List.Nodup.of_map _ hl.nodup
  have hlt : k < l.series.length := (List.getElem?_eq_some_iff.mp hk).1
  exact (List.getElem?_inj hlt hnodup).mp (by rw [hk, hj, hgf])

theorem Legible.mirrors (listed : List Series) (hb : b ∈ bs) : Mirrors listed b (align l b) := by
  refine ⟨rfl, ?_, ?_⟩
  · intro c' hc' r v hv
    obtain ⟨f, hf, rfl⟩ := List.mem_map.mp hc'
    rcases cells_cases b f with ⟨c, hc, hname, hcells⟩ | ⟨-, hnone⟩
    · -- The column that is read matches as the field of the layout does.
      obtain ⟨b₂, c₂, hmatched₂, hname₂, htags₂⟩ := matched_of_mem hl hf
      have hmatched : Matched patterns bs b c :=
        ⟨hb, hc, by rw [hname, ← hname₂]; exact hmatched₂.path⟩
      have htags := h.tags hmatched hmatched₂ (hname.trans hname₂.symm)
      exact ⟨c, hc, hname, htags.trans htags₂, hcells ▸ hv⟩
    · change (Projection.cells b f)[r]? = _ at hv
      rw [hnone, List.getElem?_replicate] at hv
      split at hv <;> cases hv
  · intro x hx c hc hof c' hc' hof'
    obtain ⟨f, hf, rfl⟩ := List.mem_map.mp hc'
    obtain ⟨b₂, c₂, hmatched₂, hname₂, -⟩ := matched_of_mem hl hf
    have hname : f.name = c.field.name := hof'.1.trans hof.1.symm
    have hmatched : Matched patterns bs b c :=
      ⟨hb, hc, by rw [← hname, ← hname₂]; exact hmatched₂.path⟩
    exact (cells_congr b hname).trans (h.cells hmatched)

/-- A batch that a read leaves out has no values of the series that are read. -/
theorem Legible.missing (hmatched : Matched patterns bs b c) (hout : isTouched l b = false) :
    ∀ cell ∈ c.cells, cell = none := by
  obtain ⟨f, hf, hname, -⟩ := h.exists_mem hl hmatched
  have hposition : position? b f.name = none := by
    have hnone := List.any_eq_false.mp hout f hf
    rwa [Bool.not_eq_true, Option.isSome_eq_false_iff, Option.isNone_iff_eq_none] at hnone
  have hcells : c.cells = List.replicate b.rows none := by
    rw [← h.cells hmatched, ← cells_congr b hname, Projection.cells, hposition]
  intro cell hcell
  rw [hcells] at hcell
  exact List.eq_of_mem_replicate hcell

end Legible

theorem eq_of_physicalPath (hx : x ∈ s.listSeries) (hy : y ∈ s.listSeries)
    (hpath : x.physicalPath = y.physicalPath) : x = y := by
  have hnodup : (s.listSeries.map Series.physicalPath).Nodup :=
    (sorted_bySeriesPath _).imp fun hlt => String.ne_of_lt hlt
  exact List.inj_on_of_nodup_map hnodup hx hy hpath

theorem agrees_of_legible (hinserts : insertAll u bs = .ok s)
    (hread : Projection.read patterns bs = .ok rows) (h : Legible patterns bs) :
    Agrees s.listSeries patterns bs rows := by
  obtain ⟨l, hl, hschema, hbatches⟩ := rows_of_read hread
  refine ⟨?_, ?_, isTouched l, ?_, ?_⟩
  · intro x hx hpath
    obtain ⟨b, c, hmatched, hof⟩ := matched_of_listed hinserts hx hpath
    have hshows : ∀ j, Shows rows x j ↔ ∃ f, l.series[j]? = some f ∧ IsOf x f := fun j => by
      rw [Shows, hschema]
      rfl
    simpa only [hshows] using h.own hl hmatched hof
  · rintro x hx y hy hne j ⟨f, hf, hofx⟩ ⟨g, hg, hofy⟩
    obtain rfl : f = g := Option.some.inj (hf.symm.trans hg)
    refine hne (eq_of_physicalPath hx hy ?_)
    rw [Series.physicalPath, Series.physicalPath, ← hofx.1, ← hofx.2, ← hofy.1, ← hofy.2]
  · rw [hbatches, List.forall₂_map_right_iff, List.forall₂_same]
    intro b hb
    exact h.mirrors hl _ (List.mem_filter.mp hb).1
  · intro b hb hout x hx hpath c hc hof
    exact h.missing hl ⟨hb, hc, hof.1 ▸ hpath⟩ hout

/-! ## Rows that agree -/

theorem exists_of_forall₂ {α β : Type} {R : α → β → Prop} {as : List α} {bs : List β} {a : α}
    (h : List.Forall₂ R as bs) (ha : a ∈ as) : ∃ b ∈ bs, R a b := by
  induction h with
  | nil => cases ha
  | cons hab _ ih =>
    rcases List.mem_cons.mp ha with rfl | ha
    · exact ⟨_, List.mem_cons_self, hab⟩
    · obtain ⟨b, hb, hab⟩ := ih ha
      exact ⟨b, List.mem_cons_of_mem _ hb, hab⟩

section Agreeing

variable {listed : List Series} (h : Agrees listed patterns bs rows)
variable (hschema : rows.schema = schema l) (hl : IsLayout (allMatching patterns bs) l.series)
variable (hlisted : ∀ b c, Matched patterns bs b c → ∃ x ∈ listed, IsOf x c.field)
include h hschema

theorem Agrees.exists_mem (hx : x ∈ listed) (hpath : Wildcard.anyTest patterns x.path = true) :
    ∃ f ∈ l.series, IsOf x f := by
  obtain ⟨j, ⟨f, hf, hof⟩, -⟩ := h.own x hx hpath
  rw [hschema] at hf
  exact ⟨f, List.mem_of_getElem? hf, hof⟩

include hl hlisted in
theorem Agrees.tags (hc : Matched patterns bs b c) (hc₂ : Matched patterns bs b₂ c₂)
    (hname : c.field.name = c₂.field.name) : c.field.metadata = c₂.field.metadata := by
  obtain ⟨x, hx, hof⟩ := hlisted b c hc
  obtain ⟨y, hy, hof₂⟩ := hlisted b₂ c₂ hc₂
  obtain ⟨f, hf, hfx⟩ := h.exists_mem hschema hx (hof.1 ▸ hc.path)
  obtain ⟨g, hg, hgy⟩ := h.exists_mem hschema hy (hof₂.1 ▸ hc₂.path)
  -- A layout has one field for the name, and it shows the tags of both.
  have hfg : f = g := hl.eq_of_name hf hg
    (hfx.1.trans (hof.1.symm.trans (hname.trans (hof₂.1.trans hgy.1.symm))))
  rw [hof.2, hof₂.2, ← hfx.2, ← hgy.2, hfg]

/-- All columns of a batch that are of one listed series have the same values, and none at all if
the series is named as the key. -/
theorem Agrees.same_cells (hkeys : ∀ b ∈ bs, hasKey b = true)
    (hbatches : rows.batches = (bs.filter (isTouched l)).map (align l)) (hb : b ∈ bs)
    (hx : x ∈ listed) (hpath : Wildcard.anyTest patterns x.path = true) :
    ∃ cs : List Cell, (∀ c ∈ b.columns.drop 1, IsOf x c.field → c.cells = cs) ∧
      (x.path = keyName → ∀ cell ∈ cs, cell = none) := by
  obtain ⟨keep, hmirrors, hmissing⟩ := h.values
  cases hkeep : keep b with
  | false =>
    refine ⟨List.replicate b.rows none, fun c hc hof => ?_, fun _ cell hcell =>
      List.eq_of_mem_replicate hcell⟩
    exact List.eq_replicate_iff.mpr ⟨b.uniform c (List.mem_of_mem_drop hc),
      hmissing b hb hkeep x hx hpath c hc hof⟩
  | true =>
    obtain ⟨b', hb', hmirror⟩ := exists_of_forall₂ hmirrors (List.mem_filter.mpr ⟨hb, hkeep⟩)
    rw [hbatches] at hb'
    obtain ⟨b₀, hb₀, rfl⟩ := List.mem_map.mp hb'
    obtain ⟨f, hf, hof⟩ := h.exists_mem hschema hx hpath
    refine ⟨Projection.cells b₀ f, fun c hc hofc => ?_, fun hkey cell hcell => ?_⟩
    · exact (hmirror.whole x hx c hc hofc _ (List.mem_map.mpr ⟨f, hf, rfl⟩) hof).symm
    · have hposition := position?_keyName (hkeys b₀ (List.mem_filter.mp hb₀).1)
      rw [Projection.cells, hof.1, hkey, hposition] at hcell
      exact List.eq_of_mem_replicate hcell

include hl hlisted in
theorem Agrees.legible (hkeys : ∀ b ∈ bs, hasKey b = true)
    (hbatches : rows.batches = (bs.filter (isTouched l)).map (align l)) : Legible patterns bs := by
  refine ⟨fun hc hc₂ hname => h.tags hschema hl hlisted hc hc₂ hname, fun {b c} hc => ?_⟩
  obtain ⟨x, hx, hof⟩ := hlisted b c hc
  obtain ⟨cs, hsame, hkey⟩ :=
    h.same_cells hschema hkeys hbatches hc.batch hx (hof.1 ▸ hc.path)
  have hcells : c.cells = cs := hsame c hc.column hof
  rcases cells_cases b c.field with ⟨c₀, hc₀, hname, hread⟩ | ⟨hposition, hread⟩
  · -- The column that is read is of the same series.
    have hmatched : Matched patterns bs b c₀ := ⟨hc.batch, hc₀, hname ▸ hc.path⟩
    have htags := h.tags hschema hl hlisted hmatched hc hname
    rw [hread, hcells]
    exact hsame c₀ hc₀ ⟨hname.trans hof.1, htags.trans hof.2⟩
  · have hname := name_of_position?_eq_none (hkeys b hc.batch) hc.column hposition
    have hnone := hkey (hof.1.symm.trans hname)
    rw [hread]
    exact (List.eq_replicate_iff.mpr ⟨b.uniform c (List.mem_of_mem_drop hc.column),
      fun cell hcell => hnone cell (hcells ▸ hcell)⟩).symm

end Agreeing

/-- Rows that are read from one unit agree with the listing if the insertions are legible for the
patterns.  If each matching column is listed with its path and its tags, they agree in no other
case.  (A series may be left out of a listing where another one has the same physical path.) -/
theorem agrees_iff_legible (hinserts : insertAll u bs = .ok s)
    (hread : Projection.read patterns (s.batches u) = .ok rows) :
    (Legible patterns bs → Agrees s.listSeries patterns bs rows) ∧
    ((∀ b c, Matched patterns bs b c → ∃ x ∈ s.listSeries, IsOf x c.field) →
      (Agrees s.listSeries patterns bs rows ↔ Legible patterns bs)) := by
  obtain ⟨-, hkeys, hbatches⟩ := batches_insertAll hinserts
  rw [hbatches, if_pos rfl] at hread
  refine ⟨agrees_of_legible hinserts hread, fun hlisted => ⟨fun h => ?_, agrees_of_legible hinserts
    hread⟩⟩
  obtain ⟨l, hl, hschema, hrows⟩ := rows_of_read hread
  exact h.legible hschema hl hlisted hkeys hrows

/-- Two batches that have the series `load` in common, but no other. -/
def overlapping : List Batch :=
  [⟨[⟨⟨keyName, .int64, false, Tags.empty⟩, [some (.int 1), some (.int 2)]⟩,
      ⟨⟨"cpu", .int64, true, Tags.ofList [("host", "a")]⟩, [some (.int 7), none]⟩,
      ⟨⟨"load", .int64, true, Tags.empty⟩, [some (.int 3), some (.int 4)]⟩], 2, by simp⟩,
    ⟨[⟨⟨keyName, .int64, false, Tags.empty⟩, [some (.int 3)]⟩,
      ⟨⟨"load", .int64, true, Tags.empty⟩, [some (.int 5)]⟩,
      ⟨⟨"memory", .int64, true, Tags.ofList [("host", "b")]⟩, [some (.int 6)]⟩], 1, by simp⟩]

theorem legible_overlapping (patterns : List String) : Legible patterns overlapping := by
  have htags : ∀ b ∈ overlapping, ∀ c ∈ b.columns.drop 1, ∀ b₂ ∈ overlapping,
      ∀ c₂ ∈ b₂.columns.drop 1, c.field.name = c₂.field.name →
        c.field.metadata = c₂.field.metadata := by
    decide
  have hcells : ∀ b ∈ overlapping, ∀ c ∈ b.columns.drop 1,
      Projection.cells b c.field = c.cells := by
    decide
  exact ⟨fun hc hc₂ hname => htags _ hc.batch _ hc.column _ hc₂.batch _ hc₂.column hname,
    fun hc => hcells _ hc.batch _ hc.column⟩

theorem agrees_iff_legible_sample :
    ∃ s rows, insertAll "unit" overlapping = .ok s ∧
      Projection.read ["cpu", "l*"] (s.batches "unit") = .ok rows ∧
      rows.schema.map Field.name = [keyName, "cpu", "load"] ∧
      Agrees s.listSeries ["cpu", "l*"] overlapping rows :=
  ⟨_, _, rfl, rfl, rfl,
    (agrees_iff_legible (u := "unit") rfl rfl).1 (legible_overlapping ["cpu", "l*"])⟩

/-- One row of a series `cpu` on a host. -/
def hostBatch (host : String) (value : Int) : Batch :=
  ⟨[⟨⟨keyName, .int64, false, Tags.empty⟩, [some (.int 1)]⟩,
    ⟨⟨"cpu", .int64, true, Tags.ofList [("host", host)]⟩, [some (.int value)]⟩], 1, by simp⟩

/-- Of two series with one path, both of which are listed, a read shows only one column. -/
theorem one_column_for_two_series :
    ¬∀ (u : UnitId) (bs : List Batch) (s : Store) (patterns : List String) (rows : RowStream),
      insertAll u bs = .ok s → Projection.read patterns (s.batches u) = .ok rows →
        Agrees s.listSeries patterns bs rows := by
  intro h
  have hagrees := h "unit" [hostBatch "a" 7, hostBatch "b" 8] _ ["cpu"] _ rfl rfl
  obtain ⟨j, ⟨f, hf, hof⟩, -⟩ :=
    hagrees.own ⟨"cpu", .int64, Tags.ofList [("host", "b")]⟩ (by decide) (by decide)
  -- The rows have one series column, and it shows the tags of the other series.
  obtain rfl : f = ⟨"cpu", .int64, true, Tags.ofList [("host", "a")]⟩ :=
    List.mem_singleton.mp (List.mem_of_getElem? hf)
  have htags : Tags.ofList [("host", "a")] ≠ Tags.ofList [("host", "b")] := by decide
  exact htags hof.2

end Store
end SeriesExec
