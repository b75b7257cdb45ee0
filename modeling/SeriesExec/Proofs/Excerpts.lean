import Mathlib.Data.List.Forall2
import SeriesExec.Rows.Stream

/-!
# Excerpts — some rows out of the middle of a stream

A stream comes in batches, and `RowStream.limit` goes through them with two counters.  What it keeps
is said here of the rows alone.  This file defines:

* `Batch.records` and `RowStream.records` — the rows one by one, each with its values;
* `Batch.IsPart` — some rows of a batch that stand together, and at least one;
* `RowStream.excerpt?` — the way through the batches with every difference checked.

Main statement: what is kept are the rows behind the first `skip` ones, up to `count` of them, in
parts of the batches (`limit_keeps_excerpt`), and no counter is ever lowered by more than it is
(`excerpt?_eq_limitBatches`).
-/

namespace SeriesExec

/-! ## Rows -/

namespace Batch

variable {b : Batch}

/-- The values of the row at a position. -/
def record (b : Batch) (i : Nat) : List Cell :=
  b.columns.map fun c => (c.cells[i]?).getD none

/-- The rows one by one; without columns they have no values, but there are as many. -/
def records (b : Batch) : List (List Cell) :=
  (List.range b.rows).map b.record

@[simp]
theorem length_records (b : Batch) : b.records.length = b.rows := by
  rw [records, List.length_map, List.length_range]

theorem record_slice {start len i : Nat} (h : start + len ≤ b.rows) (hi : i < len) :
    (b.slice start len h).record i = b.record (start + i) := by
  simp only [record, slice, List.map_map]
  refine List.map_congr_left fun c _ => ?_
  simp only [Function.comp_apply, List.getElem?_take_of_lt hi, List.getElem?_drop]

/-- Cutting a batch cuts its rows. -/
theorem records_slice {start len : Nat} (h : start + len ≤ b.rows) :
    (b.slice start len h).records = (b.records.drop start).take len := by
  refine List.ext_getElem ?_ fun i hi hi' => ?_
  · simp only [length_records, List.length_take, List.length_drop, slice]
    omega
  · have hlen : i < len := by simpa only [length_records, slice] using hi
    simp only [records, List.getElem_map, List.getElem_range, List.getElem_take,
      List.getElem_drop]
    exact record_slice h hlen

/-- The batch has some rows of the other one that stand together, and at least one. -/
def IsPart (part whole : Batch) : Prop :=
  0 < part.rows ∧ ∃ start, ∃ h : start + part.rows ≤ whole.rows,
    part = whole.slice start part.rows h

theorem isPart_slice {start len : Nat} (h : start + len ≤ b.rows) (hlen : 0 < len) :
    (b.slice start len h).IsPart b :=
  ⟨hlen, start, h, rfl⟩

/-- The `len` rows from `start` on, if there are so many. -/
def slice? (b : Batch) (start len : Nat) : Option Batch :=
  if h : start + len ≤ b.rows then some (b.slice start len h) else none

end Batch

namespace RowStream

/-- The rows of all batches one by one. -/
def records (s : RowStream) : List (List Cell) :=
  s.batches.flatMap Batch.records

/-! ## Counting down -/

/-- The difference of two counters, if the second is not greater. -/
def lowered? (a b : Nat) : Option Nat :=
  if b ≤ a then some (a - b) else none

theorem lowered?_of_le {a b : Nat} (h : b ≤ a) : lowered? a b = some (a - b) :=
  if_pos h

/-- The way through the batches with two counters: `toSkip` rows are still to be left out, and
then `toTake` are still to be kept.  It stops without an answer where a counter would have to be
lowered by more than it is, or where a batch would be cut behind its end. -/
def excerpt? (toSkip toTake : Nat) : List Batch → Option (List Batch)
  | [] => some []
  | b :: rest =>
    if toTake = 0 then some []
    else if toSkip ≥ b.rows then do
      let toSkip ← lowered? toSkip b.rows
      excerpt? toSkip toTake rest
    else do
      let len := min (← lowered? b.rows toSkip) toTake
      let part ← b.slice? toSkip len
      let toTake ← lowered? toTake len
      let parts ← excerpt? 0 toTake rest
      some (part :: parts)

/-- The counters are never lowered by more than they are, and no batch is cut behind its end. -/
theorem excerpt?_eq_limitBatches (skip count : Nat) (batches : List Batch) :
    excerpt? skip count batches = some (limitBatches skip count batches) := by
  induction batches generalizing skip count with
  | nil => rfl
  | cons b rest ih =>
    rw [excerpt?, limitBatches]
    split
    · rfl
    · split
      · rename_i hskip
        rw [lowered?_of_le hskip]
        exact ih _ _
      · rename_i hskip
        have hroom : skip ≤ b.rows := Nat.le_of_not_le hskip
        have hcut : skip + min (b.rows - skip) count ≤ b.rows := by omega
        have htake : min (b.rows - skip) count ≤ count := Nat.min_le_right _ _
        rw [lowered?_of_le hroom]
        simp only [Option.bind_eq_bind, Option.bind_some, Batch.slice?, dif_pos hcut,
          lowered?_of_le htake, ih]

/-! ## What is kept -/

/-- Leaving rows out and keeping some goes by the rows and not by the batches. -/
theorem records_limitBatches (skip count : Nat) (batches : List Batch) :
    (limitBatches skip count batches).flatMap Batch.records =
      ((batches.flatMap Batch.records).drop skip).take count := by
  induction batches generalizing skip count with
  | nil => simp [limitBatches]
  | cons b rest ih =>
    rw [limitBatches, List.flatMap_cons, List.drop_append, Batch.length_records]
    split
    · rename_i hcount
      rw [hcount, List.take_zero, List.flatMap_nil]
    · split
      · rename_i hskip
        -- Nothing of this batch is left.
        have hnone : b.records.drop skip = [] :=
          List.drop_eq_nil_of_le (b.length_records ▸ hskip)
        rw [ih, hnone, List.nil_append]
      · rename_i hskip
        have hlength : (b.records.drop skip).length = b.rows - skip := by simp
        have hnone : skip - b.rows = 0 := by omega
        have hrest : count - min (b.rows - skip) count = count - (b.rows - skip) := by omega
        rw [List.flatMap_cons, ih, Batch.records_slice, hnone, List.drop_zero,
          List.take_append, hlength, hrest, ← hlength, Nat.min_comm, ← List.take_eq_take_min]

/-- What is kept is cut out of some of the batches, in their order, one part out of each. -/
theorem parts_limitBatches (skip count : Nat) (batches : List Batch) :
    ∃ cut, cut.Sublist batches ∧
      List.Forall₂ Batch.IsPart (limitBatches skip count batches) cut := by
  induction batches generalizing skip count with
  | nil => exact ⟨[], List.Sublist.refl _, .nil⟩
  | cons b rest ih =>
    rw [limitBatches]
    split
    · exact ⟨[], List.nil_sublist _, .nil⟩
    · split
      · obtain ⟨cut, hsub, hparts⟩ := ih (skip - b.rows) count
        exact ⟨cut, hsub.cons b, hparts⟩
      · obtain ⟨cut, hsub, hparts⟩ := ih 0 (count - min (b.rows - skip) count)
        refine ⟨b :: cut, hsub.cons_cons b, .cons (Batch.isPart_slice _ ?_) hparts⟩
        omega

/-- Keeping `count` rows behind the first `skip` ones, for any two numbers and any batches, empty
ones among them.  The schema stays; the rows are those behind the first `skip` ones, up to `count`
of them, in their order, wherever one batch ends and the next begins; every batch that comes out has
a row and is cut in one piece out of a batch of the stream, no two out of one; and on the way
through the batches no counter is lowered by more than it is, and no batch is cut behind its end. -/
theorem limit_keeps_excerpt (count skip : Nat) (s : RowStream) :
    (s.limit count skip).schema = s.schema ∧
      (s.limit count skip).records = (s.records.drop skip).take count ∧
      (∃ cut, cut.Sublist s.batches ∧
        List.Forall₂ Batch.IsPart (s.limit count skip).batches cut) ∧
      excerpt? skip count s.batches = some (s.limit count skip).batches :=
  ⟨rfl, records_limitBatches skip count s.batches, parts_limitBatches skip count s.batches,
    excerpt?_eq_limitBatches skip count s.batches⟩

end RowStream
end SeriesExec
