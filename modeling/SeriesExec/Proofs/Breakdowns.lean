import Mathlib.Data.List.Chain
import SeriesExec.Numeric.Total
import SeriesExec.Proofs.Segments

/-!
# Breakdowns — what the written form of a duration says

A duration is written as whole days, hours, minutes, seconds and milliseconds, without those that do
not occur; an empty one is written as seconds.  This file defines:

* `TimeUnit.limit` — how many of a unit make one of the next longer unit;
* `Segment.length` — the milliseconds that a segment with a whole number stands for;
* `Duration.IsBreakdown` — segments that stand for a number of milliseconds, and in which no unit
  could be exchanged for a longer one;
* `Duration.SummedExactly` — segments that are added up without rounding.

Main statements: the written form of a duration is a row of segments that is a breakdown of its
milliseconds (`isRow_render`, `isBreakdown_parts`), segments whose sums need at most 53 bits are
added up without rounding (`summedExactly_of_fits`), and so the written form tells every duration
from every other one, and is read back as the duration while the sums are exact (`render_denotes`).
-/

namespace SeriesExec

/-- How many of a unit make one of the next longer unit, if there is one. -/
def TimeUnit.limit : TimeUnit → Option Nat
  | day => none
  | hour => some 24
  | minute => some 60
  | second => some 60
  | millisecond => some 1000

theorem TimeUnit.millis_pos (u : TimeUnit) : 0 < u.millis := by
  cases u <;> decide

namespace Duration

open Text

variable {cs : List Char} {text : String} {seg : Segment} {segs : List Segment} {m left : Nat}
  {u : TimeUnit} {us : List TimeUnit}

/-- The milliseconds that a segment with a whole number stands for. -/
def Segment.length (seg : Segment) : Nat :=
  seg.number.digits * seg.unit.millis

/-- `IsBreakdown m segs`: segments with whole numbers that stand for `m` milliseconds in all.  The
units get shorter, and there are fewer of each than make a longer one. -/
structure IsBreakdown (m : Nat) (segs : List Segment) : Prop where
  falling : Falling segs
  whole : ∀ seg ∈ segs, seg.number.places = 0
  bounded : ∀ seg ∈ segs, ∀ b ∈ seg.unit.limit, seg.number.digits < b
  total : totalOf Segment.length segs = m

/-- The sum of the first segments is computed without rounding, however many they are. -/
def SummedExactly (segs : List Segment) : Prop :=
  ∀ front, front <+: segs → total front = .whole (totalOf Segment.length front)

/-- A number of a unit as a segment. -/
def Segment.ofPart (part : Nat × TimeUnit) : Segment :=
  ⟨⟨part.1, 0⟩, part.2⟩

/-- The parts of the written form of a number of milliseconds; nothing is written as seconds. -/
def parts (m : UInt64) : List (Nat × TimeUnit) :=
  if m = 0 then [(0, .second)] else segments m

/-! ## Splitting over the units -/

theorem split_zero (us : List TimeUnit) : split 0 us = [] := by
  induction us with
  | nil => rfl
  | cons u us ih => rw [split, if_neg (Nat.not_le.mpr (TimeUnit.millis_pos u)), ih]

/-- Nothing is left over when the shortest unit is among those over which a number is split. -/
theorem total_split (h : .millisecond ∈ us) :
    totalOf (fun part => part.1 * part.2.millis) (split left us) = left := by
  induction us generalizing left with
  | nil => cases h
  | cons u us ih =>
    rw [split]
    rcases List.mem_cons.mp h with rfl | h
    · split
      · rw [totalOf_cons, TimeUnit.millis, Nat.mod_one, split_zero, Nat.div_one, Nat.mul_one]
        rfl
      · rename_i hle
        obtain rfl : left = 0 := Nat.lt_one_iff.mp (Nat.not_le.mp hle)
        rw [split_zero]
        rfl
    · split
      · rw [totalOf_cons, ih h]
        exact Nat.div_add_mod' left u.millis
      · exact ih h

theorem pos_of_mem_split {part : Nat × TimeUnit} (h : part ∈ split left us) : 0 < part.1 := by
  induction us generalizing left with
  | nil => cases h
  | cons u us ih =>
    rw [split] at h
    split at h
    · rename_i hle
      rcases List.mem_cons.mp h with rfl | h
      · exact Nat.div_pos hle (TimeUnit.millis_pos u)
      · exact ih h
    · exact ih h

theorem units_split (left : Nat) (us : List TimeUnit) :
    ((split left us).map Prod.snd).Sublist us := by
  induction us generalizing left with
  | nil => exact .slnil
  | cons u us ih =>
    rw [split]
    split
    · exact (ih _).cons_cons u
    · exact (ih _).cons u

/-- A rest of less than one unit is split into less of each unit than makes a longer one. -/
theorem lt_limit_of_mem_split {part : Nat × TimeUnit}
    (hus : us.IsChain fun u v => ∀ b ∈ v.limit, u.millis ≤ b * v.millis)
    (hleft : ∀ u ∈ us.head?, ∀ b ∈ u.limit, left < b * u.millis) (h : part ∈ split left us) :
    ∀ b ∈ part.2.limit, part.1 < b := by
  induction us generalizing left with
  | nil => cases h
  | cons u us ih =>
    have hrest {rest : Nat} (hlt : rest < u.millis) :
        ∀ v ∈ us.head?, ∀ b ∈ v.limit, rest < b * v.millis := by
      intro v hv b hb
      exact Nat.lt_of_lt_of_le hlt ((List.isChain_cons.mp hus).1 v hv b hb)
    rw [split] at h
    split at h
    · rcases List.mem_cons.mp h with rfl | h
      · intro b hb
        exact Nat.div_lt_of_lt_mul (Nat.mul_comm b u.millis ▸ hleft u rfl b hb)
      · exact ih hus.tail (hrest (Nat.mod_lt left (TimeUnit.millis_pos u))) h
    · rename_i hle
      exact ih hus.tail (hrest (Nat.not_le.mp hle)) h

/-! ## The written form -/

theorem falling_segments (m : UInt64) : Falling ((segments m).map .ofPart) := by
  have hall : TimeUnit.all.Pairwise fun u v => v.millis < u.millis := by decide
  have hunits : ((segments m).map Prod.snd).Pairwise fun u v => v.millis < u.millis :=
    hall.sublist (units_split m.toNat TimeUnit.all)
  rw [List.pairwise_map] at hunits
  exact List.pairwise_map.mpr hunits

theorem total_segments (m : UInt64) :
    totalOf (fun part => part.1 * part.2.millis) (segments m) = m.toNat :=
  total_split (by decide)

theorem isBreakdown_parts (m : UInt64) : IsBreakdown m.toNat ((parts m).map .ofPart) := by
  have hlimits : TimeUnit.all.IsChain fun u v => ∀ b ∈ v.limit, u.millis ≤ b * v.millis := by
    simp [TimeUnit.all, TimeUnit.limit, TimeUnit.millis]
  by_cases hm : m = 0
  · subst hm
    refine ⟨List.pairwise_singleton _ _, ?_, ?_, rfl⟩
    · exact List.forall_mem_singleton.mpr rfl
    · refine List.forall_mem_singleton.mpr ?_
      simp [Segment.ofPart, TimeUnit.limit]
  · rw [parts, if_neg hm]
    refine ⟨falling_segments m, ?_, ?_, ?_⟩
    · intro seg hmem
      obtain ⟨part, -, rfl⟩ := List.mem_map.mp hmem
      rfl
    · intro seg hmem
      obtain ⟨part, hpart, rfl⟩ := List.mem_map.mp hmem
      exact lt_limit_of_mem_split hlimits (by simp [TimeUnit.all, TimeUnit.limit]) hpart
    · rw [totalOf_map]
      exact total_segments m

theorem digitsValue_toDigits (n : Nat) : digitsValue (Nat.toDigits 10 n) = n := by
  have hcomm : digitsValue (Nat.toDigits 10 n) = Nat.ofDigitChars 10 (Nat.toDigits 10 n) 0 := by
    simp only [digitsValue, Nat.ofDigitChars, Nat.mul_comm]
  rw [hcomm, Nat.ofDigitChars_toDigits (by decide) (by decide)]

theorem isSegment_renderPart (part : Nat × TimeUnit) :
    IsSegment (renderPart part) (.ofPart part) := by
  have hdigits : ∀ c ∈ Nat.toDigits 10 part.1, c.isDigit = true :=
    fun c hc => Nat.isDigit_of_mem_toDigits (by decide) (by decide) hc
  have hnumber : IsNumber (Nat.toDigits 10 part.1) :=
    (isNumber_digits hdigits).mpr Nat.toDigits_ne_nil
  have h := IsSegment.written part.2 hnumber (List.forall_mem_nil _)
  rw [ofText_digits hdigits, digitsValue_toDigits, List.append_nil] at h
  exact h

theorem isRow_flatMap {ps : List (Nat × TimeUnit)} (hne : ps ≠ []) :
    IsRow (ps.flatMap renderPart) (ps.map .ofPart) := by
  induction ps with
  | nil => exact absurd rfl hne
  | cons p ps ih =>
    cases ps with
    | nil =>
      rw [List.flatMap_singleton]
      exact .one (isSegment_renderPart p)
    | cons q ps =>
      have hrow : IsRow (renderPart p ++ ([] ++ (q :: ps).flatMap renderPart)) _ :=
        .more (isSegment_renderPart p) (List.forall_mem_nil _) (ih (List.cons_ne_nil q ps))
      exact hrow

theorem parts_ne_nil (m : UInt64) : parts m ≠ [] := by
  by_cases hm : m = 0
  · rw [parts, if_pos hm]
    exact List.cons_ne_nil _ _
  · rw [parts, if_neg hm]
    intro hnil
    have htotal := total_segments m
    rw [hnil] at htotal
    exact hm (UInt64.toNat_inj.mp htotal.symm)

theorem toList_render (m : UInt64) :
    (render (ofMillis m)).toList = (parts m).flatMap renderPart := by
  rw [render, millis_ofMillis, String.toList_ofList, renderMillis, parts]
  split <;> rfl

/-- The written form of a duration is a row of segments. -/
theorem isRow_render (m : UInt64) :
    IsRow (render (ofMillis m)).toList ((parts m).map .ofPart) := by
  rw [toList_render]
  exact isRow_flatMap (parts_ne_nil m)

theorem parse_render (m : UInt64) :
    parse (render (ofMillis m)) = .ok (ofMillis (total ((parts m).map .ofPart)).toUInt64) := by
  have hrow := isRow_render m
  refine parse_eq_ok_iff.mpr ⟨_, ⟨?_, (isBreakdown_parts m).falling⟩, rfl⟩
  rw [hrow.trim_eq]
  exact hrow

/-! ## Sums in double precision -/

theorem total_snoc (segs : List Segment) (seg : Segment) :
    total (segs ++ [seg]) =
      (total segs).add ((Binary64.ofDecimal seg.number.digits seg.number.places).scale
        seg.unit.millis) := by
  rw [total, List.foldl_append]
  rfl

theorem totalOf_length_le {front : List Segment} (h : front <+: segs) :
    totalOf Segment.length front ≤ totalOf Segment.length segs := by
  obtain ⟨back, rfl⟩ := h
  rw [totalOf_append]
  exact Nat.le_add_right _ _

theorem eq_day_of_limit (h : u.limit = none) : u = .day := by
  cases u with
  | day => rfl
  | hour | minute | second | millisecond => cases h

/-- There is at most a day of each unit but the day. -/
theorem mul_limit_le {b : Nat} (h : u.limit = some b) : b * u.millis ≤ 86400000 ∧ b ≤ 1000 := by
  cases u with
  | day => cases h
  | hour | minute | second | millisecond =>
    cases h
    decide

theorem millis_le_day (u : TimeUnit) : u.millis ≤ TimeUnit.day.millis := by
  cases u <;> decide

theorem IsBreakdown.digits_le (h : IsBreakdown m segs) (hm : m < UInt64.size) (hmem : seg ∈ segs) :
    seg.number.digits ≤ 9007199254740992 := by
  cases hlimit : seg.unit.limit with
  | none =>
    obtain ⟨front, back, rfl⟩ := List.append_of_mem hmem
    have htotal := h.total
    rw [totalOf_append, totalOf_cons, Segment.length, eq_day_of_limit hlimit,
      TimeUnit.millis] at htotal
    simp only [UInt64.size] at hm
    omega
  | some b =>
    have hlt : seg.number.digits < b := h.bounded seg hmem b hlimit
    have hb := (mul_limit_le hlimit).2
    omega

/-- Days come first, and of all other units there are too few to need many bits. -/
theorem IsBreakdown.fits_length (h : IsBreakdown m segs) {front : List Segment}
    (hfront : front ++ [seg] <+: segs)
    (hfits : Binary64.Fits (totalOf Segment.length (front ++ [seg]))) :
    Binary64.Fits seg.length := by
  cases hlimit : seg.unit.limit with
  | none =>
    -- Only the day has no limit, and nothing is longer than it: the sum is the segment itself.
    obtain rfl : front = [] := by
      refine List.eq_nil_iff_forall_not_mem.mpr fun before hbefore => ?_
      have hfalling : Falling (front ++ [seg]) := h.falling.sublist hfront.sublist
      have hlt := (List.pairwise_append.mp hfalling).2.2 before hbefore seg List.mem_cons_self
      rw [eq_day_of_limit hlimit] at hlt
      exact Nat.not_lt.mpr (millis_le_day before.unit) hlt
    exact hfits
  | some b =>
    have hmem : seg ∈ segs := hfront.subset (List.mem_append_right _ List.mem_cons_self)
    have hlt : seg.number.digits < b := h.bounded seg hmem b hlimit
    have hle : seg.length ≤ b * seg.unit.millis := Nat.mul_le_mul_right _ (Nat.le_of_lt hlt)
    have hb := (mul_limit_le hlimit).1
    exact Binary64.fits_of_le (by omega)

/-- Sums that need at most 53 bits are computed without rounding. -/
theorem summedExactly_of_fits (h : IsBreakdown m segs) (hm : m < UInt64.size)
    (hfits : ∀ front, front <+: segs → Binary64.Fits (totalOf Segment.length front)) :
    SummedExactly segs := by
  intro front
  -- The reader adds from the front, so the last segment is added to the sum of those before it.
  induction front using List.reverseRecOn with
  | nil =>
    intro _
    rw [total, totalOf_nil, Binary64.whole, Nat.zero_mul]
    rfl
  | append_singleton front seg ih =>
    intro hfront
    have hmem : seg ∈ segs := hfront.subset (List.mem_append_right _ List.mem_cons_self)
    have hdigits := h.digits_le hm hmem
    have hlength := h.fits_length hfront (hfits _ hfront)
    have hsum : totalOf Segment.length (front ++ [seg]) =
        totalOf Segment.length front + seg.length := by
      rw [totalOf_append, totalOf_cons, totalOf_nil, Nat.add_zero]
    have hlt : totalOf Segment.length front + seg.length < UInt64.size := by
      rw [← hsum]
      exact Nat.lt_of_le_of_lt (totalOf_length_le hfront) (h.total ▸ hm)
    have hnumber : Binary64.ofDecimal seg.number.digits 0 = .whole seg.number.digits :=
      Binary64.ofDecimal_whole (Binary64.fits_of_le hdigits) (by unfold UInt64.size; omega)
    have hproduct : (Binary64.whole seg.number.digits).scale seg.unit.millis = .whole seg.length :=
      Binary64.scale_whole hlength (Nat.lt_of_le_of_lt (Nat.le_add_left _ _) hlt)
    rw [total_snoc, ih ((List.prefix_append front [seg]).trans hfront), h.whole seg hmem, hnumber,
      hproduct, hsum]
    exact Binary64.add_whole (hsum ▸ hfits _ hfront) hlt

/-- All sums of up to 53 bits are computed without rounding. -/
theorem summedExactly_of_le (h : IsBreakdown m segs) (hm : m ≤ 9007199254740992) :
    SummedExactly segs := by
  refine summedExactly_of_fits h (by unfold UInt64.size; omega) fun front hfront => ?_
  have hle := totalOf_length_le hfront
  rw [h.total] at hle
  exact Binary64.fits_of_le (Nat.le_trans hle hm)

/-! ## Back to the duration -/

theorem parse_render_of_summedExactly (m : UInt64)
    (h : SummedExactly ((parts m).map .ofPart)) :
    parse (render (ofMillis m)) = .ok (ofMillis m) := by
  rw [parse_render, h _ List.prefix_rfl, (isBreakdown_parts m).total, Binary64.toUInt64_whole]

theorem render_injective (m n : UInt64) (h : render (ofMillis m) = render (ofMillis n)) :
    m = n := by
  -- The text determines its row of segments, and the row its sum.
  have hm := isBreakdown_parts m
  have hn := isBreakdown_parts n
  have hrow := isRow_render n
  rw [← h] at hrow
  have heq := (isRow_render m).eq_of_falling hm.falling hrow hn.falling
  have htotal := hm.total
  rw [heq, hn.total] at htotal
  exact UInt64.toNat_inj.mp htotal.symm

/-- The written form of every number of milliseconds is a row of segments that is a breakdown of
this number, with no segment of length zero unless the number is zero.  It is read as a duration,
and as the duration that was written whenever the sums of the first segments need no rounding; they
need none if each has at most 53 significant bits, as all of them have up to `2 ^ 53`.  No two
numbers are written alike. -/
theorem render_denotes :
    (∀ m : UInt64, ∃ segs, IsRow (render (ofMillis m)).toList segs ∧ IsBreakdown m.toNat segs ∧
      (0 < m → ∀ seg ∈ segs, 0 < seg.number.digits) ∧
      (∃ d, parse (render (ofMillis m)) = .ok d) ∧
      (SummedExactly segs → parse (render (ofMillis m)) = .ok (ofMillis m)) ∧
      ((∀ front, front <+: segs → Binary64.Fits (totalOf Segment.length front)) →
        SummedExactly segs) ∧
      (m.toNat ≤ 9007199254740992 → SummedExactly segs)) ∧
    ∀ m n : UInt64, render (ofMillis m) = render (ofMillis n) → m = n := by
  refine ⟨fun m => ?_, render_injective⟩
  have hbreakdown := isBreakdown_parts m
  refine ⟨_, isRow_render m, hbreakdown, fun hpos => ?_, ⟨_, parse_render m⟩,
    parse_render_of_summedExactly m, summedExactly_of_fits hbreakdown m.toNat_lt_size,
    summedExactly_of_le hbreakdown⟩
  intro seg hmem
  obtain ⟨part, hpart, rfl⟩ := List.mem_map.mp hmem
  have hne : m ≠ 0 := by
    rintro rfl
    exact absurd hpos (by decide)
  rw [parts, if_neg hne] at hpart
  exact pos_of_mem_split hpart

/-- A duration with all five units, one of so many days that it has more than 53 bits, and two
durations of sixty units. -/
theorem render_denotes_sample :
    (∃ segs, IsRow "1d2h3m4s5ms".toList segs ∧ ∀ seg ∈ segs, 0 < seg.number.digits) ∧
      parse "1d2h3m4s5ms" = .ok (ofMillis 93784005) ∧
      parse "68719476736d" = .ok (ofMillis 5937362789990400000) ∧
      render (ofMillis 60000) ≠ render (ofMillis 60) := by
  have hunits : render (ofMillis 93784005) = "1d2h3m4s5ms" := by decide
  have hdays : render (ofMillis 5937362789990400000) = "68719476736d" := by decide
  obtain ⟨segs, hrow, -, hpos, -, hback, -, hle⟩ := render_denotes.1 93784005
  obtain ⟨days, hday, hbreakdown, -, -, hreturn, hexact, -⟩ :=
    render_denotes.1 5937362789990400000
  have hparts : (parts 5937362789990400000).map Segment.ofPart =
      [(⟨⟨68719476736, 0⟩, .day⟩ : Segment)] := by decide
  have hknown : IsRow (render (ofMillis 5937362789990400000)).toList [⟨⟨68719476736, 0⟩, .day⟩] :=
    hparts ▸ isRow_render 5937362789990400000
  obtain rfl := hday.eq_of_falling hbreakdown.falling hknown (List.pairwise_singleton _ _)
  have hfits : ∀ front, front <+: [⟨⟨68719476736, 0⟩, .day⟩] →
      Binary64.Fits (totalOf Segment.length front) := by
    intro front hfront
    rcases List.prefix_cons_iff.mp hfront with rfl | ⟨rest, rfl, hrest⟩
    · exact Binary64.fits_of_le (by decide)
    · obtain rfl := List.prefix_nil.mp hrest
      exact ⟨84375, 46, by decide, by decide⟩
  rw [hunits] at hrow hback
  rw [hdays] at hreturn
  refine ⟨⟨segs, hrow, hpos (by decide)⟩, hback (hle (by decide)), hreturn (hexact hfits), ?_⟩
  intro h
  exact absurd (render_denotes.2 _ _ h) (by decide)

end Duration
end SeriesExec
