import SeriesExec.Duration.Text
import SeriesExec.Proofs.Blanks

/-!
# Segments — which texts stand for a duration

A duration is read in passes: each takes the longest row of number characters, then the longest row
of letters, and drops the white space behind them.  This file defines:

* `Duration.IsNumber`, `Duration.IsSegment`, `Duration.IsRow` — the grammar of a written duration,
  without a word about how it is read;
* `Duration.Falling` — segments whose units get shorter;
* `Duration.Passes` and `Duration.Ends` — the passes of the reader, and the ways in which it ends.

Main statements: the reader makes at most five passes and then ends with what it found
(`Passes.length_le`, `exists_end`), the segments that it finds are the ones that the grammar gives
(`readSegments_eq_ok_iff`), and so the texts that stand for a duration are those that the grammar
allows (`parse_ok_iff_written`).
-/

namespace SeriesExec
namespace Duration

open Text

variable {c : Char} {cs front back gap rest left : List Char} {text : String} {d : Decimal}
  {seg : Segment} {segs : List Segment}

/-! ## The grammar -/

/-- The text is a decimal number: digits with at most one dot, and at least one digit. -/
structure IsNumber (cs : List Char) : Prop where
  plain : ∀ c ∈ cs, c.isDigit = true ∨ c = '.'
  dots : cs.count '.' ≤ 1
  digit : ∃ c ∈ cs, c.isDigit = true

instance (cs : List Char) : Decidable (IsNumber cs) :=
  have := List.decidableBAll (fun c => c.isDigit = true ∨ c = '.') cs
  have := List.decidableBEx (fun c => c.isDigit = true) cs
  decidable_of_iff ((∀ c ∈ cs, c.isDigit = true ∨ c = '.') ∧ cs.count '.' ≤ 1 ∧
      ∃ c ∈ cs, c.isDigit = true)
    ⟨fun ⟨hplain, hdots, hdigit⟩ => ⟨hplain, hdots, hdigit⟩,
      fun ⟨hplain, hdots, hdigit⟩ => ⟨hplain, hdots, hdigit⟩⟩

/-- The number that a text stands for; what follows its dot are decimal places. -/
def Decimal.ofText (cs : List Char) : Decimal :=
  ⟨digitsValue (cs.filter Char.isDigit), (cs.dropWhile (· != '.')).tail.length⟩

/-- `IsSegment cs seg`: the text is a number, spaces, and the symbol of a unit. -/
inductive IsSegment : List Char → Segment → Prop where
  | written {number spaces : List Char} (unit : TimeUnit) (hnumber : IsNumber number)
      (hspaces : ∀ c ∈ spaces, c = ' ') :
      IsSegment (number ++ spaces ++ unit.symbol) ⟨Decimal.ofText number, unit⟩

/-- `IsRow cs segs`: the text is a row of segments, with any white space between two of them. -/
inductive IsRow : List Char → List Segment → Prop where
  | one {cs : List Char} {seg : Segment} (h : IsSegment cs seg) : IsRow cs [seg]
  | more {front gap back : List Char} {seg : Segment} {segs : List Segment}
      (hfront : IsSegment front seg) (hgap : ∀ c ∈ gap, isBlank c = true)
      (hback : IsRow back segs) : IsRow (front ++ (gap ++ back)) (seg :: segs)

/-- Each unit is shorter than the ones before it. -/
def Falling (segs : List Segment) : Prop :=
  segs.Pairwise fun a b => b.unit.millis < a.unit.millis

instance (segs : List Segment) : Decidable (Falling segs) :=
  inferInstanceAs (Decidable (List.Pairwise _ segs))

/-- The text is a row of segments whose units get shorter. -/
def IsWritten (cs : List Char) : Prop :=
  ∃ segs, IsRow cs segs ∧ Falling segs

/-! ## Numbers -/

theorem dot_notMem (h : ∀ c ∈ cs, c.isDigit = true) : '.' ∉ cs := by
  intro hmem
  exact absurd (h '.' hmem) (by decide)

theorem isNumber_digits (h : ∀ c ∈ cs, c.isDigit = true) : IsNumber cs ↔ cs ≠ [] := by
  constructor
  · rintro hnumber rfl
    obtain ⟨c, hc, -⟩ := hnumber.digit
    cases hc
  · intro hne
    have hcount : cs.count '.' = 0 := List.count_eq_zero.mpr (dot_notMem h)
    obtain ⟨c, hc⟩ := List.exists_mem_of_ne_nil cs hne
    exact ⟨fun c hc => .inl (h c hc), by omega, c, hc, h c hc⟩

theorem count_dot (hfront : ∀ c ∈ front, c.isDigit = true) (back : List Char) :
    (front ++ '.' :: back).count '.' = back.count '.' + 1 := by
  rw [List.count_append, List.count_eq_zero.mpr (dot_notMem hfront), List.count_cons_self,
    Nat.zero_add]

/-- The first character of a number that is no digit is a dot, and only digits follow it. -/
theorem isNumber_cut (hfront : ∀ c ∈ front, c.isDigit = true) (hc : c.isDigit = false) :
    IsNumber (front ++ c :: back) ↔
      c = '.' ∧ (∀ c ∈ back, c.isDigit = true) ∧ (front ≠ [] ∨ back ≠ []) := by
  constructor
  · rintro ⟨hplain, hdots, hdigit⟩
    obtain rfl : c = '.' := (hplain c (by simp)).resolve_left (by simp [hc])
    rw [count_dot hfront] at hdots
    have hback : '.' ∉ back := List.count_eq_zero.mp (by omega)
    refine ⟨rfl, fun d hd => ?_, ?_⟩
    · exact (hplain d (by simp [hd])).resolve_right fun heq => hback (heq ▸ hd)
    · obtain ⟨d, hd, hdigit⟩ := hdigit
      rcases List.mem_append.mp hd with hd | hd
      · exact .inl (List.ne_nil_of_mem hd)
      · rcases List.mem_cons.mp hd with rfl | hd
        · exact absurd hdigit (by decide)
        · exact .inr (List.ne_nil_of_mem hd)
  · rintro ⟨rfl, hback, hne⟩
    refine ⟨fun d hd => ?_, ?_, ?_⟩
    · rcases List.mem_append.mp hd with hd | hd
      · exact .inl (hfront d hd)
      · rcases List.mem_cons.mp hd with rfl | hd
        · exact .inr rfl
        · exact .inl (hback d hd)
    · rw [count_dot hfront, List.count_eq_zero.mpr (dot_notMem hback)]
    · rcases hne with hne | hne
      · obtain ⟨d, hd⟩ := List.exists_mem_of_ne_nil front hne
        exact ⟨d, by simp [hd], hfront d hd⟩
      · obtain ⟨d, hd⟩ := List.exists_mem_of_ne_nil back hne
        exact ⟨d, by simp [hd], hback d hd⟩

theorem ofText_digits (h : ∀ c ∈ cs, c.isDigit = true) :
    Decimal.ofText cs = ⟨digitsValue cs, 0⟩ := by
  rw [Decimal.ofText, List.filter_eq_self.mpr h,
    List.dropWhile_eq_nil_iff.mpr (bne_of_notMem (dot_notMem h))]
  rfl

theorem ofText_cut (hfront : ∀ c ∈ front, c.isDigit = true) (hback : ∀ c ∈ back, c.isDigit = true) :
    Decimal.ofText (front ++ '.' :: back) = ⟨digitsValue (front ++ back), back.length⟩ := by
  rw [Decimal.ofText, List.filter_append, List.filter_cons_of_neg (by decide),
    List.filter_eq_self.mpr hfront, List.filter_eq_self.mpr hback,
    List.dropWhile_append_of_pos (bne_of_notMem (dot_notMem hfront))]
  rfl

/-- A text is read as a number if it is one, and as the number that it stands for. -/
theorem ofChars?_eq_some_iff :
    Decimal.ofChars? cs = some d ↔ IsNumber cs ∧ d = Decimal.ofText cs := by
  obtain ⟨front, back, rfl, hcut⟩ := exists_isCut Char.isDigit cs
  rw [Decimal.ofChars?, hcut.takeWhile_append, hcut.dropWhile_append]
  cases back with
  | nil =>
    rw [List.append_nil, isNumber_digits hcut.front, ofText_digits hcut.front]
    simp only [List.isEmpty_iff, Option.ite_none_left_eq_some, Option.some.injEq]
    exact and_congr_right fun _ => eq_comm
  | cons c back =>
    have hfirst : (c == '.' && back.all Char.isDigit && !(front.isEmpty && back.isEmpty)) = true ↔
        c = '.' ∧ (∀ c ∈ back, c.isDigit = true) ∧ (front ≠ [] ∨ back ≠ []) := by
      rw [Bool.and_eq_true, Bool.and_eq_true, and_assoc]
      simp
    simp only [hfirst, isNumber_cut hcut.front (hcut.back c rfl), Option.ite_none_right_eq_some]
    refine and_congr_right fun hnumber => ?_
    obtain ⟨rfl, hback, -⟩ := hnumber
    rw [ofText_cut hcut.front hback, Option.some.injEq, eq_comm]

/-! ## Segments -/

theorem isNumberChar_iff : isNumberChar c = true ↔ (c.isDigit = true ∨ c = '.') ∨ c = ' ' := by
  simp [isNumberChar]

theorem isBlank_of_plain (h : c.isDigit = true ∨ c = '.') : isBlank c = false := by
  rcases h with hdigit | rfl
  · exact isBlank_of_isDigit hdigit
  · decide

/-- The only white space among the number characters is the space. -/
theorem eq_space (hnumber : isNumberChar c = true) (hblank : isBlank c = true) : c = ' ' := by
  rcases isNumberChar_iff.mp hnumber with (hdigit | rfl) | rfl
  · exact absurd hblank (by simp [isBlank_of_isDigit hdigit])
  · exact absurd hblank (by decide)
  · rfl

theorem isAlpha_of_mem_symbol {u : TimeUnit} (h : c ∈ u.symbol) : c.isAlpha = true := by
  cases u <;> simp only [TimeUnit.symbol, List.mem_cons, List.not_mem_nil, or_false] at h
  all_goals rcases h with rfl | rfl
  all_goals decide

/-- No letter is a number character. -/
theorem isNumberChar_of_isAlpha (h : c.isAlpha = true) : isNumberChar c = false := by
  rw [Bool.eq_false_iff]
  intro hnumber
  rcases isNumberChar_iff.mp hnumber with (hdigit | rfl) | rfl
  · have hdigits := bounds_of_isDigit hdigit
    have hletters := bounds_of_isAlpha h
    omega
  · exact absurd h (by decide)
  · exact absurd h (by decide)

theorem ofSymbol?_symbol (u : TimeUnit) : TimeUnit.ofSymbol? u.symbol = some u := by
  cases u <;> decide

/-- A segment is read from a text that is cut after its number and spaces, and after its unit. -/
theorem readSegment_eq_ok_iff :
    readSegment text rest = .ok (seg, left) ↔
      ∃ run letters back, rest = run ++ (letters ++ back) ∧
        IsCut isNumberChar run (letters ++ back) ∧ IsCut Char.isAlpha letters back ∧
        Decimal.ofChars? (trim run) = some seg.number ∧
        TimeUnit.ofSymbol? letters = some seg.unit ∧ left = trimStart back := by
  constructor
  · intro h
    obtain ⟨run, after, rfl, hrun⟩ := exists_isCut isNumberChar rest
    obtain ⟨letters, back, rfl, hletters⟩ := exists_isCut Char.isAlpha after
    refine ⟨run, letters, back, rfl, hrun, hletters, ?_⟩
    rw [readSegment, hrun.dropWhile_append, hrun.takeWhile_append] at h
    split at h
    · cases h
    · rename_i hafter
      rw [← hafter, hletters.takeWhile_append, hletters.dropWhile_append] at h
      split at h
      · cases h
      · rename_i number hnumber
        split at h
        · cases h
        · rename_i unit hunit
          obtain ⟨rfl, rfl⟩ := Prod.mk.inj (Except.ok.inj h)
          exact ⟨hnumber, hunit, rfl⟩
  · rintro ⟨run, letters, back, rfl, hrun, hletters, hnumber, hunit, rfl⟩
    -- The reader refuses a number with nothing behind it, but a unit has at least one letter.
    have hne : letters ++ back ≠ [] := by
      intro hnil
      have hsymbol := TimeUnit.symbol_of_ofSymbol? hunit
      rw [(List.append_eq_nil_iff.mp hnil).1] at hsymbol
      exact seg.unit.symbol_ne_nil hsymbol
    rw [readSegment, hrun.dropWhile_append, hrun.takeWhile_append]
    split
    · rename_i hnil
      exact absurd hnil hne
    · rename_i hafter
      rw [← hafter, hletters.takeWhile_append, hletters.dropWhile_append, hnumber, hunit]

theorem IsNumber.ne_nil (h : IsNumber cs) : cs ≠ [] := by
  obtain ⟨c, hc, -⟩ := h.digit
  exact List.ne_nil_of_mem hc

theorem IsNumber.trim_append {spaces : List Char} (h : IsNumber cs)
    (hspaces : ∀ c ∈ spaces, c = ' ') : trim (cs ++ spaces) = cs := by
  have hplain : ∀ c ∈ cs, isBlank c = false := fun c hc => isBlank_of_plain (h.plain c hc)
  have hblanks : ∀ c ∈ spaces, isBlank c = true := by
    intro c hc
    rw [hspaces c hc]
    decide
  exact Text.trim_append (startsBlank_eq_false fun c hc => hplain c (List.mem_of_mem_head? hc))
    (endsBlank_of_forall hplain) hblanks

theorem isCut_number {number spaces : List Char} (hnumber : IsNumber number)
    (hspaces : ∀ c ∈ spaces, c = ' ') (unit : TimeUnit) (back : List Char) :
    IsCut isNumberChar (number ++ spaces) (unit.symbol ++ back) where
  front := by
    intro c hc
    rcases List.mem_append.mp hc with hc | hc
    · exact isNumberChar_iff.mpr (.inl (hnumber.plain c hc))
    · exact isNumberChar_iff.mpr (.inr (hspaces c hc))
  back := by
    intro c hc
    obtain ⟨first, letters, hsymbol⟩ := List.exists_cons_of_ne_nil unit.symbol_ne_nil
    rw [hsymbol] at hc
    obtain rfl : first = c := Option.some.inj hc
    have hmem : first ∈ unit.symbol := by simp [hsymbol]
    exact isNumberChar_of_isAlpha (isAlpha_of_mem_symbol hmem)

/-- A segment in front of anything but a letter is read as what it is. -/
theorem readSegment_append (h : IsSegment front seg) (hback : ∀ c ∈ back.head?, c.isAlpha = false) :
    readSegment text (front ++ back) = .ok (seg, trimStart back) := by
  cases h with
  | @written number spaces unit hnumber hspaces =>
    refine readSegment_eq_ok_iff.mpr ⟨number ++ spaces, unit.symbol, back, by simp,
      isCut_number hnumber hspaces unit back, ⟨fun c hc => isAlpha_of_mem_symbol hc, hback⟩, ?_,
      ofSymbol?_symbol unit, rfl⟩
    rw [hnumber.trim_append hspaces]
    exact ofChars?_eq_some_iff.mpr ⟨hnumber, rfl⟩

/-- What is read as a segment is one, and it is followed by what is left and white space. -/
theorem isSegment_of_read (h : readSegment text rest = .ok (seg, left))
    (hstart : startsBlank rest = false) :
    ∃ front back, rest = front ++ back ∧ IsSegment front seg ∧ left = trimStart back := by
  obtain ⟨run, letters, back, rfl, hrun, -, hnumber, hunit, rfl⟩ := readSegment_eq_ok_iff.mp h
  obtain ⟨spaces, hspaces, hblank⟩ :=
    exists_eq_trim_append (startsBlank_of_isPrefix (List.prefix_append run _) hstart)
  obtain ⟨hdecimal, hvalue⟩ := ofChars?_eq_some_iff.mp hnumber
  -- Any white space would be trimmed off the run, but the run holds number characters only.
  have hspace : ∀ c ∈ spaces, c = ' ' := by
    intro c hc
    have hmem : c ∈ run := by
      rw [hspaces]
      exact List.mem_append_right _ hc
    exact eq_space (hrun.front c hmem) (hblank c hc)
  refine ⟨run ++ letters, back, (List.append_assoc ..).symm, ?_, rfl⟩
  have hsegment := IsSegment.written seg.unit hdecimal hspace
  rw [← hspaces, ← hvalue, TimeUnit.symbol_of_ofSymbol? hunit] at hsegment
  exact hsegment

/-! ## Rows of segments -/

theorem IsSegment.exists_cons (h : IsSegment cs seg) :
    ∃ c rest, cs = c :: rest ∧ (c.isDigit = true ∨ c = '.') := by
  cases h with
  | @written number spaces unit hnumber hspaces =>
    obtain ⟨c, rest, rfl⟩ := List.exists_cons_of_ne_nil hnumber.ne_nil
    exact ⟨c, rest ++ spaces ++ unit.symbol, rfl, hnumber.plain c List.mem_cons_self⟩

/-- A row of segments begins with a digit or a dot. -/
theorem IsRow.exists_cons (h : IsRow cs segs) :
    ∃ c rest, cs = c :: rest ∧ (c.isDigit = true ∨ c = '.') := by
  cases h with
  | one h => exact h.exists_cons
  | @more front gap back _ _ hfront _ _ =>
    obtain ⟨c, rest, rfl, hc⟩ := hfront.exists_cons
    exact ⟨c, rest ++ (gap ++ back), rfl, hc⟩

theorem IsRow.ne_nil (h : IsRow cs segs) : cs ≠ [] := by
  obtain ⟨c, rest, rfl, -⟩ := h.exists_cons
  exact List.cons_ne_nil c rest

theorem IsRow.startsBlank (h : IsRow cs segs) : startsBlank cs = false := by
  obtain ⟨c, rest, rfl, hc⟩ := h.exists_cons
  exact isBlank_of_plain hc

theorem IsSegment.endsBlank (h : IsSegment cs seg) : endsBlank cs = false := by
  cases h with
  | @written number spaces unit _ _ =>
    cases unit <;> exact endsBlank_append_cons (by decide) (by decide) _

theorem IsRow.endsBlank (h : IsRow cs segs) : endsBlank cs = false := by
  induction h with
  | one h => exact h.endsBlank
  | @more front gap back _ _ _ _ hback ih =>
    have hne : gap ++ back ≠ [] := List.append_ne_nil_of_right_ne_nil gap hback.ne_nil
    rw [endsBlank_append front hne, endsBlank_append gap hback.ne_nil]
    exact ih

/-- A row of segments has no white space around it. -/
theorem IsRow.trim_eq (h : IsRow cs segs) : trim cs = cs :=
  trim_eq_self h.startsBlank h.endsBlank

/-- White space in front of a row of segments is dropped up to the row. -/
theorem IsRow.trimStart_append (h : IsRow back segs) (hgap : ∀ c ∈ gap, isBlank c = true) :
    trimStart (gap ++ back) = back := by
  obtain ⟨first, rest, rfl, hfirst⟩ := h.exists_cons
  have hcut : IsCut isBlank gap (first :: rest) :=
    ⟨hgap, fun c hc => Option.some.inj hc ▸ isBlank_of_plain hfirst⟩
  exact hcut.dropWhile_append

/-- Neither white space nor a row of segments begins with a letter, which would belong to the unit
in front of it. -/
theorem IsRow.isAlpha_head (h : IsRow back segs) (hgap : ∀ c ∈ gap, isBlank c = true) :
    ∀ c ∈ (gap ++ back).head?, c.isAlpha = false := by
  intro c hc
  rw [Bool.eq_false_iff]
  intro hletter
  cases gap with
  | nil =>
    obtain ⟨first, rest, rfl, hfirst⟩ := h.exists_cons
    obtain rfl : first = c := Option.some.inj hc
    have hnumber := isNumberChar_iff.mpr (.inl hfirst)
    exact absurd hnumber (by simp [isNumberChar_of_isAlpha hletter])
  | cons blank gap =>
    obtain rfl : blank = c := Option.some.inj hc
    exact absurd (hgap blank List.mem_cons_self) (by simp [isBlank_of_isAlpha hletter])

theorem rank_lt_rank_iff {u v : TimeUnit} : u.rank < v.rank ↔ v.millis < u.millis := by
  cases u <;> cases v <;> decide

/-! ## Passes of the reader -/

/-- Where the reader stands in a text. -/
structure Place where
  /-- The least rank that the next unit may have. -/
  least : Nat
  /-- What is left of the text. -/
  rest : List Char

/-- `Passes text p segs q`: the reader gets from `p` to `q` in passes that yield these segments. -/
inductive Passes (text : String) : Place → List Segment → Place → Prop where
  | refl (p : Place) : Passes text p [] p
  | pass {least : Nat} {rest left : List Char} {seg : Segment} {segs : List Segment} {q : Place}
      (hrest : rest ≠ []) (hread : readSegment text rest = .ok (seg, left))
      (hrank : least ≤ seg.unit.rank) (hleft : Passes text ⟨seg.unit.rank + 1, left⟩ segs q) :
      Passes text ⟨least, rest⟩ (seg :: segs) q

/-- `Ends text p result`: the reader makes no further pass from `p`, and this is its answer. -/
inductive Ends (text : String) : Place → Except ReadError Unit → Prop where
  | read (least : Nat) : Ends text ⟨least, []⟩ (.ok ())
  | refused {least : Nat} {rest : List Char} {e : ReadError} (hrest : rest ≠ [])
      (h : readSegment text rest = .error e) : Ends text ⟨least, rest⟩ (.error e)
  | unordered {least : Nat} {rest left : List Char} {seg : Segment} (hrest : rest ≠ [])
      (h : readSegment text rest = .ok (seg, left)) (hrank : seg.unit.rank < least) :
      Ends text ⟨least, rest⟩ (.error (.unordered text))

variable {p q : Place} {least : Nat}

/-- Each pass uses up a unit, so there are at most five. -/
theorem Passes.length_le (h : Passes text p segs q) (hp : p.least ≤ 5) :
    p.least + segs.length ≤ 5 := by
  -- The least rank grows with each pass, by at least one, and no unit has a rank above four.
  induction h with
  | refl p => simpa using hp
  | @pass least rest left seg segs q _ _ hrank _ ih =>
    have hlast : seg.unit.rank < 5 := by cases seg.unit <;> decide
    have hlater : seg.unit.rank + 1 + segs.length ≤ 5 := ih hlast
    have hpass : least + (segs.length + 1) ≤ 5 := by omega
    exact hpass

theorem readSegments_nil : readSegments text least [] = .ok [] := by
  rw [readSegments, if_pos List.isEmpty_nil]

theorem readSegments_of_ne_nil (hrest : rest ≠ []) :
    readSegments text least rest =
      match readSegment text rest with
      | .error e => .error e
      | .ok (seg, left) =>
        if seg.unit.rank < least then .error (.unordered text)
        else (readSegments text (seg.unit.rank + 1) left).map (seg :: ·) := by
  rw [readSegments, if_neg (by simpa using hrest)]
  split
  · rename_i e hread
    rw [hread]
  · rename_i seg left hread
    rw [hread]

/-- The reader makes passes until it ends, and answers with the segments of its passes. -/
theorem exists_end (text : String) (least : Nat) (rest : List Char) :
    ∃ segs q result, Passes text ⟨least, rest⟩ segs q ∧ Ends text q result ∧
      readSegments text least rest = result.map fun _ => segs := by
  induction least, rest using readSegments.induct text with
  | case1 least rest hempty =>
    obtain rfl := List.isEmpty_iff.mp hempty
    exact ⟨[], _, _, .refl _, .read least, readSegments_nil⟩
  | case2 least rest hrest e hread =>
    have hne : rest ≠ [] := by simpa using hrest
    refine ⟨[], _, _, .refl _, .refused hne hread, ?_⟩
    rw [readSegments_of_ne_nil hne, hread]
    rfl
  | case3 least rest hrest seg left hread hrank =>
    have hne : rest ≠ [] := by simpa using hrest
    refine ⟨[], _, _, .refl _, .unordered hne hread hrank, ?_⟩
    rw [readSegments_of_ne_nil hne, hread]
    simp only [if_pos hrank, Except.map]
  | case4 least rest hrest seg left hread hrank ih =>
    have hne : rest ≠ [] := by simpa using hrest
    obtain ⟨segs, q, result, hpasses, hend, hresult⟩ := ih
    refine ⟨seg :: segs, q, result, .pass hne hread (Nat.le_of_not_lt hrank) hpasses, hend, ?_⟩
    rw [readSegments_of_ne_nil hne, hread]
    simp only [if_neg hrank, hresult]
    cases result <;> rfl

/-- What the reader answers is what it answers where its passes have taken it, behind the segments
of the passes. -/
theorem Passes.readSegments_eq (h : Passes text p segs q) :
    readSegments text p.least p.rest = (readSegments text q.least q.rest).map (segs ++ ·) := by
  induction h with
  | refl p =>
    simp only [List.nil_append]
    cases readSegments text p.least p.rest <;> rfl
  | @pass least rest left seg segs q hrest hread hrank _ ih =>
    rw [readSegments_of_ne_nil hrest, hread]
    simp only [if_neg (Nat.not_lt.mpr hrank), ih]
    cases readSegments text q.least q.rest <;> rfl

/-- The reader finds the segments of the passes that use up the text. -/
theorem readSegments_eq_ok_iff_passes :
    readSegments text least rest = .ok segs ↔ ∃ n, Passes text ⟨least, rest⟩ segs ⟨n, []⟩ := by
  constructor
  · intro h
    obtain ⟨found, q, result, hpasses, hend, hresult⟩ := exists_end text least rest
    rw [h] at hresult
    cases hend with
    | read n =>
      obtain rfl : segs = found := Except.ok.inj hresult
      exact ⟨n, hpasses⟩
    | refused _ _ => cases hresult
    | unordered _ _ _ => cases hresult
  · rintro ⟨n, h⟩
    rw [h.readSegments_eq, readSegments_nil, Except.map, List.append_nil]

/-! ## What is read -/

/-- The passes over a row of segments whose units get shorter. -/
theorem IsRow.passes (h : IsRow rest segs) (hfalling : Falling segs)
    (hleast : ∀ seg ∈ segs, least ≤ seg.unit.rank) :
    ∃ n, Passes text ⟨least, rest⟩ segs ⟨n, []⟩ := by
  have hrest := h.ne_nil
  induction h generalizing least with
  | @one cs seg h =>
    have hread : readSegment text (cs ++ []) = .ok (seg, trimStart []) :=
      readSegment_append h (by simp)
    rw [List.append_nil] at hread
    exact ⟨_, .pass hrest hread (hleast seg List.mem_cons_self) (.refl _)⟩
  | @more front gap back seg segs hfront hgap hback ih =>
    have hread : readSegment text (front ++ (gap ++ back)) = .ok (seg, trimStart (gap ++ back)) :=
      readSegment_append hfront (hback.isAlpha_head hgap)
    rw [hback.trimStart_append hgap] at hread
    obtain ⟨hunits, hfalling⟩ := List.pairwise_cons.mp hfalling
    obtain ⟨n, hpasses⟩ :=
      ih hfalling (fun later hmem => rank_lt_rank_iff.mpr (hunits later hmem)) hback.ne_nil
    exact ⟨n, .pass hrest hread (hleast seg List.mem_cons_self) hpasses⟩

theorem Passes.falling (h : Passes text p segs q) :
    Falling segs ∧ ∀ seg ∈ segs, p.least ≤ seg.unit.rank := by
  induction h with
  | refl p => exact ⟨.nil, fun seg hmem => absurd hmem List.not_mem_nil⟩
  | @pass least rest left seg segs q _ _ hrank _ ih =>
    obtain ⟨hfalling, hleast⟩ := ih
    refine ⟨.cons (fun later hmem => rank_lt_rank_iff.mp (hleast later hmem)) hfalling, ?_⟩
    intro other hmem
    rcases List.mem_cons.mp hmem with rfl | hmem
    · exact hrank
    · have hlater : seg.unit.rank + 1 ≤ other.unit.rank := hleast other hmem
      exact Nat.le_trans hrank (Nat.le_of_succ_le hlater)

/-- Passes that use up a text without white space around it go over a row of segments. -/
theorem Passes.isRow (h : Passes text p segs q) (hq : q.rest = [])
    (hstart : startsBlank p.rest = false) (hend : endsBlank p.rest = false) :
    p.rest = [] ∧ segs = [] ∨ IsRow p.rest segs := by
  induction h with
  | refl p => exact .inl ⟨hq, rfl⟩
  | @pass least rest left seg segs q _ hread _ _ ih =>
    obtain ⟨front, back, rfl, hfront, rfl⟩ := isSegment_of_read hread hstart
    have hback : endsBlank back = false :=
      endsBlank_of_isSuffix (List.suffix_append front back) hend
    have hleft := ih hq (startsBlank_dropWhile back)
      (endsBlank_of_isSuffix (List.dropWhile_suffix isBlank) hback)
    right
    rcases hleft with ⟨hnil, rfl⟩ | hrow
    · -- Nothing but white space follows, and the text does not end with white space.
      rw [eq_nil_of_trimStart hnil hback, List.append_nil]
      exact .one hfront
    · obtain ⟨gap, left, rfl, hcut⟩ := exists_isCut isBlank back
      have hleft : trimStart (gap ++ left) = left := hcut.dropWhile_append
      exact .more hfront hcut.front (hleft ▸ hrow)

/-- The segments of a text without white space around it are those of the row that it is. -/
theorem readSegments_eq_ok_iff (hstart : startsBlank cs = false) (hend : endsBlank cs = false)
    (hne : cs ≠ []) : readSegments text 0 cs = .ok segs ↔ IsRow cs segs ∧ Falling segs := by
  rw [readSegments_eq_ok_iff_passes]
  constructor
  · rintro ⟨n, h⟩
    rcases h.isRow rfl hstart hend with ⟨hnil, -⟩ | hrow
    · exact absurd hnil hne
    · exact ⟨hrow, h.falling.1⟩
  · rintro ⟨hrow, hfalling⟩
    exact hrow.passes hfalling fun seg _ => Nat.zero_le _

/-- A text is a row of segments with falling units in one way only. -/
theorem IsRow.eq_of_falling {segs' : List Segment} (h : IsRow cs segs) (hfalling : Falling segs)
    (h' : IsRow cs segs') (hfalling' : Falling segs') : segs = segs' := by
  -- The reader answers with every such row, and it has one answer.
  have hread {segs : List Segment} :
      readSegments "" 0 cs = .ok segs ↔ IsRow cs segs ∧ Falling segs :=
    readSegments_eq_ok_iff h.startsBlank h.endsBlank h.ne_nil
  have heq := (hread.mpr ⟨h, hfalling⟩).symm.trans (hread.mpr ⟨h', hfalling'⟩)
  exact Except.ok.inj heq

theorem parse_eq (s : String) :
    parse s = if trim s.toList = [] then .error .empty
      else (readSegments (String.ofList (trim s.toList)) 0 (trim s.toList)).map fun segs =>
        ofMillis (total segs).toUInt64 := by
  simp only [parse, List.isEmpty_iff]

/-- A text is read as a duration if, without the white space around it, it is a row of segments
whose units get shorter; the duration is their sum in double precision. -/
theorem parse_eq_ok_iff {s : String} {d : Duration} :
    parse s = .ok d ↔ ∃ segs, (IsRow (trim s.toList) segs ∧ Falling segs) ∧
      d = ofMillis (total segs).toUInt64 := by
  rw [parse_eq]
  split
  · rename_i hempty
    constructor
    · intro h
      cases h
    · rintro ⟨segs, ⟨hrow, -⟩, -⟩
      exact absurd hempty hrow.ne_nil
  · rename_i hne
    have hread (segs : List Segment) :
        readSegments (String.ofList (trim s.toList)) 0 (trim s.toList) = .ok segs ↔
          IsRow (trim s.toList) segs ∧ Falling segs :=
      readSegments_eq_ok_iff (startsBlank_trim _) (endsBlank_trim _) hne
    constructor
    · intro h
      cases hsegs : readSegments (String.ofList (trim s.toList)) 0 (trim s.toList) with
      | error e =>
        rw [hsegs] at h
        cases h
      | ok segs =>
        rw [hsegs] at h
        exact ⟨segs, (hread segs).mp hsegs, (Except.ok.inj h).symm⟩
    · rintro ⟨segs, hrow, rfl⟩
      rw [(hread segs).mpr hrow]
      rfl

/-- The texts that are read as a duration are those that, without the white space around them, are
rows of segments whose units get shorter; every other text is refused.  A segment is a number of
digits, with at most one dot and at least one digit, and spaces and the symbol of a unit behind it.
The reader makes at most five passes over a text, and it ends there with its answer. -/
theorem parse_ok_iff_written (s : String) :
    ((∃ d, parse s = .ok d) ↔ IsWritten (trim s.toList)) ∧
    (¬ IsWritten (trim s.toList) → ∃ e, parse s = .error e) ∧
    (∀ segs q, Passes (String.ofList (trim s.toList)) ⟨0, trim s.toList⟩ segs q →
      segs.length ≤ 5) ∧
    ∃ segs q result, Passes (String.ofList (trim s.toList)) ⟨0, trim s.toList⟩ segs q ∧
      Ends (String.ofList (trim s.toList)) q result ∧
      parse s = if trim s.toList = [] then .error .empty
        else result.map fun _ => ofMillis (total segs).toUInt64 := by
  have hiff : (∃ d, parse s = .ok d) ↔ IsWritten (trim s.toList) := by
    constructor
    · rintro ⟨d, h⟩
      obtain ⟨segs, hrow, -⟩ := parse_eq_ok_iff.mp h
      exact ⟨segs, hrow⟩
    · rintro ⟨segs, hrow⟩
      exact ⟨_, parse_eq_ok_iff.mpr ⟨segs, hrow, rfl⟩⟩
  refine ⟨hiff, fun hnot => ?_, fun segs q h => ?_, ?_⟩
  · cases hparse : parse s with
    | error e => exact ⟨e, rfl⟩
    | ok d => exact absurd (hiff.mp ⟨d, hparse⟩) hnot
  · have hlength : 0 + segs.length ≤ 5 := h.length_le (Nat.zero_le 5)
    omega
  · obtain ⟨segs, q, result, hpasses, hend, hresult⟩ :=
      exists_end (String.ofList (trim s.toList)) 0 (trim s.toList)
    refine ⟨segs, q, result, hpasses, hend, ?_⟩
    rw [parse_eq, hresult]
    cases result <;> rfl

/-- A text with white space between two segments, and one whose units get longer. -/
theorem parse_ok_iff_written_sample :
    (∃ d, parse " 0.5h 2 m" = .ok d) ∧ ¬ IsWritten (trim "1s1m".toList) ∧
      ∃ e, parse "1s1m" = .error e := by
  have hhours : IsSegment "0.5h".toList ⟨⟨5, 1⟩, .hour⟩ :=
    .written .hour (by decide : IsNumber "0.5".toList) (List.forall_mem_nil _)
  have hminutes : IsSegment "2 m".toList ⟨⟨2, 0⟩, .minute⟩ :=
    .written .minute (by decide : IsNumber ['2']) (List.forall_mem_singleton.mpr rfl)
  have hgap : ∀ c ∈ [' '], isBlank c = true := List.forall_mem_singleton.mpr (by decide)
  have hrow : IsWritten (trim " 0.5h 2 m".toList) :=
    ⟨_, .more hhours hgap (.one hminutes), by decide⟩
  have hseconds : readSegment "1s1m" "1s1m".toList = .ok (⟨⟨1, 0⟩, .second⟩, ['1', 'm']) := by
    decide
  have hminute : readSegment "1s1m" ['1', 'm'] = .ok (⟨⟨1, 0⟩, .minute⟩, []) := by decide
  have hrest : readSegments "1s1m" 4 ['1', 'm'] = .error (.unordered "1s1m") := by
    rw [readSegments_of_ne_nil (by decide), hminute]
    rfl
  have hread : readSegments "1s1m" 0 "1s1m".toList = .error (.unordered "1s1m") := by
    rw [readSegments_of_ne_nil (by decide), hseconds]
    exact congrArg (Except.map _) hrest
  have htrim : trim "1s1m".toList = "1s1m".toList := by decide
  have herror : parse "1s1m" = .error (.unordered "1s1m") := by
    rw [parse_eq, htrim, if_neg (by decide), String.ofList_toList, hread]
    rfl
  have hnot : ¬ IsWritten (trim "1s1m".toList) := by
    intro h
    obtain ⟨d, hd⟩ := (parse_ok_iff_written "1s1m").1.mpr h
    rw [herror] at hd
    cases hd
  exact ⟨(parse_ok_iff_written _).1.mpr hrow, hnot, (parse_ok_iff_written _).2.1 hnot⟩

end Duration
end SeriesExec
