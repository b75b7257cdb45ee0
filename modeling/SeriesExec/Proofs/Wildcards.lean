import Mathlib.Data.List.Forall2
import SeriesExec.Proofs.Expressions
import SeriesExec.Wildcard

/-!
# Wildcards — what a pattern matches

A wildcard can be tested with a table, from the back of the pattern to its front, or by searching
the text for an expression.  The expression is the escaped pattern, anchored at both ends, with a
run of any characters for each escaped star; escaped stars are found in the text of the expression,
whatever stands around them.  This file defines:

* `Wildcard.IsTable` — a table tells which ends of a text arise from a pattern;
* `Wildcard.withRuns` and `Wildcard.expression` — the expression of a wildcard as a text;
* `Wildcard.piece` — what a character of a pattern means.

Main statements: the table is right (`test_eq_true_iff`), the escaped stars in the text of the
expression are the stars of the pattern (`withRuns_escaped`), and every library that keeps to what
it documents finds the expression in the texts that arise from the pattern (`found_iff_fits`).
-/

namespace SeriesExec
namespace Wildcard

open Expression

variable {c d : Char} {pattern text stretch before after : List Char} {table : List Bool}

/-! ## Texts that arise from a pattern -/

theorem fits_star_cons : Fits ('*' :: pattern) (c :: text) ↔
    Fits pattern (c :: text) ∨ c ≠ '\n' ∧ Fits ('*' :: pattern) text := by
  constructor
  · intro h
    -- The star stands for nothing, or for the first character and more.
    generalize htext : c :: text = whole at h
    cases h with
    | char hc _ => exact absurd rfl hc
    | star stretch hstretch hrest =>
      cases stretch with
      | nil => exact .inl hrest
      | cons d stretch =>
        obtain ⟨rfl, rfl⟩ := List.cons_eq_cons.mp htext
        obtain ⟨hd, hstretch⟩ := List.ne_and_not_mem_of_not_mem_cons hstretch
        exact .inr ⟨hd.symm, .star stretch hstretch hrest⟩
  · rintro (h | ⟨hc, h⟩)
    · exact .star [] List.not_mem_nil h
    · cases h with
      | char hstar _ => exact absurd rfl hstar
      | star stretch hstretch hrest =>
        have hmem : '\n' ∉ c :: stretch := List.not_mem_cons_of_ne_of_not_mem hc.symm hstretch
        exact .star (c :: stretch) hmem hrest

theorem fits_star_nil : Fits ('*' :: pattern) [] ↔ Fits pattern [] := by
  constructor
  · intro h
    generalize htext : ([] : List Char) = whole at h
    cases h with
    | char hc _ => exact absurd rfl hc
    | star stretch _ hrest =>
      obtain ⟨-, rfl⟩ := List.append_eq_nil_iff.mp htext.symm
      exact htext ▸ hrest
  · intro h
    exact .star [] List.not_mem_nil h

theorem fits_char_cons (hd : d ≠ '*') :
    Fits (d :: pattern) (c :: text) ↔ c = d ∧ Fits pattern text := by
  constructor
  · intro h
    generalize htext : c :: text = whole at h
    cases h with
    | char _ hrest =>
      obtain ⟨rfl, rfl⟩ := List.cons_eq_cons.mp htext
      exact ⟨rfl, hrest⟩
    | star _ _ _ => exact absurd rfl hd
  · rintro ⟨rfl, h⟩
    exact .char hd h

theorem not_fits_char_nil (hd : d ≠ '*') : ¬ Fits (d :: pattern) [] := by
  intro h
  generalize htext : ([] : List Char) = whole at h
  cases h with
  | char _ _ => cases htext
  | star _ _ _ => exact hd rfl

theorem fits_nil : Fits [] text ↔ text = [] := by
  constructor
  · intro h
    cases h
    rfl
  · rintro rfl
    exact .nil

/-! ## Tables -/

/-- Each entry tells whether an end of the text arises from the pattern, the whole text first. -/
def IsTable (text pattern : List Char) (table : List Bool) : Prop :=
  List.Forall₂ (fun b rest => b = true ↔ Fits pattern rest) table text.tails

/-- The first entry is about the whole text. -/
theorem IsTable.headD (h : IsTable text pattern table) :
    table.headD false = true ↔ Fits pattern text := by
  have htails : text.tails = text :: text.tails.tail := by cases text <;> rfl
  rw [IsTable, htails] at h
  obtain ⟨b, rest, hb, -, rfl⟩ := List.forall₂_cons_right_iff.mp h
  exact hb

theorem IsTable.star (h : IsTable text pattern table) :
    IsTable text ('*' :: pattern) (starColumn text table) := by
  induction text generalizing table with
  | nil =>
    obtain ⟨b, rest, hb, hrest, rfl⟩ := List.forall₂_cons_right_iff.mp h
    obtain rfl := List.forall₂_nil_right_iff.mp hrest
    exact .cons (hb.trans fits_star_nil.symm) .nil
  | cons c text ih =>
    obtain ⟨b, below, hb, hbelow, rfl⟩ := List.forall₂_cons_right_iff.mp h
    have hrest := ih hbelow
    refine .cons ?_ hrest
    calc (b || c != '\n' && (starColumn text below).headD false) = true
        ↔ b = true ∨ c ≠ '\n' ∧ (starColumn text below).headD false = true := by simp
      _ ↔ Fits pattern (c :: text) ∨ c ≠ '\n' ∧ Fits ('*' :: pattern) text := by
        rw [hb, hrest.headD]
      _ ↔ Fits ('*' :: pattern) (c :: text) := fits_star_cons.symm

theorem IsTable.char (h : IsTable text pattern table) (hd : d ≠ '*') :
    IsTable text (d :: pattern) (charColumn d text table) := by
  induction text generalizing table with
  | nil => exact .cons (iff_of_false Bool.false_ne_true (not_fits_char_nil hd)) .nil
  | cons c text ih =>
    obtain ⟨b, below, -, hbelow, rfl⟩ := List.forall₂_cons_right_iff.mp h
    refine .cons ?_ (ih hbelow)
    calc (c == d && below.headD false) = true
        ↔ c = d ∧ below.headD false = true := by simp
      _ ↔ c = d ∧ Fits pattern text := by rw [IsTable.headD hbelow]
      _ ↔ Fits (d :: pattern) (c :: text) := (fits_char_cons hd).symm

theorem isTable_nil (text : List Char) : IsTable text [] (column text []) := by
  induction text with
  | nil => exact .cons (iff_of_true rfl .nil) .nil
  | cons c text ih =>
    exact .cons (iff_of_false Bool.false_ne_true fun h => by cases fits_nil.mp h) ih

theorem isTable_column (text pattern : List Char) : IsTable text pattern (column text pattern) := by
  induction pattern with
  | nil => exact isTable_nil text
  | cons c pattern ih =>
    rw [column]
    split
    · rename_i hc
      exact hc ▸ ih.star
    · rename_i hc
      exact ih.char hc

/-- The table tells which texts arise from the pattern. -/
theorem test_eq_true_iff (w : Wildcard) (text : String) :
    w.test text = true ↔ Fits w.pattern.toList text.toList :=
  (isTable_column text.toList w.pattern.toList).headD

/-! ## The expression of a wildcard -/

/-- An escaped text with a run of any characters in place of each escaped star. -/
def withRuns : List Char → List Char
  | [] => []
  | '\\' :: '*' :: rest => '.' :: '*' :: withRuns rest
  | c :: rest => c :: withRuns rest

/-- The expression that a library is to search for. -/
def expression (s : Searcher) (w : Wildcard) : List Char :=
  '^' :: (withRuns (s.escape w.pattern.toList) ++ ['$'])

/-- What a character of a pattern asks of a text. -/
def piece (c : Char) : Piece :=
  if c = '*' then .many .any else .one (.char c)

/-- What a pattern asks of a text. -/
def pieces (pattern : List Char) : List Piece :=
  .start :: (pattern.map piece ++ [.stop])

/-- No escaped text begins with a star. -/
theorem head?_escaped (pattern : List Char) : (pattern.flatMap literal).head? ≠ some '*' := by
  intro h
  cases pattern with
  | nil => cases h
  | cons c rest =>
    rw [List.flatMap_cons, literal] at h
    split at h
    · cases h
    · rename_i hc
      obtain rfl : c = '*' := Option.some.inj h
      exact hc rfl

/-- A character is left as it is unless it is a backslash with a star behind it. -/
theorem withRuns_cons {rest : List Char} (h : c = '\\' → rest.head? ≠ some '*') :
    withRuns (c :: rest) = c :: withRuns rest := by
  rw [withRuns]
  rintro rest' rfl rfl
  exact h rfl rfl

/-- The escaped stars of an escaped text are the stars of the pattern and nothing else: a backslash
of the pattern is written as two, and no star can follow the second. -/
theorem withRuns_escaped (pattern : List Char) :
    withRuns (pattern.flatMap literal) = written (pattern.map piece) := by
  induction pattern with
  | nil => rfl
  | cons c rest ih =>
    have hhead := head?_escaped rest
    by_cases hstar : c = '*'
    · -- An escaped star is the only place where the escaped text is changed.
      subst hstar
      calc withRuns ('\\' :: '*' :: rest.flatMap literal)
          = '.' :: '*' :: withRuns (rest.flatMap literal) := rfl
        _ = written (piece '*' :: rest.map piece) := by rw [ih]; rfl
    · have hwritten : written (piece c :: rest.map piece) =
          literal c ++ withRuns (rest.flatMap literal) := by
        rw [ih]
        simp [written, piece, hstar, Piece.written, Atom.written]
      rw [List.map_cons, hwritten, List.flatMap_cons]
      by_cases hmeta : isMeta c = true
      · -- The backslash in front of the character is not taken for that of a star.
        have hfirst : withRuns ('\\' :: c :: rest.flatMap literal) =
            '\\' :: withRuns (c :: rest.flatMap literal) :=
          withRuns_cons fun _ h => hstar (Option.some.inj h)
        have hsecond : withRuns (c :: rest.flatMap literal) =
            c :: withRuns (rest.flatMap literal) := withRuns_cons fun _ => hhead
        simp [literal, hmeta, hfirst, hsecond]
      · simpa [literal, hmeta] using withRuns_cons fun _ => hhead

theorem expression_eq {s : Searcher} (hs : s.Documented) (w : Wildcard) :
    w.expression s = written (pieces w.pattern.toList) := by
  rw [expression, hs.escape, withRuns_escaped]
  simp [pieces, written, Piece.written]

/-! ## Searching for the expression -/

theorem takes_any_iff {run : List Char} :
    (∀ c ∈ run, Atom.any.takes c = true) ↔ '\n' ∉ run := by
  constructor
  · intro h hmem
    exact absurd (h '\n' hmem) (by decide)
  · intro h c hc
    have hne : c ≠ '\n' := fun heq => h (heq ▸ hc)
    simpa [Atom.takes] using hne

/-- A match that is to end where the text ends, is one of all that is left of the text. -/
theorem matches_iff_fits :
    Matches (pattern.map piece ++ [.stop]) before stretch after ↔
      after = [] ∧ Fits pattern stretch := by
  -- What stands before the match grows as the pattern is used up, so it is kept general.
  induction pattern generalizing before stretch with
  | nil =>
    constructor
    · intro h
      cases h with
      | stop h => exact ⟨rfl, .nil⟩
    · rintro ⟨rfl, h⟩
      obtain rfl := fits_nil.mp h
      exact .stop (.nil before [])
  | cons c pattern ih =>
    rw [List.map_cons, List.cons_append, piece]
    split
    · rename_i hc
      subst hc
      constructor
      · intro h
        cases h with
        | many run hrun hrest =>
          obtain ⟨hafter, hfits⟩ := ih.mp hrest
          exact ⟨hafter, .star run (takes_any_iff.mp hrun) hfits⟩
      · rintro ⟨hafter, h⟩
        cases h with
        | char hstar _ => exact absurd rfl hstar
        | star run hrun hfits =>
          exact .many run (takes_any_iff.mpr hrun) (ih.mpr ⟨hafter, hfits⟩)
    · rename_i hc
      constructor
      · intro h
        cases h with
        | one htakes hrest =>
          obtain ⟨hafter, hfits⟩ := ih.mp hrest
          obtain rfl := eq_of_beq htakes
          exact ⟨hafter, .char hc hfits⟩
      · rintro ⟨hafter, h⟩
        cases h with
        | char _ hfits => exact .one (beq_self_eq_true c) (ih.mpr ⟨hafter, hfits⟩)
        | star _ _ _ => exact absurd rfl hc

/-- A match anywhere in a text is one of the whole text. -/
theorem exists_matches_iff_fits :
    (∃ before stretch after, text = before ++ stretch ++ after ∧
      Matches (pieces pattern) before stretch after) ↔ Fits pattern text := by
  constructor
  · rintro ⟨before, stretch, after, rfl, h⟩
    cases h with
    | start h =>
      obtain ⟨rfl, hfits⟩ := matches_iff_fits.mp h
      simpa using hfits
  · intro h
    exact ⟨[], text, [], by simp, .start (matches_iff_fits.mpr ⟨rfl, h⟩)⟩

/-- Whatever the pattern is, its expression can be compiled by every library that does what it
documents, unless it is too large, and it is found in exactly the texts that arise from the pattern
when each star is replaced by some characters without line feeds and all others stay as they are.
The test of a wildcard by its table has the same outcome. -/
theorem found_iff_fits (s : Searcher) (hs : s.Documented) (w : Wildcard)
    (hsmall : s.IsSmall (w.expression s)) :
    ∃ program, s.compile (w.expression s) = some program ∧ ∀ text : String,
      (s.finds program text.toList = true ↔ Fits w.pattern.toList text.toList) ∧
      (w.test text = true ↔ Fits w.pattern.toList text.toList) := by
  have hexpression := expression_eq hs w
  rw [hexpression] at hsmall ⊢
  obtain ⟨program, hprogram⟩ := hs.compile _ hsmall
  refine ⟨program, hprogram, fun text => ⟨?_, test_eq_true_iff w text⟩⟩
  calc s.finds program text.toList = true
      ↔ ∃ before stretch after, text.toList = before ++ stretch ++ after ∧
          Matches (pieces w.pattern.toList) before stretch after :=
        hs.finds _ program hprogram text.toList
    _ ↔ Fits w.pattern.toList text.toList := exists_matches_iff_fits

/-- A backslash and a dot in front of stars, and two stars in a row. -/
theorem found_iff_fits_sample :
    ∃ program, Searcher.plain.compile ((Wildcard.mk "\\*.**(b)*").expression Searcher.plain) =
        some program ∧
      Searcher.plain.finds program "\\a.*(b)".toList = true ∧
      Searcher.plain.finds program "\\a\n.(b)".toList = false := by
  obtain ⟨program, hprogram, hfinds⟩ :=
    found_iff_fits Searcher.plain documented_plain ⟨"\\*.**(b)*"⟩ trivial
  refine ⟨program, hprogram, ?_, ?_⟩
  · obtain ⟨hfound, htest⟩ := hfinds "\\a.*(b)"
    exact hfound.mpr (htest.mp (by decide))
  · obtain ⟨hfound, htest⟩ := hfinds "\\a\n.(b)"
    have hnot : ¬ (Wildcard.mk "\\*.**(b)*").test "\\a\n.(b)" = true := by decide
    exact Bool.eq_false_iff.mpr fun h => hnot (htest.mpr (hfound.mp h))

end Wildcard
end SeriesExec
