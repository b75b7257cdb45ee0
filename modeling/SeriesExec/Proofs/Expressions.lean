import Mathlib.Data.List.Basic

/-!
# Expressions — searching texts with a library

A wildcard is tested by a library that searches a text for an expression.  Of such a library no more
is known than what it documents, and of its expressions only a few kinds are needed.  This file
defines, in the namespace `Expression`:

* `Atom` and `Piece` — what an expression is made of;
* `written` — an expression as it is handed to a library;
* `Matches` — which stretches of a text match an expression, and where;
* `Searcher` — a library, which escapes texts, compiles expressions and searches for them;
* `Searcher.Documented` — what a library documents about these three;
* `Searcher.plain` — a small library, which tries every place of the text.

Main statement: there is a library that keeps to what is documented (`documented_plain`).
-/

namespace SeriesExec
namespace Expression

/-! ## What an expression says -/

/-- What an expression can ask of one character. -/
inductive Atom where
  | char (c : Char)
  /-- Any character but a line feed. -/
  | any
  deriving DecidableEq

/-- A part of an expression. -/
inductive Piece where
  | one (a : Atom)
  /-- Any number of characters, which may differ. -/
  | many (a : Atom)
  /-- The beginning of the text. -/
  | start
  /-- The end of the text. -/
  | stop
  deriving DecidableEq

/-- Whether an atom takes a character. -/
def Atom.takes : Atom → Char → Bool
  | char d, c => c == d
  | any, c => c != '\n'

/-- `Matches pieces before stretch after`: the stretch between two parts of a text matches. -/
inductive Matches : List Piece → List Char → List Char → List Char → Prop where
  | nil (before after : List Char) : Matches [] before [] after
  | one {a : Atom} {c : Char} {rest : List Piece} {before stretch after : List Char}
      (h : a.takes c = true) :
      Matches rest (before ++ [c]) stretch after →
      Matches (.one a :: rest) before (c :: stretch) after
  | many {a : Atom} {rest : List Piece} {before stretch after : List Char} (run : List Char)
      (h : ∀ c ∈ run, a.takes c = true) :
      Matches rest (before ++ run) stretch after →
      Matches (.many a :: rest) before (run ++ stretch) after
  | start {rest : List Piece} {stretch after : List Char} :
      Matches rest [] stretch after → Matches (.start :: rest) [] stretch after
  | stop {rest : List Piece} {before : List Char} :
      Matches rest before [] [] → Matches (.stop :: rest) before [] []

/-! ## How an expression is written -/

/-- Characters that mean something in an expression unless a backslash stands before them. -/
def isMeta (c : Char) : Bool :=
  ['\\', '.', '+', '*', '?', '(', ')', '|', '[', ']', '\x7b', '\x7d', '^', '$', '#', '&', '-',
    '~'].contains c

/-- How a character is written that is meant literally. -/
def literal (c : Char) : List Char :=
  if isMeta c then ['\\', c] else [c]

def Atom.written : Atom → List Char
  | char c => literal c
  | any => ['.']

def Piece.written : Piece → List Char
  | one a => a.written
  | many a => a.written ++ ['*']
  | start => ['^']
  | stop => ['$']

/-- An expression as a text. -/
def written (pieces : List Piece) : List Char :=
  pieces.flatMap Piece.written

/-! ## Libraries -/

/-- A library that searches texts for expressions. -/
structure Searcher where
  /-- Expressions as the library keeps them. -/
  Program : Type
  /-- A text as an expression that means nothing but the text. -/
  escape : List Char → List Char
  compile : List Char → Option Program
  /-- Whether a match is found anywhere in a text. -/
  finds : Program → List Char → Bool
  /-- The expression stays below the size that the library compiles. -/
  IsSmall : List Char → Prop

/-- The library does what it documents: it escapes characters one by one, compiles expressions that
are not too large, and finds a match if there is one. -/
structure Searcher.Documented (s : Searcher) : Prop where
  escape : ∀ text, s.escape text = text.flatMap literal
  compile : ∀ pieces, s.IsSmall (written pieces) →
    ∃ program, s.compile (written pieces) = some program
  finds : ∀ pieces program, s.compile (written pieces) = some program →
    ∀ text, s.finds program text = true ↔
      ∃ before stretch after, text = before ++ stretch ++ after ∧
        Matches pieces before stretch after

/-! ## A small library -/

/-- A character of an expression, as a sign or as itself. -/
inductive Token where
  | sign (c : Char)
  | literal (c : Char)
  deriving DecidableEq

/-- The characters of an expression. -/
def tokens : List Char → List Token
  | [] => []
  | '\\' :: c :: rest => .literal c :: tokens rest
  | c :: rest => (if isMeta c then .sign c else .literal c) :: tokens rest

/-- The atom that a character of an expression stands for. -/
def atom? : Token → Option Atom
  | .literal c => some (.char c)
  | .sign c => if c = '.' then some .any else none

/-- The piece that a character of an expression stands for by itself. -/
def piece? : Token → Option Piece
  | .literal c => some (.one (.char c))
  | .sign c =>
    if c = '.' then some (.one .any)
    else if c = '^' then some .start
    else if c = '$' then some .stop
    else none

/-- The expression that is made of these characters. -/
def pieces? : List Token → Option (List Piece)
  | [] => some []
  | t :: .sign '*' :: rest => (atom? t).bind fun a => (pieces? rest).map (.many a :: ·)
  | t :: rest => (piece? t).bind fun p => (pieces? rest).map (p :: ·)

/-- Whether some characters that the atom takes are followed by what `next` accepts. -/
def acceptsMany (a : Atom) (next : Bool → List Char → Bool) : Bool → List Char → Bool
  | atStart, [] => next atStart []
  | atStart, c :: text =>
    next atStart (c :: text) || (a.takes c && acceptsMany a next false text)

/-- Whether a match begins where the text begins; `atStart` tells whether nothing is before it. -/
def accepts : List Piece → Bool → List Char → Bool
  | [], _, _ => true
  | .one a :: rest, _, text =>
    match text with
    | [] => false
    | c :: text => a.takes c && accepts rest false text
  | .many a :: rest, atStart, text => acceptsMany a (accepts rest) atStart text
  | .start :: rest, atStart, text => atStart && accepts rest atStart text
  | .stop :: rest, atStart, text => text.isEmpty && accepts rest atStart text

/-- Whether a match begins anywhere in the text. -/
def search (pieces : List Piece) : Bool → List Char → Bool
  | atStart, [] => accepts pieces atStart []
  | atStart, c :: text => accepts pieces atStart (c :: text) || search pieces false text

/-- A library that tries every place of the text. -/
def Searcher.plain : Searcher where
  Program := List Piece
  escape text := text.flatMap literal
  compile text := pieces? (tokens text)
  finds program text := search program true text
  IsSmall _ := True

/-! ### Reading expressions -/

def Atom.token : Atom → Token
  | .char c => .literal c
  | .any => .sign '.'

def Piece.tokens : Piece → List Token
  | .one a => [a.token]
  | .many a => [a.token, .sign '*']
  | .start => [.sign '^']
  | .stop => [.sign '$']

theorem tokens_cons {c : Char} (h : c ≠ '\\') (rest : List Char) :
    tokens (c :: rest) = (if isMeta c then .sign c else .literal c) :: tokens rest := by
  cases rest with
  | nil => simp [tokens]
  | cons d rest => simp [tokens, h]

theorem tokens_literal (c : Char) (rest : List Char) :
    tokens (literal c ++ rest) = .literal c :: tokens rest := by
  by_cases h : isMeta c = true
  · simp [literal, h, tokens]
  · have hc : c ≠ '\\' := by
      intro heq
      exact h (heq ▸ rfl)
    simp [literal, h, tokens_cons hc]

theorem tokens_atom (a : Atom) (rest : List Char) :
    tokens (a.written ++ rest) = a.token :: tokens rest := by
  cases a with
  | char c => exact tokens_literal c rest
  | any => exact tokens_cons (by decide) rest

theorem tokens_piece (p : Piece) (rest : List Char) :
    tokens (p.written ++ rest) = p.tokens ++ tokens rest := by
  have hsign : ∀ c, isMeta c = true → c ≠ '\\' → tokens (c :: rest) = .sign c :: tokens rest := by
    intro c hmeta hc
    simpa [hmeta] using tokens_cons hc rest
  cases p with
  | one a => exact tokens_atom a rest
  | many a =>
    calc tokens (a.written ++ ['*'] ++ rest)
        = a.token :: tokens ('*' :: rest) := by
          simpa using tokens_atom a ('*' :: rest)
      _ = a.token :: .sign '*' :: tokens rest := by rw [hsign '*' rfl (by decide)]
  | start => exact hsign '^' rfl (by decide)
  | stop => exact hsign '$' rfl (by decide)

theorem tokens_written (pieces : List Piece) :
    tokens (written pieces) = pieces.flatMap Piece.tokens := by
  induction pieces with
  | nil => rfl
  | cons p rest ih =>
    calc tokens (written (p :: rest))
        = p.tokens ++ tokens (written rest) := tokens_piece p (written rest)
      _ = (p :: rest).flatMap Piece.tokens := by simp [ih]

/-- No piece begins with a star. -/
theorem head?_tokens (pieces : List Piece) :
    (pieces.flatMap Piece.tokens).head? ≠ some (.sign '*') := by
  intro h
  cases pieces with
  | nil => cases h
  | cons p rest =>
    cases p with
    | one a => cases a <;> simp [Piece.tokens, Atom.token] at h
    | many a => cases a <;> simp [Piece.tokens, Atom.token] at h
    | start => simp [Piece.tokens] at h
    | stop => simp [Piece.tokens] at h

/-- A character that no star follows is a piece by itself. -/
theorem pieces?_cons (t : Token) {rest : List Token} (h : rest.head? ≠ some (.sign '*')) :
    pieces? (t :: rest) = (piece? t).bind fun p => (pieces? rest).map (p :: ·) := by
  rw [pieces?]
  intro rest' heq
  simp [heq] at h

theorem atom?_token (a : Atom) : atom? (a.token) = some a := by
  cases a <;> rfl

theorem piece?_token (a : Atom) : piece? (a.token) = some (.one a) := by
  cases a <;> rfl

/-- What is written is read as what it is. -/
theorem pieces?_tokens (pieces : List Piece) :
    pieces? (pieces.flatMap Piece.tokens) = some pieces := by
  induction pieces with
  | nil => rfl
  | cons p rest ih =>
    -- A star right behind a character would make another piece of the two.
    have hhead := head?_tokens rest
    cases p with
    | one a => simp [Piece.tokens, pieces?_cons _ hhead, piece?_token, ih]
    | many a => simp [Piece.tokens, pieces?, atom?_token, ih]
    | start => simp [Piece.tokens, pieces?_cons _ hhead, piece?, ih]
    | stop => simp [Piece.tokens, pieces?_cons _ hhead, piece?, ih]

/-! ### Searching -/

/-- Behind a character is not the beginning of the text. -/
theorem isEmpty_snoc (before : List Char) (c : Char) : (before ++ [c]).isEmpty = false := by
  simp

theorem acceptsMany_iff {a : Atom} {next : Bool → List Char → Bool} {before text : List Char} :
    acceptsMany a next before.isEmpty text = true ↔
      ∃ run rest, text = run ++ rest ∧ (∀ c ∈ run, a.takes c = true) ∧
        next (before ++ run).isEmpty rest = true := by
  -- The run is empty, or its first character is the first one of the text.
  induction text generalizing before with
  | nil =>
    constructor
    · intro h
      exact ⟨[], [], rfl, by simp, by simpa [acceptsMany] using h⟩
    · rintro ⟨run, rest, htext, -, hnext⟩
      obtain ⟨rfl, rfl⟩ := List.append_eq_nil_iff.mp htext.symm
      simpa [acceptsMany] using hnext
  | cons c text ih =>
    have hlater : acceptsMany a next false text = true ↔
        ∃ run rest, text = run ++ rest ∧ (∀ c ∈ run, a.takes c = true) ∧
          next (before ++ [c] ++ run).isEmpty rest = true := by
      rw [← isEmpty_snoc before c]
      exact ih
    simp only [acceptsMany, Bool.or_eq_true, Bool.and_eq_true, hlater]
    constructor
    · rintro (hnext | ⟨hc, run, rest, htext, hrun, hnext⟩)
      · exact ⟨[], c :: text, rfl, by simp, by simpa using hnext⟩
      · refine ⟨c :: run, rest, by simp [htext], ?_, by simpa using hnext⟩
        simpa using ⟨hc, hrun⟩
    · rintro ⟨run, rest, htext, hrun, hnext⟩
      cases run with
      | nil =>
        left
        obtain rfl : c :: text = rest := htext
        simpa using hnext
      | cons d run =>
        obtain ⟨rfl, rfl⟩ := List.cons_eq_cons.mp htext
        obtain ⟨hc, hrun⟩ := List.forall_mem_cons.mp hrun
        right
        exact ⟨hc, run, rest, rfl, hrun, by simpa using hnext⟩

theorem accepts_iff {pieces : List Piece} {before text : List Char} :
    accepts pieces before.isEmpty text = true ↔
      ∃ stretch after, text = stretch ++ after ∧ Matches pieces before stretch after := by
  -- Whether the text begins here is all that a piece can ask about what is before it.
  induction pieces generalizing before text with
  | nil =>
    constructor
    · intro _
      exact ⟨[], text, rfl, .nil before text⟩
    · intro _
      rfl
  | cons p rest ih =>
    cases p with
    | one a =>
      constructor
      · intro h
        cases text with
        | nil => cases h
        | cons c text =>
          obtain ⟨hc, hrest⟩ : a.takes c = true ∧
              accepts rest (before ++ [c]).isEmpty text = true := by
            simpa only [accepts, isEmpty_snoc, Bool.and_eq_true] using h
          obtain ⟨stretch, after, rfl, hmatches⟩ := ih.mp hrest
          exact ⟨c :: stretch, after, rfl, .one hc hmatches⟩
      · rintro ⟨stretch, after, rfl, hmatches⟩
        cases hmatches with
        | one hc hrest =>
          have haccepts := ih.mpr ⟨_, _, rfl, hrest⟩
          rw [isEmpty_snoc] at haccepts
          simpa [accepts, hc] using haccepts
    | many a =>
      have hmany : accepts (.many a :: rest) before.isEmpty text =
        acceptsMany a (accepts rest) before.isEmpty text := rfl
      rw [hmany, acceptsMany_iff]
      constructor
      · rintro ⟨run, text, rfl, hrun, hnext⟩
        obtain ⟨stretch, after, rfl, hmatches⟩ := ih.mp hnext
        exact ⟨run ++ stretch, after, by simp, .many run hrun hmatches⟩
      · rintro ⟨stretch, after, rfl, hmatches⟩
        cases hmatches with
        | many run hrun hrest =>
          exact ⟨run, _, by simp, hrun, ih.mpr ⟨_, _, rfl, hrest⟩⟩
    | start =>
      constructor
      · intro h
        obtain ⟨hstart, hrest⟩ : before = [] ∧ accepts rest before.isEmpty text = true := by
          simpa [accepts] using h
        obtain ⟨stretch, after, htext, hmatches⟩ := ih.mp hrest
        subst hstart
        exact ⟨stretch, after, htext, .start hmatches⟩
      · rintro ⟨stretch, after, htext, hmatches⟩
        cases hmatches with
        | start hrest => exact ih.mpr ⟨_, _, htext, hrest⟩
    | stop =>
      constructor
      · intro h
        obtain ⟨hstop, hrest⟩ : text = [] ∧ accepts rest before.isEmpty text = true := by
          simpa [accepts] using h
        obtain ⟨stretch, after, htext, hmatches⟩ := ih.mp hrest
        obtain ⟨rfl, rfl⟩ := List.append_eq_nil_iff.mp (htext.symm.trans hstop)
        exact ⟨[], [], htext, .stop hmatches⟩
      · rintro ⟨stretch, after, rfl, hmatches⟩
        cases hmatches with
        | stop hrest => exact ih.mpr ⟨[], [], rfl, hrest⟩

theorem search_iff {pieces : List Piece} {before text : List Char} :
    search pieces before.isEmpty text = true ↔
      ∃ skipped stretch after, text = skipped ++ stretch ++ after ∧
        Matches pieces (before ++ skipped) stretch after := by
  induction text generalizing before with
  | nil =>
    constructor
    · intro h
      obtain ⟨stretch, after, htext, hmatches⟩ := accepts_iff.mp h
      exact ⟨[], stretch, after, htext, by simpa using hmatches⟩
    · rintro ⟨skipped, stretch, after, htext, hmatches⟩
      obtain ⟨rfl, rfl, rfl⟩ : skipped = [] ∧ stretch = [] ∧ after = [] := by
        simpa using htext.symm
      exact accepts_iff.mpr ⟨[], [], rfl, by simpa using hmatches⟩
  | cons c text ih =>
    have hsearch : search pieces before.isEmpty (c :: text) = true ↔
        accepts pieces before.isEmpty (c :: text) = true ∨
          search pieces (before ++ [c]).isEmpty text = true := by
      rw [isEmpty_snoc]
      simp [search]
    rw [hsearch, accepts_iff, ih]
    constructor
    · rintro (⟨stretch, after, htext, hmatches⟩ | ⟨skipped, stretch, after, rfl, hmatches⟩)
      · exact ⟨[], stretch, after, htext, by simpa using hmatches⟩
      · exact ⟨c :: skipped, stretch, after, rfl, by simpa using hmatches⟩
    · rintro ⟨skipped, stretch, after, htext, hmatches⟩
      cases skipped with
      | nil => exact .inl ⟨stretch, after, htext, by simpa using hmatches⟩
      | cons d skipped =>
        obtain ⟨rfl, rfl⟩ := List.cons_eq_cons.mp htext
        exact .inr ⟨skipped, stretch, after, rfl, by simpa using hmatches⟩

theorem documented_plain : Searcher.plain.Documented where
  escape _ := rfl
  compile pieces _ := ⟨pieces, by simp [Searcher.plain, tokens_written, pieces?_tokens]⟩
  finds := by
    intro pieces program hprogram text
    have hread : Searcher.plain.compile (written pieces) = some pieces := by
      simp [Searcher.plain, tokens_written, pieces?_tokens]
    obtain rfl : pieces = program := Option.some.inj (hread.symm.trans hprogram)
    have hsearch : search pieces ([] : List Char).isEmpty text = true ↔
        ∃ skipped stretch after, text = skipped ++ stretch ++ after ∧
          Matches pieces ([] ++ skipped) stretch after := search_iff
    simpa [Searcher.plain] using hsearch

end Expression
end SeriesExec
