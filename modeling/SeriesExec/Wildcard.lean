/-!
# Wildcards — patterns over paths and tag values

A pattern matches a whole text.  A star in it stands for any characters but line feeds, every
other character for itself.  This file defines:

* `Wildcard` — a pattern;
* `Wildcard.Fits` — what it means that a text arises from a pattern;
* `Wildcard.column` — for every end of a text, whether the pattern matches that end;
* `Wildcard.test` — whether the pattern matches a text.

The ends of the text are tested together, shortest pattern first, so the work is the product of
the two lengths however many stars there are.
-/

namespace SeriesExec

/-- A pattern over texts. -/
structure Wildcard where
  pattern : String
  deriving DecidableEq, Repr, Inhabited

namespace Wildcard

/-- `Fits pattern text`: the text arises from the pattern when each star is replaced by some
characters, none of them a line feed. -/
inductive Fits : List Char → List Char → Prop where
  | nil : Fits [] []
  | char {c : Char} {pattern text : List Char} (h : c ≠ '*') :
      Fits pattern text → Fits (c :: pattern) (c :: text)
  | star {pattern text : List Char} (stretch : List Char) (h : '\n' ∉ stretch) :
      Fits pattern text → Fits ('*' :: pattern) (stretch ++ text)

/-! ## Testing -/

/-- The table of a star in front of a pattern, from the text and the table of that pattern. -/
def starColumn : List Char → List Bool → List Bool
  | c :: text, b :: below =>
    -- The star stands for nothing here, or for this character and whatever it stands for behind it.
    let rest := starColumn text below
    (b || (c != '\n' && rest.headD false)) :: rest
  | _, below => below

/-- The table of a literal character in front of a pattern. -/
def charColumn (d : Char) : List Char → List Bool → List Bool
  | c :: text, _ :: below => (c == d && below.headD false) :: charColumn d text below
  | _, _ => [false]

/-- Entry `i` tells whether the pattern matches the text without its first `i` characters. -/
def column (text : List Char) : List Char → List Bool
  | [] => List.replicate text.length false ++ [true]
  | c :: pattern =>
    if c = '*' then starColumn text (column text pattern)
    else charColumn c text (column text pattern)

/-- Whether the whole text matches. -/
def test (w : Wildcard) (text : String) : Bool :=
  (column text.toList w.pattern.toList).headD false

/-- Whether some of the patterns matches the text. -/
def anyTest (patterns : List String) (text : String) : Bool :=
  patterns.any fun p => (Wildcard.mk p).test text

end Wildcard
end SeriesExec
