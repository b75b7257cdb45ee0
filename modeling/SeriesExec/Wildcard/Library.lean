import SeriesExec.Error
import SeriesExec.Wildcard

/-!
# Pattern library — which patterns can be used

Patterns are compiled by an outside library before they are matched against anything, and the
library may refuse one, as it does when a pattern becomes too large.  Which patterns it refuses is
not known here, so everything that compiles patterns is given a library.  This file defines:

* `PatternLibrary` — which patterns a library refuses, and what it says about them;
* `Wildcard.refused` and `Wildcard.rejection?` — the error for a pattern, and for the first of some
  patterns that is refused;
* `PatternLibrary.bounded` — a library with a limit on the size of a pattern, and
  `PatternLibrary.stars`, patterns that soon are beyond that limit.

Main statements: what it means that none of some patterns is refused, or that one is the first
(`Wildcard.rejection?_eq_none_iff`, `Wildcard.rejection?_eq_some_iff`).
-/

namespace SeriesExec

/-- A library that compiles patterns.  What it says about a pattern does not change. -/
class PatternLibrary where
  /-- What is wrong with a pattern, if the library refuses it. -/
  refusal? : String → Option String

namespace PatternLibrary

/-- How many states a pattern is compiled to: one for a byte, and ten for a star, which stands for
characters of up to four bytes. -/
def states (pattern : String) : Nat :=
  pattern.utf8ByteSize + 9 * pattern.toList.count '*'

/-- A library that compiles patterns up to 10 MiB, at 32 bytes for a state. -/
instance bounded : PatternLibrary where
  refusal? pattern :=
    if states pattern ≤ 10485760 / 32 then none
    else some "Compiled regex exceeds size limit of 10485760 bytes."

/-- A pattern of stars only. -/
def stars (n : Nat) : String :=
  String.ofList (List.replicate n '*')

/-- Fifty thousand stars are too many. -/
theorem refusal?_stars {n : Nat} (h : 50000 ≤ n) : ∃ reason, refusal? (stars n) = some reason := by
  have hcount : (stars n).toList.count '*' = n := by
    rw [stars, String.toList_ofList, List.count_replicate_self]
  have hlarge : ¬states (stars n) ≤ 10485760 / 32 := by
    rw [states, hcount]
    omega
  exact ⟨_, if_neg hlarge⟩

end PatternLibrary

namespace Wildcard

variable [PatternLibrary] {patterns : List String} {pattern reason : String} {e : Error}

/-- The error for a pattern that the library refuses. -/
def refused (pattern reason : String) : Error :=
  .context ("invalid wildcard pattern:" ++ pattern) (.fault (.text reason))

/-- Patterns are compiled one after another; the error for the first that the library refuses. -/
def rejection? (patterns : List String) : Option Error :=
  patterns.findSome? fun p => (PatternLibrary.refusal? p).map (refused p)

theorem rejection?_eq_none_iff :
    rejection? patterns = none ↔ ∀ p ∈ patterns, PatternLibrary.refusal? p = none := by
  simp only [rejection?, List.findSome?_eq_none_iff, Option.map_eq_none_iff]

theorem rejection?_eq_some_iff :
    rejection? patterns = some e ↔ ∃ before p after reason, patterns = before ++ p :: after ∧
      (∀ q ∈ before, PatternLibrary.refusal? q = none) ∧
      PatternLibrary.refusal? p = some reason ∧ e = refused p reason := by
  simp only [rejection?, List.findSome?_eq_some_iff, Option.map_eq_some_iff,
    Option.map_eq_none_iff]
  constructor
  · rintro ⟨before, p, after, hsplit, ⟨reason, hreason, rfl⟩, hbefore⟩
    exact ⟨before, p, after, reason, hsplit, hbefore, hreason, rfl⟩
  · rintro ⟨before, p, after, reason, hsplit, hbefore, hreason, rfl⟩
    exact ⟨before, p, after, hsplit, ⟨reason, hreason, rfl⟩, hbefore⟩

end Wildcard
end SeriesExec
