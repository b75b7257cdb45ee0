import Mathlib.Data.List.TakeWhile
import SeriesExec.Text.Blank

/-!
# Blanks — texts between white space

What is read from a configuration or a query is trimmed first, and then often cut where a kind of
character ends.  This file defines:

* `Text.startsBlank` and `Text.endsBlank` — a text with a blank at an end;
* `Text.IsCut` — a text that is cut where its first row of a kind of character ends.

Main statements: a trimmed text has no blank at an end (`startsBlank_trim`, `endsBlank_trim`), a
text without one is left as it is (`trim_eq_self`), and what is trimmed off behind a text is white
space and nothing else (`trim_append`, `exists_eq_trim_append`).
-/

namespace SeriesExec
namespace Text

variable {p : Char → Bool} {c : Char} {cs front back blanks : List Char}

/-! ## Cuts -/

/-- `IsCut p front back`: a text that is cut where its first characters with `p` end. -/
structure IsCut (p : Char → Bool) (front back : List Char) : Prop where
  front : ∀ c ∈ front, p c = true
  back : ∀ c ∈ back.head?, p c = false

theorem isCut_takeWhile (p : Char → Bool) (cs : List Char) :
    IsCut p (cs.takeWhile p) (cs.dropWhile p) where
  front := fun c hc => List.mem_takeWhile_imp hc
  back := by
    intro c hc
    have hnot := List.head?_dropWhile_not p cs
    rw [Option.mem_def.mp hc] at hnot
    exact hnot

theorem exists_isCut (p : Char → Bool) (cs : List Char) :
    ∃ front back, cs = front ++ back ∧ IsCut p front back :=
  ⟨_, _, List.takeWhile_append_dropWhile.symm, isCut_takeWhile p cs⟩

theorem IsCut.takeWhile_append (h : IsCut p front back) : (front ++ back).takeWhile p = front := by
  rw [List.takeWhile_append_of_pos h.front]
  cases back with
  | nil => simp
  | cons c back => simp [h.back c rfl]

theorem IsCut.dropWhile_append (h : IsCut p front back) : (front ++ back).dropWhile p = back := by
  rw [List.dropWhile_append_of_pos h.front]
  cases back with
  | nil => rfl
  | cons c back => simp [h.back c rfl]

/-- A search for a character passes over a text without it. -/
theorem bne_of_notMem (h : c ∉ cs) : ∀ d ∈ cs, (d != c) = true :=
  fun _ hd => bne_iff_ne.mpr fun heq => h (heq ▸ hd)

/-! ## Blanks, digits and letters -/

theorem bounds_of_isDigit (h : c.isDigit = true) : 48 ≤ c.toNat ∧ c.toNat ≤ 57 :=
  Char.isDigit_iff_toNat.mp h

theorem bounds_of_isAlpha (h : c.isAlpha = true) :
    65 ≤ c.toNat ∧ c.toNat ≤ 90 ∨ 97 ≤ c.toNat ∧ c.toNat ≤ 122 := by
  have hcases : (decide (c.val ≥ 'A'.val ∧ c.val ≤ 'Z'.val) ||
      decide (c.val ≥ 'a'.val) && decide (c.val ≤ 'z'.val)) = true := h
  simpa [UInt32.le_iff_toNat_le] using hcases

/-- No printed ASCII character but the space is white space. -/
theorem isBlank_of_bounds (hlow : 33 ≤ c.toNat) (hhigh : c.toNat ≤ 126) : isBlank c = false := by
  rw [Bool.eq_false_iff]
  intro hblank
  simp only [isBlank, blankIntervals, List.any_cons, List.any_nil, Bool.or_false, Bool.or_eq_true,
    Bool.and_eq_true, decide_eq_true_eq] at hblank
  omega

theorem isBlank_of_isDigit (h : c.isDigit = true) : isBlank c = false := by
  obtain ⟨hlow, hhigh⟩ := bounds_of_isDigit h
  exact isBlank_of_bounds (by omega) (by omega)

theorem isBlank_of_isAlpha (h : c.isAlpha = true) : isBlank c = false := by
  rcases bounds_of_isAlpha h with ⟨hlow, hhigh⟩ | ⟨hlow, hhigh⟩
  · exact isBlank_of_bounds (by omega) (by omega)
  · exact isBlank_of_bounds (by omega) (by omega)

/-! ## Blanks at the ends -/

/-- Whether the first character is white space. -/
def startsBlank (cs : List Char) : Bool :=
  cs.head?.any isBlank

/-- Whether the last character is white space. -/
def endsBlank (cs : List Char) : Bool :=
  cs.getLast?.any isBlank

theorem startsBlank_reverse (cs : List Char) : startsBlank cs.reverse = endsBlank cs := by
  simp [startsBlank, endsBlank]

theorem startsBlank_eq_false (h : ∀ c ∈ cs.head?, isBlank c = false) : startsBlank cs = false := by
  cases cs with
  | nil => rfl
  | cons c cs => exact h c rfl

/-- What begins a text that does not begin with white space does not either. -/
theorem startsBlank_of_isPrefix (h : front <+: cs) (hcs : startsBlank cs = false) :
    startsBlank front = false := by
  obtain ⟨back, rfl⟩ := h
  cases front with
  | nil => rfl
  | cons c front => exact hcs

theorem endsBlank_of_isSuffix (h : back <:+ cs) (hcs : endsBlank cs = false) :
    endsBlank back = false := by
  rw [← startsBlank_reverse] at hcs ⊢
  exact startsBlank_of_isPrefix (List.reverse_prefix.mpr h) hcs

/-- A text without any white space has none at its end. -/
theorem endsBlank_of_forall (h : ∀ c ∈ cs, isBlank c = false) : endsBlank cs = false := by
  rw [← startsBlank_reverse]
  exact startsBlank_eq_false fun c hc => h c (List.mem_reverse.mp (List.mem_of_mem_head? hc))

/-- A character that is not white space keeps what follows it from the beginning. -/
theorem startsBlank_append_cons (h : startsBlank front = false) (hc : isBlank c = false)
    (back : List Char) : startsBlank (front ++ c :: back) = false := by
  cases front with
  | nil => simpa [startsBlank] using hc
  | cons d front => exact h

theorem endsBlank_append_cons (h : endsBlank back = false) (hc : isBlank c = false)
    (front : List Char) : endsBlank (front ++ c :: back) = false := by
  have hreverse : (front ++ c :: back).reverse = back.reverse ++ c :: front.reverse := by simp
  rw [← startsBlank_reverse] at h ⊢
  rw [hreverse]
  exact startsBlank_append_cons h hc front.reverse

theorem endsBlank_append (front : List Char) (hne : back ≠ []) :
    endsBlank (front ++ back) = endsBlank back := by
  rw [endsBlank, List.getLast?_append, endsBlank, List.getLast?_eq_some_getLast hne]
  rfl

theorem startsBlank_dropWhile (cs : List Char) : startsBlank (cs.dropWhile isBlank) = false :=
  startsBlank_eq_false (isCut_takeWhile isBlank cs).back

theorem dropWhile_eq_self (h : startsBlank cs = false) : cs.dropWhile isBlank = cs := by
  cases cs with
  | nil => rfl
  | cons c rest =>
    have hc : isBlank c = false := by simpa [startsBlank] using h
    simp [hc]

/-! ## Trimmed texts -/

theorem endsBlank_trimEnd (cs : List Char) : endsBlank (trimEnd cs) = false := by
  rw [trimEnd, ← startsBlank_reverse, List.reverse_reverse]
  exact startsBlank_dropWhile cs.reverse

theorem trimEnd_isPrefix (cs : List Char) : trimEnd cs <+: cs := by
  rw [trimEnd, ← List.reverse_suffix, List.reverse_reverse]
  exact List.dropWhile_suffix isBlank

theorem endsBlank_trim (cs : List Char) : endsBlank (trim cs) = false :=
  endsBlank_trimEnd (trimStart cs)

theorem startsBlank_trim (cs : List Char) : startsBlank (trim cs) = false :=
  startsBlank_of_isPrefix (trimEnd_isPrefix (trimStart cs)) (startsBlank_dropWhile cs)

theorem eq_nil_of_trimStart (h : trimStart cs = []) (hend : endsBlank cs = false) : cs = [] := by
  rcases List.eq_nil_or_concat cs with rfl | ⟨front, c, rfl⟩
  · rfl
  · have hblank : isBlank c = true := List.dropWhile_eq_nil_iff.mp h c (by simp)
    have hlast : isBlank c = false := by simpa [endsBlank] using hend
    exact absurd hblank (by simp [hlast])

/-- White space behind a text that has no blank at its ends is trimmed off. -/
theorem trim_append (hstart : startsBlank cs = false) (hend : endsBlank cs = false)
    (hblanks : ∀ c ∈ blanks, isBlank c = true) : trim (cs ++ blanks) = cs := by
  cases cs with
  | nil =>
    rw [List.nil_append, trim, trimStart, List.dropWhile_eq_nil_iff.mpr hblanks]
    rfl
  | cons c rest =>
    have hfirst : startsBlank (c :: rest ++ blanks) = false := hstart
    have hlast : startsBlank (c :: rest).reverse = false := (startsBlank_reverse _).trans hend
    rw [trim, trimStart, dropWhile_eq_self hfirst, trimEnd, List.reverse_append,
      List.dropWhile_append_of_pos (by simpa using hblanks), dropWhile_eq_self hlast,
      List.reverse_reverse]

/-- A text without blanks at its ends is left as it is. -/
theorem trim_eq_self (hstart : startsBlank cs = false) (hend : endsBlank cs = false) :
    trim cs = cs := by
  have h := trim_append hstart hend (List.forall_mem_nil (isBlank · = true))
  rwa [List.append_nil] at h

/-- What is trimmed off a text that does not begin with white space stands at its end. -/
theorem exists_eq_trim_append (hstart : startsBlank cs = false) :
    ∃ blanks, cs = trim cs ++ blanks ∧ ∀ c ∈ blanks, isBlank c = true := by
  obtain ⟨front, back, hcut, hblank⟩ := exists_isCut isBlank cs.reverse
  refine ⟨front.reverse, ?_, by simpa using hblank.front⟩
  rw [trim, trimStart, dropWhile_eq_self hstart, trimEnd, hcut, hblank.dropWhile_append,
    ← List.reverse_append, ← hcut, List.reverse_reverse]

end Text
end SeriesExec
