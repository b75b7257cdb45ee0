import SeriesExec.Proofs.Blanks
import SeriesExec.Range.Text

/-!
# Spellings — which ranges can be written and read back

A range is written in one of three ways, and the blanks around a written range do not count, so a
range can be written in a way that stands for another one or for none.  This file defines:

* `PathRange.IsRoot` and `PathRange.IsBound` — texts that can stand for a root and for a bound;
* `PathRange.Reads` — the three ways to write a range;
* `PathRange.IsReadable` — the ranges that are written as what they are.

Main statements: a text is read as a range if it is one of its three spellings (`read_eq_ok_iff`),
and the ranges that come back when they are written and read are the readable ones, to which all
ranges belong that have been read (`read_back_iff_readable`).
-/

namespace SeriesExec
namespace PathRange

open Text

variable {cs root front back : List Char} {r : PathRange} {bound : Option String}

/-! ## The three spellings -/

/-- The text can stand for a root. -/
def IsRoot (root : List Char) : Prop :=
  root ≠ [] ∧ ∀ c ∈ root, isSpecial c = false

/-- The text can stand for a bound. -/
def IsBound (cs : List Char) : Prop :=
  ∀ c ∈ cs, c ≠ '-' ∧ isSpecial c = false

instance (root : List Char) : Decidable (IsRoot root) :=
  have := List.decidableBAll (fun c => isSpecial c = false) root
  inferInstanceAs (Decidable (_ ∧ _))

instance (cs : List Char) : Decidable (IsBound cs) :=
  List.decidableBAll _ cs

/-- `Reads cs r`: the text is a way to write the range. -/
inductive Reads : List Char → PathRange → Prop where
  /-- A root with the mark of a subtree. -/
  | marked {root : List Char} (h : IsRoot root) :
      Reads (root ++ subtreeMark) (subtree (String.ofList root))
  /-- A root without hyphens. -/
  | bare {root : List Char} (h : IsRoot root) (hhyphen : '-' ∉ root) :
      Reads root (subtree (String.ofList root))
  /-- Two bounds with a hyphen between them. -/
  | between {front back : List Char} (hfront : IsBound front) (hback : IsBound back) :
      Reads (front ++ '-' :: back) (interval (readBound front) (readBound back))

/-- What is refused on a condition is read if the condition does not hold. -/
theorem refuse_eq_ok_iff {refused : Bool} {f : Fault} {found : PathRange} :
    (if refused then Except.error f else .ok found) = .ok r ↔ refused = false ∧ r = found := by
  cases refused <;> simp [eq_comm]

theorem readSubtree_eq_ok_iff :
    readSubtree root cs = .ok r ↔ IsRoot root ∧ r = subtree (String.ofList root) := by
  have hroot : (root.isEmpty || root.any isSpecial) = false ↔ IsRoot root := by simp [IsRoot]
  rw [readSubtree, refuse_eq_ok_iff, hroot]

theorem IsBound.hyphen_notMem (h : IsBound cs) : '-' ∉ cs := by
  intro hmem
  exact (h '-' hmem).1 rfl

/-- A hyphen between two texts is not what keeps them from being bounds. -/
theorem isBound_pair_iff (hfront : '-' ∉ front) :
    IsBound front ∧ IsBound back ↔
      '-' ∉ back ∧ ∀ c ∈ front ++ '-' :: back, isSpecial c = false := by
  constructor
  · rintro ⟨hf, hb⟩
    refine ⟨hb.hyphen_notMem, fun c hc => ?_⟩
    rcases List.mem_append.mp hc with hc | hc
    · exact (hf c hc).2
    · rcases List.mem_cons.mp hc with rfl | hc
      · rfl
      · exact (hb c hc).2
  · rintro ⟨hback, hplain⟩
    constructor
    · intro c hc
      exact ⟨fun heq => hfront (heq ▸ hc), hplain c (List.mem_append_left _ hc)⟩
    · intro c hc
      have hmem : c ∈ front ++ '-' :: back := List.mem_append_right _ (List.mem_cons_of_mem _ hc)
      exact ⟨fun heq => hback (heq ▸ hc), hplain c hmem⟩

theorem readInterval_eq_ok_iff (hfront : '-' ∉ front) :
    readInterval front back (front ++ '-' :: back) = .ok r ↔
      (IsBound front ∧ IsBound back) ∧ r = interval (readBound front) (readBound back) := by
  have hbounds : (back.contains '-' || (front ++ '-' :: back).any isSpecial) = false ↔
      IsBound front ∧ IsBound back := by
    rw [isBound_pair_iff hfront, Bool.or_eq_false_iff, List.any_eq_false]
    simp only [Bool.not_eq_true, List.contains_eq_mem, decide_eq_false_iff_not]
  rw [readInterval, refuse_eq_ok_iff, hbounds]

/-! ## Reading -/

theorem marked_iff : subtreeMark.isSuffixOf cs = true ↔ ∃ root, cs = root ++ subtreeMark := by
  rw [List.isSuffixOf_iff_suffix]
  constructor
  · rintro ⟨root, h⟩
    exact ⟨root, h.symm⟩
  · rintro ⟨root, rfl⟩
    exact List.suffix_append root subtreeMark

/-- No bound and no root ends with the mark of a subtree. -/
theorem not_marked (h : ∀ c ∈ cs, isSpecial c = false) : ¬ subtreeMark.isSuffixOf cs = true := by
  intro hmark
  obtain ⟨root, rfl⟩ := marked_iff.mp hmark
  have hstar : isSpecial '*' = false := h '*' (by simp [subtreeMark])
  exact absurd hstar (by decide)

theorem read_marked (root : List Char) :
    read (root ++ subtreeMark) = readSubtree root (root ++ subtreeMark) := by
  have hmark : subtreeMark.isSuffixOf (root ++ subtreeMark) = true := marked_iff.mpr ⟨root, rfl⟩
  rw [read, if_pos hmark]
  simp

theorem read_bare (hmark : ¬ subtreeMark.isSuffixOf cs = true) (hhyphen : '-' ∉ cs) :
    read cs = readSubtree cs cs := by
  have hdrop : cs.dropWhile (· != '-') = [] :=
    List.dropWhile_eq_nil_iff.mpr (bne_of_notMem hhyphen)
  rw [read, if_neg hmark, hdrop]

theorem read_between (hmark : ¬ subtreeMark.isSuffixOf (front ++ '-' :: back) = true)
    (hfront : '-' ∉ front) :
    read (front ++ '-' :: back) = readInterval front back (front ++ '-' :: back) := by
  have hother := bne_of_notMem hfront
  rw [read, if_neg hmark, List.dropWhile_append_of_pos hother, List.takeWhile_append_of_pos hother]
  simp

/-- A text without blanks around it is read as a range if it is a way to write the range. -/
theorem read_eq_ok_iff : read cs = .ok r ↔ Reads cs r := by
  constructor
  · intro h
    by_cases hmark : subtreeMark.isSuffixOf cs = true
    · obtain ⟨root, rfl⟩ := marked_iff.mp hmark
      rw [read_marked, readSubtree_eq_ok_iff] at h
      obtain ⟨hroot, rfl⟩ := h
      exact .marked hroot
    · by_cases hhyphen : '-' ∈ cs
      · -- The text is cut at its first hyphen; a second one is in the way.
        obtain ⟨front, back, rfl, hfront⟩ := List.eq_append_cons_of_mem hhyphen
        rw [read_between hmark hfront, readInterval_eq_ok_iff hfront] at h
        obtain ⟨⟨hf, hb⟩, rfl⟩ := h
        exact .between hf hb
      · rw [read_bare hmark hhyphen, readSubtree_eq_ok_iff] at h
        obtain ⟨hroot, rfl⟩ := h
        exact .bare hroot hhyphen
  · intro h
    cases h with
    | marked hroot =>
      rw [read_marked, readSubtree_eq_ok_iff]
      exact ⟨hroot, rfl⟩
    | bare hroot hhyphen =>
      rw [read_bare (not_marked hroot.2) hhyphen, readSubtree_eq_ok_iff]
      exact ⟨hroot, rfl⟩
    | between hf hb =>
      have hplain := ((isBound_pair_iff hf.hyphen_notMem).mp ⟨hf, hb⟩).2
      rw [read_between (not_marked hplain) hf.hyphen_notMem,
        readInterval_eq_ok_iff hf.hyphen_notMem]
      exact ⟨⟨hf, hb⟩, rfl⟩

theorem parse_eq_ok_iff {s : String} : parse s = .ok r ↔ Reads (trim s.toList) r :=
  read_eq_ok_iff

/-! ## Writing -/

/-- How a bound is written. -/
def boundText (bound : Option String) : List Char :=
  (bound.getD unbounded).toList

theorem toList_render_interval (start stop : Option String) :
    (interval start stop).render.toList = boundText start ++ '-' :: boundText stop := by
  simp [render, boundText]

theorem toList_render_subtree (root : String) :
    (subtree root).render.toList = root.toList ++ subtreeMark := by
  simp [render]

/-- A bound comes back unless it is the word for a missing one. -/
theorem readBound_boundText (h : ∀ b ∈ bound, b ≠ unbounded) :
    readBound (boundText bound) = bound := by
  cases bound with
  | none => simp [readBound, boundText]
  | some b =>
    have hb : b ≠ unbounded := h b rfl
    simp [readBound, boundText, hb]

/-- A bound that is there has the text that it was read from, which is not the word for a missing
one. -/
theorem of_mem_readBound {b : String} (h : b ∈ readBound cs) : b.toList = cs ∧ b ≠ unbounded := by
  rw [readBound, Option.mem_def] at h
  split at h
  · cases h
  · rename_i hne
    obtain rfl := Option.some.inj h
    exact ⟨String.toList_ofList, hne⟩

/-- The range is written as what it is. -/
def IsReadable : PathRange → Prop
  | interval start stop =>
    (∀ b ∈ start, IsBound b.toList ∧ b ≠ unbounded ∧ startsBlank b.toList = false) ∧
      ∀ b ∈ stop, IsBound b.toList ∧ b ≠ unbounded ∧ endsBlank b.toList = false
  | subtree root => IsRoot root.toList ∧ startsBlank root.toList = false

instance (r : PathRange) : Decidable r.IsReadable :=
  match r with
  | interval _ _ => inferInstanceAs (Decidable (_ ∧ _))
  | subtree _ => inferInstanceAs (Decidable (_ ∧ _))

/-- What has been read from a text without blanks around it is readable. -/
theorem Reads.isReadable (h : Reads cs r) (hstart : startsBlank cs = false)
    (hend : endsBlank cs = false) : r.IsReadable := by
  cases h with
  | marked hroot =>
    rw [IsReadable, String.toList_ofList]
    exact ⟨hroot, startsBlank_of_isPrefix (List.prefix_append _ _) hstart⟩
  | bare hroot hhyphen =>
    rw [IsReadable, String.toList_ofList]
    exact ⟨hroot, hstart⟩
  | @between front back hf hb =>
    constructor
    · intro b hmem
      obtain ⟨htext, hne⟩ := of_mem_readBound hmem
      rw [htext]
      exact ⟨hf, hne, startsBlank_of_isPrefix (List.prefix_append _ _) hstart⟩
    · intro b hmem
      obtain ⟨htext, hne⟩ := of_mem_readBound hmem
      rw [htext]
      have hsuffix : back <:+ front ++ '-' :: back :=
        List.suffix_append_of_suffix (List.suffix_cons _ _)
      exact ⟨hb, hne, endsBlank_of_isSuffix hsuffix hend⟩

theorem isReadable_of_parse {s : String} (h : parse s = .ok r) : r.IsReadable :=
  (parse_eq_ok_iff.mp h).isReadable (startsBlank_trim _) (endsBlank_trim _)

/-- What the word for a missing bound and the bounds have, a written bound has. -/
theorem boundText_induction {P : List Char → Prop} (hword : P unbounded.toList)
    (h : ∀ b ∈ bound, P b.toList) : P (boundText bound) := by
  cases bound with
  | none => exact hword
  | some b => exact h b rfl

/-- A readable range is written in one of the three ways, and without blanks around it. -/
theorem IsReadable.reads (h : r.IsReadable) :
    Reads r.render.toList r ∧ trim r.render.toList = r.render.toList := by
  cases r with
  | interval start stop =>
    obtain ⟨hstart, hstop⟩ := h
    have hword : IsBound unbounded.toList := by decide
    have hreads : Reads (boundText start ++ '-' :: boundText stop)
        (interval (readBound (boundText start)) (readBound (boundText stop))) :=
      .between (boundText_induction hword fun b hb => (hstart b hb).1)
        (boundText_induction hword fun b hb => (hstop b hb).1)
    rw [readBound_boundText fun b hb => (hstart b hb).2.1,
      readBound_boundText fun b hb => (hstop b hb).2.1] at hreads
    rw [toList_render_interval]
    refine ⟨hreads, trim_eq_self ?_ ?_⟩
    · have hblank : startsBlank (boundText start) = false :=
        boundText_induction (P := fun cs => startsBlank cs = false) (by decide)
          fun b hb => (hstart b hb).2.2
      exact startsBlank_append_cons hblank (by decide) _
    · have hblank : endsBlank (boundText stop) = false :=
        boundText_induction (P := fun cs => endsBlank cs = false) (by decide)
          fun b hb => (hstop b hb).2.2
      exact endsBlank_append_cons hblank (by decide) _
  | subtree root =>
    obtain ⟨hroot, hstart⟩ := h
    have hreads := Reads.marked hroot
    rw [String.ofList_toList] at hreads
    rw [toList_render_subtree]
    refine ⟨hreads, trim_eq_self ?_ ?_⟩
    · exact startsBlank_append_cons hstart (by decide) ['*']
    · have hstar : endsBlank ['*'] = false := by decide
      exact endsBlank_append_cons hstar (by decide) root.toList

theorem IsReadable.parse_render (h : r.IsReadable) : parse r.render = .ok r := by
  obtain ⟨hreads, htrim⟩ := h.reads
  rw [parse_eq_ok_iff, htrim]
  exact hreads

/-- A range that has been read from any text comes back when it is written and read again.  Of all
ranges those come back that are readable: subtrees whose root is not empty, has no special character
and does not begin with white space, and intervals of which each bound that is there has no hyphen
and no special character and is not the word for a missing one, the first one not beginning and the
second one not ending with white space. -/
theorem read_back_iff_readable :
    (∀ (s : String) (r : PathRange), parse s = .ok r → parse r.render = .ok r) ∧
    ∀ r : PathRange, parse r.render = .ok r ↔ r.IsReadable := by
  constructor
  · intro s r h
    exact (isReadable_of_parse h).parse_render
  · intro r
    constructor
    · intro h
      exact isReadable_of_parse h
    · intro h
      exact h.parse_render

/-- A bound that ends with a blank, in front of the word for a missing bound, and this word as a
bound. -/
theorem read_back_iff_readable_sample :
    parse (interval (some "a ") none).render = .ok (interval (some "a ") none) ∧
    parse (interval (some "null") none).render ≠ .ok (interval (some "null") none) := by
  obtain ⟨hback, hiff⟩ := read_back_iff_readable
  constructor
  · exact hback " a -null\n" _ (by decide)
  · intro h
    exact absurd ((hiff _).mp h) (by decide)

end PathRange
end SeriesExec
