import SeriesExec.Duration.Basic
import SeriesExec.Numeric.Binary64
import SeriesExec.Text.Blank

/-!
# Duration text — `1d2h3m4s5ms`

A written duration is a row of segments, each a decimal number and a unit, with the units in
falling order.  This file defines:

* `TimeUnit` — day, hour, minute, second and millisecond, with their symbols and lengths;
* `Duration.readSegments` — the segments of a text, with the exact ways in which it can be wrong;
* `Duration.parse` — the duration that a text stands for, summed in double precision;
* `Duration.segments` and `Duration.render` — the written form of a duration.

Main statement: reading a segment uses up part of the text (`length_of_readSegment`), so the
reader ends on every text.
-/

namespace SeriesExec

/-! ## Units -/

/-- The units of a written duration. -/
inductive TimeUnit where
  | day
  | hour
  | minute
  | second
  | millisecond
  deriving DecidableEq, Repr

namespace TimeUnit

/-- All units, the longest first: the order in which they are written. -/
def all : List TimeUnit :=
  [day, hour, minute, second, millisecond]

def symbol : TimeUnit → List Char
  | day => ['d']
  | hour => ['h']
  | minute => ['m']
  | second => ['s']
  | millisecond => ['m', 's']

/-- The length of a unit in milliseconds. -/
def millis : TimeUnit → Nat
  | day => 86400000
  | hour => 3600000
  | minute => 60000
  | second => 1000
  | millisecond => 1

/-- The place of a unit in the written order. -/
def rank : TimeUnit → Nat
  | day => 0
  | hour => 1
  | minute => 2
  | second => 3
  | millisecond => 4

/-- The unit with this symbol. -/
def ofSymbol? (cs : List Char) : Option TimeUnit :=
  all.find? fun u => u.symbol == cs

theorem symbol_of_ofSymbol? {cs : List Char} {u : TimeUnit} (h : ofSymbol? cs = some u) :
    u.symbol = cs := by
  have := List.find?_some h
  simpa using this

theorem symbol_ne_nil (u : TimeUnit) : u.symbol ≠ [] := by
  cases u <;> simp [symbol]

end TimeUnit

namespace Duration

/-! ## Reading -/

/-- A decimal number: its digits as one natural number, and how many of them follow the dot. -/
structure Decimal where
  digits : Nat
  places : Nat
  deriving DecidableEq, Repr

/-- One part of a written duration. -/
structure Segment where
  number : Decimal
  unit : TimeUnit
  deriving DecidableEq, Repr

/-- What can be wrong with a written duration; the texts are those the reader was given, trimmed. -/
inductive ReadError where
  | empty
  | missingUnit (text : String)
  | invalidNumber (text : String)
  | unknownUnit (unit : String)
  | unordered (text : String)
  deriving DecidableEq, Repr

def ReadError.message : ReadError → String
  | empty => "empty duration"
  | missingUnit text => "missing unit in duration: " ++ text
  | invalidNumber text => "invalid number in duration: " ++ text
  | unknownUnit unit => "unknown unit \"" ++ unit ++ "\", only d, h, m, s, ms are supported"
  | unordered text => "units must appear in order d, h, m, s, ms: " ++ text

/-- Characters that may stand in the number of a segment, or between it and the unit. -/
def isNumberChar (c : Char) : Bool :=
  c.isDigit || c == '.' || c == ' '

/-- The natural number that a row of digits stands for. -/
def digitsValue (cs : List Char) : Nat :=
  cs.foldl (fun n c => n * 10 + (c.toNat - '0'.toNat)) 0

/-- A number with at least one digit and at most one dot, and nothing else. -/
def Decimal.ofChars? (cs : List Char) : Option Decimal :=
  let whole := cs.takeWhile Char.isDigit
  match cs.dropWhile Char.isDigit with
  | [] => if whole.isEmpty then none else some ⟨digitsValue whole, 0⟩
  | c :: fraction =>
    if c == '.' && fraction.all Char.isDigit && !(whole.isEmpty && fraction.isEmpty) then
      some ⟨digitsValue (whole ++ fraction), fraction.length⟩
    else none

/-- Reads the first segment of a text that is not empty; `text` is what errors quote.
The rest has no leading blanks. -/
def readSegment (text : String) (rest : List Char) : Except ReadError (Segment × List Char) :=
  match rest.dropWhile isNumberChar with
  | [] => .error (.missingUnit text)
  | after@(_ :: _) =>
    match Decimal.ofChars? (Text.trim (rest.takeWhile isNumberChar)) with
    | none => .error (.invalidNumber text)
    | some number =>
      match TimeUnit.ofSymbol? (after.takeWhile Char.isAlpha) with
      | none => .error (.unknownUnit (String.ofList (after.takeWhile Char.isAlpha)))
      | some unit => .ok (⟨number, unit⟩, Text.trimStart (after.dropWhile Char.isAlpha))

theorem length_dropWhile_le (p : Char → Bool) (cs : List Char) :
    (cs.dropWhile p).length ≤ cs.length :=
  (List.dropWhile_suffix p).length_le

/-- A segment that was read is part of the text: what is left is shorter. -/
theorem length_of_readSegment {text : String} {rest left : List Char} {seg : Segment}
    (h : readSegment text rest = .ok (seg, left)) : left.length < rest.length := by
  unfold readSegment at h
  split at h
  · cases h
  · rename_i after c cs hafter
    split at h
    · cases h
    · split at h
      · cases h
      · rename_i unit hunit
        have hleft : left = Text.trimStart ((c :: cs).dropWhile Char.isAlpha) := by
          injection h with h
          exact (Prod.mk.inj h).2.symm
        have hc : c.isAlpha = true := by
          cases hcase : c.isAlpha with
          | true => rfl
          | false =>
            have hnil := TimeUnit.symbol_of_ofSymbol? hunit
            rw [List.takeWhile_cons_of_neg (by simp [hcase])] at hnil
            exact absurd hnil unit.symbol_ne_nil
        have h₁ : left.length ≤ ((c :: cs).dropWhile Char.isAlpha).length := by
          rw [hleft]
          exact length_dropWhile_le _ _
        have h₂ : ((c :: cs).dropWhile Char.isAlpha).length ≤ cs.length := by
          rw [List.dropWhile_cons_of_pos hc]
          exact length_dropWhile_le _ _
        have h₃ : (c :: cs).length ≤ rest.length := by
          rw [← hafter]
          exact length_dropWhile_le _ _
        simp only [List.length_cons] at h₃
        omega

/-- The segments of a text whose first unit must have at least the rank `least`. -/
def readSegments (text : String) (least : Nat) (rest : List Char) :
    Except ReadError (List Segment) :=
  if rest.isEmpty then .ok []
  else
    match h : readSegment text rest with
    | .error e => .error e
    | .ok (seg, left) =>
      if seg.unit.rank < least then .error (.unordered text)
      else (readSegments text (seg.unit.rank + 1) left).map (seg :: ·)
termination_by rest.length
decreasing_by exact length_of_readSegment h

/-- The sum of the segments in milliseconds, in double precision. -/
def total (segs : List Segment) : Binary64 :=
  segs.foldl
    (fun sum seg => sum.add ((Binary64.ofDecimal seg.number.digits seg.number.places).scale
      seg.unit.millis))
    (.finite 0)

/-- Reads a written duration; blanks around it do not count. -/
def parse (s : String) : Except ReadError Duration :=
  let rest := Text.trim s.toList
  if rest.isEmpty then .error .empty
  else (readSegments (String.ofList rest) 0 rest).map fun segs => ofMillis (total segs).toUInt64

/-! ## Writing -/

/-- Splits a number of milliseconds over the units, leaving out those that do not occur. -/
def split (left : Nat) : List TimeUnit → List (Nat × TimeUnit)
  | [] => []
  | u :: us =>
    if u.millis ≤ left then (left / u.millis, u) :: split (left % u.millis) us
    else split left us

/-- The parts of the written form of a number of milliseconds. -/
def segments (millis : UInt64) : List (Nat × TimeUnit) :=
  split millis.toNat TimeUnit.all

/-- The text of one part: its number in decimal digits, and the symbol of its unit. -/
def renderPart (part : Nat × TimeUnit) : List Char :=
  Nat.toDigits 10 part.1 ++ part.2.symbol

/-- The written form of a number of milliseconds; nothing at all is written as `0s`. -/
def renderMillis (millis : UInt64) : List Char :=
  if millis = 0 then ['0', 's'] else (segments millis).flatMap renderPart

/-- The written form of a duration, in whole milliseconds. -/
def render (d : Duration) : String :=
  String.ofList (renderMillis d.millis)

end Duration
end SeriesExec
