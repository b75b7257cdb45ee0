import SeriesExec.Error
import SeriesExec.Range.Basic
import SeriesExec.Text.Blank

/-!
# Range text — `a-b`, `null-b`, `a.*`

An interval is written with a hyphen between its bounds, a missing bound as the word `null`, and a
subtree as its root with `.*` behind it.  This file defines:

* `PathRange.render` — the written form;
* `PathRange.parse` — the range that a text stands for; the root of a subtree may stand alone,
  unless it contains a hyphen.
-/

namespace SeriesExec
namespace PathRange

/-- How a missing bound is written. -/
def unbounded : String := "null"

/-- What stands behind the root of a subtree. -/
def subtreeMark : List Char := ['.', '*']

def render : PathRange → String
  | interval start stop => start.getD unbounded ++ "-" ++ stop.getD unbounded
  | subtree root => root ++ String.ofList subtreeMark

/-- Characters that a written range must not contain, apart from the mark of a subtree. -/
def isSpecial (c : Char) : Bool :=
  ['*', '?', '[', ']', '\x7b', '\x7d', '(', ')', '|', '^', '$', '\\'].contains c

/-- The bound that a text stands for. -/
def readBound (cs : List Char) : Option String :=
  if String.ofList cs = unbounded then none else some (String.ofList cs)

/-- The subtree below a root; `whole` is what an error quotes. -/
def readSubtree (root whole : List Char) : Except Fault PathRange :=
  if root.isEmpty || root.any isSpecial then .error (.badSubtree (String.ofList whole))
  else .ok (subtree (String.ofList root))

/-- The interval between two bounds, with a hyphen between them in `whole`. -/
def readInterval (start stop whole : List Char) : Except Fault PathRange :=
  if stop.contains '-' || whole.any isSpecial then .error (.badInterval (String.ofList whole))
  else .ok (interval (readBound start) (readBound stop))

/-- Reads a text that has no blanks around it. -/
def read (cs : List Char) : Except Fault PathRange :=
  if subtreeMark.isSuffixOf cs then readSubtree (cs.take (cs.length - subtreeMark.length)) cs
  else
    -- The first hyphen is the one between the bounds; without any the text is a root.
    match cs.dropWhile (· != '-') with
    | [] => readSubtree cs cs
    | _ :: stop => readInterval (cs.takeWhile (· != '-')) stop cs

/-- Reads a written range; blanks around it do not count. -/
def parse (s : String) : Except Fault PathRange :=
  read (Text.trim s.toList)

end PathRange
end SeriesExec
