import SeriesExec.Tags
import SeriesExec.Wildcard

/-!
# Tag filters — conditions on the tags of a series

This file defines `TagFilter`, a formula over tags, and `TagFilter.test`, whether tags satisfy it.
Two filters are equal when they are built alike; `TagFilter.same` decides that.
-/

namespace SeriesExec

/-- A condition on tags. -/
inductive TagFilter where
  /-- The tag is there, and its value matches the pattern. -/
  | base (key : String) (value : Wildcard)
  | and (parts : List TagFilter)
  | or (parts : List TagFilter)
  /-- The tags are exactly one of the listed ones. -/
  | precise (allowed : List Tags)
  /-- There are no tags. -/
  | untagged
  deriving Inhabited

namespace TagFilter

mutual

/-- Whether the tags satisfy the filter. -/
def test (tags : Tags) : TagFilter → Bool
  | base key value => (tags.get? key).any value.test
  | and parts => testAll tags parts
  | or parts => testAny tags parts
  | precise allowed => allowed.any fun a => a == tags
  | untagged => tags.isEmpty

def testAll (tags : Tags) : List TagFilter → Bool
  | [] => true
  | f :: rest => test tags f && testAll tags rest

def testAny (tags : Tags) : List TagFilter → Bool
  | [] => false
  | f :: rest => test tags f || testAny tags rest

end

mutual

/-- Whether two filters are built alike. -/
def same : TagFilter → TagFilter → Bool
  | base k v, base k' v' => k == k' && v == v'
  | and ps, and ps' => sameAll ps ps'
  | or ps, or ps' => sameAll ps ps'
  | precise ts, precise ts' => ts == ts'
  | untagged, untagged => true
  | _, _ => false

def sameAll : List TagFilter → List TagFilter → Bool
  | [], [] => true
  | f :: rest, g :: rest' => same f g && sameAll rest rest'
  | _, _ => false

end

end TagFilter
end SeriesExec
