/-!
# Digest — spreading bytes over the 64-bit words

Reads are spread over the members of a group by a fixed hash of some bytes.  Four words are mixed
in turn with the bytes, eight at a time and the lowest first, and folded together in the end.  This
file defines `Digest.diffuse`, the mixing of one word, and `digest`, the hash of a list of bytes.
-/

namespace SeriesExec
namespace Digest

/-- An invertible mixing of a word. -/
def diffuse (x : UInt64) : UInt64 :=
  let y := x * 0x6eed0e9da4d94a4f
  let z := y ^^^ ((y >>> 32) >>> (y >>> 60))
  z * 0x6eed0e9da4d94a4f

/-- The four words that are mixed, the next one first. -/
structure Lanes where
  a : UInt64
  b : UInt64
  c : UInt64
  d : UInt64
  deriving DecidableEq, Repr

def start : Lanes :=
  ⟨0x16f11fe89b0d677c, 0xb480a793d8e6c86c, 0x6fe2e5aaf078ebc9, 0x14f994a4c5259381⟩

/-- Mixes a word into the next lane, which then becomes the last. -/
def Lanes.absorb (l : Lanes) (word : UInt64) : Lanes :=
  ⟨l.b, l.c, l.d, diffuse (l.a ^^^ word)⟩

/-- The word whose lowest byte is the first of the list. -/
def word (bytes : List UInt8) : UInt64 :=
  bytes.foldr (fun byte w => w * 256 + byte.toUInt64) 0

/-- Cuts bytes into groups of eight; the last group may be shorter. -/
def chunks (bytes : List UInt8) : List (List UInt8) :=
  if bytes.isEmpty then []
  else bytes.take 8 :: chunks (bytes.drop 8)
termination_by bytes.length
decreasing_by
  rename_i h
  have : bytes.length ≠ 0 := fun h' => h (by simp [List.length_eq_zero_iff.mp h'])
  simp only [List.length_drop]
  omega

end Digest

/-- The hash of a list of bytes. -/
def digest (bytes : List UInt8) : UInt64 :=
  let l := (Digest.chunks bytes).foldl (fun l chunk => l.absorb (Digest.word chunk)) Digest.start
  -- The length tells bytes apart that differ only in zeros at the end, which fill up the last
  -- group.
  Digest.diffuse (l.a ^^^ l.b ^^^ l.c ^^^ l.d ^^^ UInt64.ofNat bytes.length)

end SeriesExec
