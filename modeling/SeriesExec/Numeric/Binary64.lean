/-!
# Binary64 — sums of decimal numbers in double precision

Durations are added up in binary floating point, so a long fraction may be rounded on the way.
Only numbers that are zero or positive occur.  This file defines:

* `divEven` — a quotient rounded to the nearest natural number, halves to the even neighbour;
* `Binary64` — a number of the format, as a multiple of the smallest one (`2 ^ -1074`), or infinity;
* `Binary64.ofRatio` — the nearest number of the format, halves to the even neighbour;
* `Binary64.ofDecimal`, `Binary64.scale`, `Binary64.add`, `Binary64.toUInt64` — the arithmetic;
* `Binary64.whole` — a whole number in units, and `Binary64.Fits` — whether it needs no more bits
  than the format has.

Main statement: a number with at most 53 significant bits is kept as it is
(`ofRatio_shiftLeft`), so sums and products of that size are exact (`add_whole`, `scale_whole`).
-/

namespace SeriesExec

/-- The quotient rounded to the nearest natural number; a half goes to the even neighbour. -/
def divEven (n d : Nat) : Nat :=
  if 2 * (n % d) < d then n / d
  else if d < 2 * (n % d) then n / d + 1
  else n / d + n / d % 2

/-- A number of the double precision format that is zero or positive. -/
inductive Binary64 where
  /-- The number `units * 2 ^ -1074`. -/
  | finite (units : Nat)
  | infinite
  deriving DecidableEq, Repr, Inhabited

namespace Binary64

/-- How many units the number one has. -/
def one : Nat := 1 <<< 1074

/-- The number of units from which on a number is infinite. -/
def overflow : Nat := 1 <<< 2098

/-- The number nearest to `n / d` units: 53 significant bits are kept. -/
def ofRatio (n d : Nat) : Binary64 :=
  -- A quotient of up to 53 bits keeps them all.  Rounding may carry into one more bit, and those
  -- behind it are then zero.
  let dropped := Nat.log2 (n / d) - 52
  let units := divEven n (d <<< dropped) <<< dropped
  if units < overflow then finite units else infinite

/-- The number nearest to `digits / 10 ^ places`. -/
def ofDecimal (digits places : Nat) : Binary64 :=
  ofRatio (digits * one) (Nat.pow 10 places)

/-- The product with a positive whole number. -/
def scale (factor : Nat) : Binary64 → Binary64
  | finite u => ofRatio (u * factor) 1
  | infinite => infinite

def add : Binary64 → Binary64 → Binary64
  | finite u, finite v => ofRatio (u + v) 1
  | _, _ => infinite

/-- The whole part; the largest word if it does not fit. -/
def toUInt64 : Binary64 → UInt64
  | finite u => UInt64.ofNat (min (u / one) (UInt64.size - 1))
  | infinite => UInt64.ofNat (UInt64.size - 1)

theorem divEven_of_dvd {n d : Nat} (hd : 0 < d) (h : d ∣ n) : divEven n d = n / d := by
  have hmod : n % d = 0 := Nat.mod_eq_zero_of_dvd h
  simp [divEven, hmod, hd]

/-- A whole number of units that needs no more than 53 significant bits is not rounded. -/
theorem ofRatio_eq_of_dvd {n : Nat} (hdvd : 1 <<< (Nat.log2 n - 52) ∣ n) (hover : n < overflow) :
    ofRatio n 1 = finite n := by
  have hpos : 0 < 1 <<< (Nat.log2 n - 52) := by
    rw [Nat.one_shiftLeft]
    exact Nat.two_pow_pos _
  have hunits :
      divEven n (1 <<< (Nat.log2 n - 52)) <<< (Nat.log2 n - 52) = n := by
    rw [divEven_of_dvd hpos hdvd, Nat.shiftLeft_eq, ← Nat.one_shiftLeft]
    exact Nat.div_mul_cancel hdvd
  simp [ofRatio, hunits, hover]

/-- A number of at most 53 bits, at whatever power of two it is counted, is not rounded. -/
theorem ofRatio_shiftLeft {k s : Nat} (hk : k < 9007199254740992) (hover : k <<< s < overflow) :
    ofRatio (k <<< s) 1 = finite (k <<< s) := by
  refine ofRatio_eq_of_dvd ?_ hover
  rcases Nat.eq_zero_or_pos k with rfl | hpos
  · simp
  rw [Nat.one_shiftLeft, Nat.shiftLeft_eq]
  have hlt : k * 2 ^ s < 2 ^ (53 + s) := by
    rw [Nat.pow_add]
    exact Nat.mul_lt_mul_of_pos_right hk (Nat.two_pow_pos s)
  have hne : k * 2 ^ s ≠ 0 := Nat.mul_ne_zero (Nat.pos_iff_ne_zero.mp hpos) (by simp)
  have hlog : Nat.log2 (k * 2 ^ s) < 53 + s := (Nat.log2_lt hne).mpr hlt
  exact Nat.dvd_trans (Nat.pow_dvd_pow 2 (by omega)) (Nat.dvd_mul_left _ _)

/-! ## Whole numbers -/

/-- A whole number in units. -/
def whole (n : Nat) : Binary64 := finite (n * one)

/-- The number has at most 53 significant bits. -/
def Fits (n : Nat) : Prop :=
  ∃ k s, k < 9007199254740992 ∧ n = k <<< s

theorem fits_of_le {n : Nat} (h : n ≤ 9007199254740992) : Fits n := by
  rcases Nat.lt_or_eq_of_le h with hlt | rfl
  · exact ⟨n, 0, hlt, rfl⟩
  · exact ⟨1, 53, by decide, rfl⟩

theorem one_pos : 0 < one := by
  rw [one, Nat.one_shiftLeft]
  exact Nat.two_pow_pos 1074

theorem mul_one_eq (n : Nat) : n * one = n <<< 1074 := by
  rw [one, Nat.one_shiftLeft, Nat.shiftLeft_eq]

/-- Every whole number that fits a word is finite. -/
theorem mul_one_lt_overflow {n : Nat} (h : n < UInt64.size) : n * one < overflow := by
  have hover : overflow = (1 <<< 64 * one) <<< 960 := by
    rw [mul_one_eq]
    exact (Nat.shiftLeft_add 1 64 2034).trans (Nat.shiftLeft_add (1 <<< 64) 1074 960)
  calc n * one < 1 <<< 64 * one := Nat.mul_lt_mul_of_pos_right h one_pos
    _ ≤ (1 <<< 64 * one) <<< 960 := Nat.le_shiftLeft
    _ = overflow := hover.symm

theorem ofRatio_whole {n : Nat} (hfits : Fits n) (h : n < UInt64.size) :
    ofRatio (n * one) 1 = whole n := by
  have hover := mul_one_lt_overflow h
  obtain ⟨k, s, hk, rfl⟩ := hfits
  have hshift : k <<< s * one = k <<< (s + 1074) := by
    rw [mul_one_eq, Nat.shiftLeft_add]
  rw [hshift] at hover
  rw [whole, hshift]
  exact ofRatio_shiftLeft hk hover

theorem ofDecimal_whole {n : Nat} (hfits : Fits n) (h : n < UInt64.size) :
    ofDecimal n 0 = whole n := by
  rw [ofDecimal]
  exact ofRatio_whole hfits h

theorem scale_whole {n factor : Nat} (hfits : Fits (n * factor)) (h : n * factor < UInt64.size) :
    (whole n).scale factor = whole (n * factor) := by
  rw [← ofRatio_whole hfits h, whole, scale, Nat.mul_right_comm]

theorem add_whole {m n : Nat} (hfits : Fits (m + n)) (h : m + n < UInt64.size) :
    (whole m).add (whole n) = whole (m + n) := by
  rw [← ofRatio_whole hfits h, whole, whole, add, Nat.add_mul]

theorem toUInt64_whole (m : UInt64) : (whole m.toNat).toUInt64 = m := by
  have hle : m.toNat ≤ UInt64.size - 1 := Nat.le_pred_of_lt m.toNat_lt_size
  rw [whole, toUInt64, Nat.mul_div_cancel _ one_pos, Nat.min_eq_left hle]
  exact UInt64.ofNat_toNat

end Binary64
end SeriesExec
