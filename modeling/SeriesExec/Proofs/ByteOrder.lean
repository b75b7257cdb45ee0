import Mathlib.Data.Char
import Mathlib.Data.List.Basic
import Mathlib.Data.String.Basic

/-!
# Byte order — texts compared by their bytes

Maps keep their keys in the order of texts, which compares characters.  The encoding of a text as
bytes was made so that comparing bytes gives the same order, and this is what a reader of sorted
answers relies on.  This file defines `Text.bytes`, the bytes of a text.

Main statement: a text that comes before another one comes before it byte by byte
(`bytes_lt_bytes`).
-/

namespace SeriesExec
namespace Text

/-- The bytes of a text. -/
def bytes (s : String) : List UInt8 :=
  s.toUTF8.data.toList

theorem bytes_eq_flatMap (s : String) : bytes s = s.toList.flatMap String.utf8EncodeChar := by
  have hdata : s.toUTF8 = (s.toList.flatMap String.utf8EncodeChar).toByteArray :=
    calc s.toUTF8 = (String.ofList s.toList).toByteArray := by rw [String.ofList_toList]; rfl
      _ = s.toList.utf8Encode := String.toByteArray_ofList
  rw [bytes, hdata, List.data_toByteArray, List.toList_toArray]

/-! ## Characters -/

theorem ofNat_lt_ofNat {m n : Nat} (hm : m < 256) (hn : n < 256) :
    UInt8.ofNat m < UInt8.ofNat n ↔ m < n := by
  rw [UInt8.lt_iff_toNat_lt, UInt8.toNat_ofNat', UInt8.toNat_ofNat', Nat.mod_eq_of_lt hm,
    Nat.mod_eq_of_lt hn]

theorem ofNat_eq_ofNat {m n : Nat} (hm : m < 256) (hn : n < 256) :
    UInt8.ofNat m = UInt8.ofNat n ↔ m = n := by
  rw [← UInt8.toNat_inj, UInt8.toNat_ofNat', UInt8.toNat_ofNat', Nat.mod_eq_of_lt hm,
    Nat.mod_eq_of_lt hn]

/-- Of two numbers the lesser has the lesser part above the last six bits, or the same one and the
lesser last six bits. -/
theorem div_lt_or {m n : Nat} (h : m < n) :
    m / 64 < n / 64 ∨ m / 64 = n / 64 ∧ m % 64 < n % 64 := by
  omega

/-- The same with the number in four parts, as it is spread over four bytes. -/
theorem parts_lt_or {m n : Nat} (h : m < n) :
    m / 262144 < n / 262144 ∨ m / 262144 = n / 262144 ∧
      (m / 4096 % 64 < n / 4096 % 64 ∨ m / 4096 % 64 = n / 4096 % 64 ∧
        (m / 64 % 64 < n / 64 % 64 ∨ m / 64 % 64 = n / 64 % 64 ∧ m % 64 < n % 64)) := by
  have hthree : ∀ k : Nat, k / 64 / 64 = k / 4096 := fun k => Nat.div_div_eq_div_mul k 64 64
  have hfour : ∀ k : Nat, k / 4096 / 64 = k / 262144 := fun k => Nat.div_div_eq_div_mul k 4096 64
  rcases div_lt_or h with h₁ | ⟨h₁, hlast⟩
  · rcases div_lt_or h₁ with h₂ | ⟨h₂, hthird⟩
    · rw [hthree, hthree] at h₂
      rcases div_lt_or h₂ with h₃ | ⟨h₃, hsecond⟩
      · rw [hfour, hfour] at h₃
        exact .inl h₃
      · rw [hfour, hfour] at h₃
        exact .inr ⟨h₃, .inl hsecond⟩
    · rw [hthree, hthree] at h₂
      exact .inr ⟨by omega, .inr ⟨congrArg (· % 64) h₂, .inl hthird⟩⟩
  · exact .inr ⟨by omega, .inr ⟨by omega, .inr ⟨congrArg (· % 64) h₁, hlast⟩⟩⟩

/-- The bytes of a character come before those of a greater one, whatever follows. -/
theorem utf8EncodeChar_append_lt {c d : Char} (h : c < d) (xs ys : List UInt8) :
    String.utf8EncodeChar c ++ xs < String.utf8EncodeChar d ++ ys := by
  have hlt : c.val.toNat < d.val.toNat := h
  have hd : d.val.toNat < 1114112 := by
    rcases d.valid with hd | hd
    · exact Nat.lt_trans hd (by decide)
    · exact hd.2
  have hparts := parts_lt_or hlt
  unfold String.utf8EncodeChar
  generalize c.val.toNat = m at hlt hparts
  generalize d.val.toNat = n at hlt hparts hd
  dsimp only
  by_cases hm : m ≤ 65535
  -- The first byte tells how many there are, so only characters of as many bytes share it.
  · clear hparts
    split_ifs
    all_goals
      simp (disch := omega) only [List.cons_append, List.nil_append, List.cons_lt_cons_iff,
        ofNat_lt_ofNat, ofNat_eq_ofNat]
      omega
  · have hnot : ∀ k, k ≤ 65535 → ¬ m ≤ k ∧ ¬ n ≤ k := fun k hk => by omega
    simp only [hnot 127 (by decide), hnot 2047 (by decide), hnot 65535 (by decide), if_false]
    simp (disch := omega) only [List.cons_append, List.nil_append, List.cons_lt_cons_iff,
      ofNat_lt_ofNat, ofNat_eq_ofNat, Nat.mod_eq_of_lt, Nat.add_lt_add_iff_right,
      Nat.add_right_cancel_iff]
    -- Whether the last bytes differ or agree, what follows them does not count.
    exact hparts.imp_right (And.imp_right (Or.imp_right (And.imp_right (Or.imp_right
      (And.imp_right Or.inl)))))

/-! ## Texts -/

theorem utf8EncodeChar_ne_nil (c : Char) : String.utf8EncodeChar c ≠ [] := by
  unfold String.utf8EncodeChar
  dsimp only
  split_ifs <;> exact List.cons_ne_nil _ _

theorem flatMap_utf8EncodeChar_lt {cs ds : List Char} (h : cs < ds) :
    cs.flatMap String.utf8EncodeChar < ds.flatMap String.utf8EncodeChar := by
  induction h with
  | nil =>
    rename_i d ds
    obtain ⟨b, bs, hbytes⟩ := List.exists_cons_of_ne_nil (utf8EncodeChar_ne_nil d)
    rw [List.flatMap_cons, hbytes]
    exact List.Lex.nil
  | rel hlt => exact utf8EncodeChar_append_lt hlt _ _
  | cons _ ih => exact List.append_left_lt ih

/-- Comparing texts and comparing their bytes is the same. -/
theorem bytes_lt_bytes {s t : String} (h : s < t) : bytes s < bytes t := by
  rw [bytes_eq_flatMap, bytes_eq_flatMap]
  exact flatMap_utf8EncodeChar_lt (String.lt_iff_toList_lt.mp h)

end Text
end SeriesExec
