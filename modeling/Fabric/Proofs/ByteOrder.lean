import Fabric.SortedMap.Basic
import Mathlib.Tactic.SplitIfs
/-!
The order of strings. Strings compare by the code points of their characters. UTF-8 spreads a code
point over up to four bytes, the more significant digits first, and the first byte tells how many
there are; so the bytes of two strings compare as the strings do.
-/

namespace Fabric

/-- The bytes of a string in UTF-8. -/
def utf8 (s : String) : List UInt8 := s.toByteArray.data.toList

theorem utf8_eq_flatMap (s : String) : utf8 s = s.toList.flatMap String.utf8EncodeChar := by
  rw [utf8, ← String.utf8Encode_toList, List.utf8Encode, List.toList_data_toByteArray]

/-- Of two characters the smaller one has the smaller bytes, whatever follows. -/
theorem utf8EncodeChar_append_lt {a b : Char} (h : a < b) (x y : List UInt8) :
    String.utf8EncodeChar a ++ x < String.utf8EncodeChar b ++ y := by
  have lt : a.val.toNat < b.val.toNat := h
  have top : b.val.toNat < 1114112 := by
    rcases b.valid with valid | valid
    · exact Nat.lt_trans valid (by decide)
    · exact valid.2
  have byte {k : Nat} (hk : k < 256) : (UInt8.ofNat k).toNat = k := UInt8.toNat_ofNat_of_lt' hk
  have digits (k : Nat) : k / 4096 = k / 64 / 64 ∧ k / 262144 = k / 64 / 64 / 64 := by omega
  unfold String.utf8EncodeChar
  dsimp only
  generalize a.val.toNat = m at lt
  generalize b.val.toNat = n at lt top
  -- Of different lengths the first bytes differ; of the same length, the first digit that does.
  split_ifs <;>
    simp (disch := omega) only [List.cons_append, List.nil_append, List.cons_lt_cons_iff,
      UInt8.lt_iff_toNat_lt, ← UInt8.toNat_inj, byte, (digits _).1, (digits _).2] <;> omega

theorem flatMap_utf8EncodeChar_lt {l l' : List Char} (h : List.Lex (· < ·) l l') :
    l.flatMap String.utf8EncodeChar < l'.flatMap String.utf8EncodeChar := by
  induction h with
  | @nil b r =>
    have first : String.utf8EncodeChar b ≠ [] := String.utf8EncodeChar_ne_nil
    obtain ⟨x, bytes, e⟩ := List.exists_cons_of_ne_nil first
    rw [List.flatMap_cons, e]
    exact List.nil_lt_cons x _
  | rel hab => exact utf8EncodeChar_append_lt hab _ _
  | cons _ ih => exact List.append_left_lt ih

theorem utf8_lt_utf8 {s t : String} (h : s < t) : utf8 s < utf8 t := by
  rw [utf8_eq_flatMap, utf8_eq_flatMap]
  exact flatMap_utf8EncodeChar_lt (String.lt_iff.1 h)

/-- Strings compare as their bytes do. -/
theorem compare_eq_lt_iff_utf8 {s t : String} : compare s t = .lt ↔ utf8 s < utf8 t := by
  have lt_iff : compare s t = .lt ↔ s < t := compareOfLessAndEq_eq_lt
  refine ⟨fun h => utf8_lt_utf8 (lt_iff.1 h), fun h => ?_⟩
  cases hc : compare s t with
  | lt => rfl
  | eq =>
    cases Std.LawfulEqCmp.eq_of_compare hc
    exact absurd h (List.lt_irrefl _)
  | gt =>
    have : compare t s = .lt := Std.OrientedCmp.gt_iff_lt.1 hc
    have : t < s := compareOfLessAndEq_eq_lt.1 this
    exact absurd h (List.lt_asymm (utf8_lt_utf8 this))

end Fabric
