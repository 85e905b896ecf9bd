import Mathlib.Algebra.GroupWithZero.Nat
import Mathlib.Tactic.Common

/-!
# UTF-8 of a text, byte by byte

A character below 128 is one byte, its code.  Every byte of a larger character
is at least 128, so a byte below 128 never belongs to another character.
-/

namespace Utf8Text

theorem utf8EncodeChar_ascii {c : Char} (hc : c.toNat < 128) :
    String.utf8EncodeChar c = [UInt8.ofNat c.toNat] := by
  have hle : c.val.toNat ≤ 0x7f := Nat.le_of_lt_succ hc
  simp only [String.utf8EncodeChar, hle, if_true]
  rfl

theorem utf8EncodeChar_large {c : Char} (hc : 128 ≤ c.toNat) :
    String.utf8EncodeChar c ≠ [] ∧
      ∀ b ∈ String.utf8EncodeChar c, 128 ≤ b.toNat := by
  have hlarge : ¬ c.val.toNat ≤ 0x7f := Nat.not_le_of_lt hc
  simp only [String.utf8EncodeChar, hlarge, if_false]
  split
  · simp
    omega
  · split
    · simp
      omega
    · simp
      omega

theorem toNat_of_mem_utf8EncodeChar
    {c : Char} {b : UInt8} (hb : b.toNat < 128)
    (hmem : b ∈ String.utf8EncodeChar c) : c.toNat = b.toNat := by
  by_cases hc : c.toNat < 128
  · rw [utf8EncodeChar_ascii hc, List.mem_singleton] at hmem
    rw [hmem, UInt8.toNat_ofNat']
    omega
  · have hlarge := (utf8EncodeChar_large (Nat.le_of_not_lt hc)).2 b hmem
    omega

theorem utf8EncodeChar_ne_nil (c : Char) :
    String.utf8EncodeChar c ≠ [] := by
  by_cases hc : c.toNat < 128
  · simp [utf8EncodeChar_ascii hc]
  · exact (utf8EncodeChar_large (Nat.le_of_not_lt hc)).1

theorem mem_utf8EncodeChar_ascii {c : Char} (hc : c.toNat < 128) :
    UInt8.ofNat c.toNat ∈ String.utf8EncodeChar c := by
  rw [utf8EncodeChar_ascii hc]
  exact List.mem_singleton.mpr rfl

end Utf8Text
