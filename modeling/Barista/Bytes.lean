import Mathlib.Tactic

/-!
# Little-endian words
-/

namespace Barista

abbrev Bytes := List UInt8

def leBytes : ℕ → ℕ → Bytes
  | 0, _ => []
  | width + 1, word => UInt8.ofNat (word % 256) :: leBytes width (word / 256)

def leWord : Bytes → ℕ
  | [] => 0
  | byte :: rest => byte.toNat + 256 * leWord rest

@[simp]
theorem length_leBytes (width word : ℕ) : (leBytes width word).length = width := by
  induction width generalizing word with
  | zero => rfl
  | succ width ih => simp [leBytes, ih]

theorem leWord_leBytes {width word : ℕ} (fits : word < 256 ^ width) :
    leWord (leBytes width word) = word := by
  induction width generalizing word with
  | zero =>
    simp only [pow_zero, Nat.lt_one_iff] at fits
    simp [leBytes, leWord, fits]
  | succ width ih =>
    have restFits : word / 256 < 256 ^ width := by
      rw [pow_succ] at fits
      exact Nat.div_lt_of_lt_mul (by rwa [Nat.mul_comm])
    simp only [leBytes, leWord, ih restFits, UInt8.toNat_ofNat']
    omega

theorem leBytes_leWord (bytes : Bytes) : leBytes bytes.length (leWord bytes) = bytes := by
  induction bytes with
  | nil => rfl
  | cons byte rest ih =>
    have byteLt := byte.toNat_lt
    have low : (byte.toNat + 256 * leWord rest) % 256 = byte.toNat := by omega
    have high : (byte.toNat + 256 * leWord rest) / 256 = leWord rest := by omega
    simp only [List.length_cons, leWord, leBytes, low, high, ih, UInt8.ofNat_toNat]

theorem leWord_lt (bytes : Bytes) : leWord bytes < 256 ^ bytes.length := by
  induction bytes with
  | nil => simp [leWord]
  | cons byte rest ih =>
    have byteLt := byte.toNat_lt
    simp only [leWord, List.length_cons, pow_succ]
    omega

end Barista
