import Barista.Bytes

/-!
# Hexadecimal digits

Byte strings as lower-case hexadecimal digits, and back.  Decoding accepts both cases.
-/

namespace Barista.Hex

def digits (byte : UInt8) : List Char :=
  [(byte >>> 4).toNat.digitChar, (byte &&& 0xf).toNat.digitChar]

def encode (bytes : Bytes) : List Char := bytes.flatMap digits

def nibble (digit : Char) : Option UInt8 :=
  if '0' ≤ digit ∧ digit ≤ '9' then some (.ofNat (digit.toNat - '0'.toNat))
  else if 'a' ≤ digit ∧ digit ≤ 'f' then some (.ofNat (digit.toNat - 'a'.toNat + 10))
  else if 'A' ≤ digit ∧ digit ≤ 'F' then some (.ofNat (digit.toNat - 'A'.toNat + 10))
  else none

def decode : List Char → Option Bytes
  | [] => some []
  | [_] => none
  | high :: low :: rest => do
    let highValue ← nibble high
    let lowValue ← nibble low
    let bytes ← decode rest
    return (highValue <<< 4 ||| lowValue) :: bytes

@[simp]
theorem length_encode (bytes : Bytes) : (encode bytes).length = 2 * bytes.length := by
  induction bytes with
  | nil => rfl
  | cons byte bytes ih =>
    rw [encode, List.flatMap_cons, List.length_append, ← encode, ih, List.length_cons]
    change 2 + 2 * bytes.length = _
    omega

theorem nibble_digits (byte : UInt8) : nibble (byte >>> 4).toNat.digitChar = some (byte >>> 4) ∧
      nibble (byte &&& 0xf).toNat.digitChar = some (byte &&& 0xf) := by
  have each : ∀ val : Fin 256, nibble ((UInt8.ofFin val) >>> 4).toNat.digitChar =
      some ((UInt8.ofFin val) >>> 4) ∧
      nibble ((UInt8.ofFin val) &&& 0xf).toNat.digitChar =
        some ((UInt8.ofFin val) &&& 0xf) := by decide +kernel
  exact each byte.toFin

theorem exists_digitChar {byte : UInt8} {char : Char} (mem : char ∈ digits byte) :
    ∃ val : Fin 16, char = val.val.digitChar := by
  have high : (byte >>> 4).toNat < 16 := by
    rw [UInt8.toNat_shiftRight, Nat.shiftRight_eq_div_pow]
    have := byte.toNat_lt
    simp
    omega
  have low : (byte &&& 0xf).toNat < 16 := by
    rw [UInt8.toNat_and]
    exact Nat.and_lt_two_pow _ (by decide : _ < 2 ^ 4)
  rcases List.mem_pair.mp mem with rfl | rfl
  · exact ⟨⟨_, high⟩, rfl⟩
  · exact ⟨⟨_, low⟩, rfl⟩

theorem shift_or_and (byte : UInt8) : (byte >>> 4) <<< 4 ||| (byte &&& 0xf) = byte := by
  have each : ∀ val : Fin 256, ((UInt8.ofFin val) >>> 4) <<< 4 |||
      ((UInt8.ofFin val) &&& 0xf) = UInt8.ofFin val := by decide +kernel
  exact each byte.toFin

theorem decode_encode (bytes : Bytes) : decode (encode bytes) = some bytes := by
  induction bytes with
  | nil => rfl
  | cons byte bytes ih =>
    rw [encode, List.flatMap_cons, ← encode]
    change decode (_ :: _ :: encode bytes) = _
    rw [decode, (nibble_digits byte).1, (nibble_digits byte).2, ih]
    simp [shift_or_and]

theorem encode_injective : Function.Injective encode := by
  intro left right same
  have decoded := congrArg decode same
  rwa [decode_encode, decode_encode, Option.some.injEq] at decoded

end Barista.Hex
