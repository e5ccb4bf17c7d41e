import Barista.Bytes

/-!
# Codecs that leave the rest

A decoder that undoes its encoder and returns the bytes after it. Codecs of pairs, options and
lists are put together from those of their parts.
-/

namespace Barista

structure PrefixCodec (α : Type) where
  encode : α → Except String Bytes
  decode : Bytes → Except String (α × Bytes)
  decode_encode : ∀ value bytes rest, encode value = .ok bytes →
    decode (bytes ++ rest) = .ok (value, rest)

namespace PrefixCodec

variable {α β : Type}

def joined (first second : Except String Bytes) : Except String Bytes :=
  first.bind fun left => second.map fun right => left ++ right

theorem joined_eq_ok {first second : Except String Bytes} {bytes : Bytes} :
    joined first second = .ok bytes ↔
      ∃ left right, first = .ok left ∧ second = .ok right ∧ bytes = left ++ right := by
  rcases first with _ | left <;> rcases second with _ | right <;>
    simp [joined, Except.bind, Except.map, eq_comm]

def takeExact (width : ℕ) (bytes : Bytes) : Except String (Bytes × Bytes) :=
  if width ≤ bytes.length then .ok (bytes.take width, bytes.drop width)
  else .error "unexpected end of input"

theorem takeExact_append {width : ℕ} {bytes : Bytes} (len : bytes.length = width)
    (rest : Bytes) : takeExact width (bytes ++ rest) = .ok (bytes, rest) := by
  subst len
  simp [takeExact]

def varint : PrefixCodec ℕ where
  encode value :=
    if value < 251 then .ok [UInt8.ofNat value]
    else if value < 2 ^ 16 then .ok (251 :: leBytes 2 value)
    else if value < 2 ^ 32 then .ok (252 :: leBytes 4 value)
    else if value < 2 ^ 64 then .ok (253 :: leBytes 8 value)
    else .error "integer out of range"
  decode
    | [] => .error "unexpected end of input"
    | tag :: rest =>
      let word (width : ℕ) : Except String (ℕ × Bytes) :=
        (takeExact width rest).map fun (bytes, after) => (leWord bytes, after)
      if tag < 251 then .ok (tag.toNat, rest)
      else if tag = 251 then word 2
      else if tag = 252 then word 4
      else if tag = 253 then word 8
      else .error "invalid integer tag"
  decode_encode value bytes rest encoded := by
    have word : ∀ width, value < 256 ^ width → (takeExact width (leBytes width value ++ rest)).map
          (fun pair : Bytes × Bytes => (leWord pair.1, pair.2)) = .ok (value, rest) := by
      intro width fits
      rw [takeExact_append (length_leBytes width value)]
      simp [Except.map, leWord_leBytes fits]
    split at encoded
    · rename_i small
      cases encoded
      have tagLt : UInt8.ofNat value < 251 := by
        rw [UInt8.lt_iff_toNat_lt, UInt8.toNat_ofNat', Nat.mod_eq_of_lt (by omega)]
        exact small
      simp only [List.singleton_append, tagLt, if_true, UInt8.toNat_ofNat',
        Nat.mod_eq_of_lt (show value < 2 ^ 8 by omega)]
    · split at encoded
      · rename_i fits
        cases encoded
        simpa using word 2 (lt_of_lt_of_eq fits (by norm_num))
      · split at encoded
        · rename_i fits
          cases encoded
          simpa using word 4 (lt_of_lt_of_eq fits (by norm_num))
        · split at encoded
          · rename_i fits
            cases encoded
            simpa using word 8 (lt_of_lt_of_eq fits (by norm_num))
          · contradiction

def bytesOf (width : ℕ) : PrefixCodec (Vector UInt8 width) where
  encode value := .ok value.toList
  decode bytes :=
    if long : width ≤ bytes.length then
      .ok (⟨(bytes.take width).toArray, by simpa using long⟩, bytes.drop width)
    else .error "unexpected end of input"
  decode_encode value bytes rest encoded := by
    cases encoded
    have length : value.toList.length = width := Vector.length_toList
    have sameArray : value.toList.toArray = value.toArray := by
      rw [Vector.toList, Array.toArray_toList]
    simp [length, List.take_left' length, List.drop_left' length, sameArray]

def pair (first : PrefixCodec α) (second : PrefixCodec β) : PrefixCodec (α × β) where
  encode value := joined (first.encode value.1) (second.encode value.2)
  decode bytes := (first.decode bytes).bind fun (left, rest) =>
      (second.decode rest).map fun (right, after) => ((left, right), after)
  decode_encode value bytes rest encoded := by
    rcases joined_eq_ok.mp encoded with ⟨left, right, firstEncoded, secondEncoded, rfl⟩
    simp [List.append_assoc, first.decode_encode _ _ _ firstEncoded,
      second.decode_encode _ _ _ secondEncoded, Except.bind, Except.map]

def string : PrefixCodec String where
  encode value := joined (varint.encode value.toByteArray.data.toList.length)
      (.ok value.toByteArray.data.toList)
  decode bytes := (varint.decode bytes).bind fun (length, rest) =>
      (takeExact length rest).bind fun (text, after) =>
        match String.fromUTF8? ⟨text.toArray⟩ with
        | some value => .ok (value, after)
        | none => .error "invalid UTF-8"
  decode_encode value bytes rest encoded := by
    rcases joined_eq_ok.mp encoded with ⟨left, right, lengthEncoded, textEncoded, rfl⟩
    cases textEncoded
    have valid : String.fromUTF8? value.toByteArray = some value := by
      rw [String.fromUTF8?, dif_pos value.isValidUTF8]
      rfl
    simp only [List.append_assoc, varint.decode_encode _ _ _ lengthEncoded, Except.bind,
      takeExact_append rfl, Array.toArray_toList, valid]

def option (codec : PrefixCodec α) : PrefixCodec (Option α) where
  encode
    | none => .ok [0]
    | some value => joined (.ok [1]) (codec.encode value)
  decode
    | [] => .error "unexpected end of input"
    | tag :: rest =>
      if tag = 0 then .ok (none, rest)
      else if tag = 1 then (codec.decode rest).map fun (value, after) => (some value, after)
      else .error "invalid option tag"
  decode_encode value bytes rest encoded := by
    rcases value with _ | value
    · cases encoded
      simp
    · rcases joined_eq_ok.mp encoded with ⟨left, right, tagEncoded, valueEncoded, rfl⟩
      cases tagEncoded
      simp [codec.decode_encode _ _ _ valueEncoded, Except.map]

def encodeAll (codec : PrefixCodec α) : List α → Except String Bytes
  | [] => .ok []
  | value :: values => joined (codec.encode value) (encodeAll codec values)

def decodeAll (codec : PrefixCodec α) : ℕ → Bytes → Except String (List α × Bytes)
  | 0, bytes => .ok ([], bytes)
  | count + 1, bytes =>
    (codec.decode bytes).bind fun (value, rest) =>
      (decodeAll codec count rest).map fun (values, after) => (value :: values, after)

theorem decodeAll_encodeAll (codec : PrefixCodec α) (values : List α) (bytes rest : Bytes)
    (enc : encodeAll codec values = .ok bytes) :
    decodeAll codec values.length (bytes ++ rest) = .ok (values, rest) := by
  induction values generalizing bytes with
  | nil =>
    cases enc
    rfl
  | cons val values ih =>
    rcases joined_eq_ok.mp enc with ⟨left, right, valueEncoded, valuesEncoded, rfl⟩
    simp [decodeAll, List.append_assoc, codec.decode_encode _ _ _ valueEncoded,
      ih right valuesEncoded, Except.bind, Except.map]

def list (codec : PrefixCodec α) : PrefixCodec (List α) where
  encode values := joined (varint.encode values.length) (encodeAll codec values)
  decode bytes := (varint.decode bytes).bind fun (count, rest) => decodeAll codec count rest
  decode_encode values bytes rest encoded := by
    rcases joined_eq_ok.mp encoded with ⟨left, right, countEncoded, valuesEncoded, rfl⟩
    simp [List.append_assoc, varint.decode_encode _ _ _ countEncoded,
      decodeAll_encodeAll codec values right rest valuesEncoded, Except.bind]

def via (codec : PrefixCodec β) (forth : α → β) (back : β → Except String α) [DecidableEq α] :
    PrefixCodec α where
  encode value :=
    match back (forth value) with
    | .ok again => if again = value then codec.encode (forth value) else .error "not representable"
    | .error detail => .error detail
  decode bytes :=
    (codec.decode bytes).bind fun (middle, rest) => (back middle).map fun value => (value, rest)
  decode_encode value bytes rest encoded := by
    rcases converted : back (forth value) with detail | again
    · simp [converted] at encoded
    · by_cases same : again = value
      · subst same
        rw [converted] at encoded
        simp only [if_true] at encoded
        simp [codec.decode_encode _ _ _ encoded, converted, Except.bind, Except.map]
      · simp [converted, same] at encoded

end PrefixCodec

end Barista
