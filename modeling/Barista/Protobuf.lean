import Barista.Text
import Barista.Bytes

/-!
# Protocol buffers

Varints, fields and messages as they are written, and what a reader finds in them.
-/

namespace Barista.Protobuf

open List Option

def varintBytes : ℕ → ℕ → Bytes
  | 0, _ => []
  | width + 1, value =>
    if value < 128 then [UInt8.ofNat value]
    else UInt8.ofNat (value % 128 + 128) :: varintBytes width (value / 128)

def encodeVarint (value : ℕ) : Bytes := varintBytes 10 value

def varintSizeWithin : ℕ → ℕ → ℕ
  | 0, _ => 0
  | width + 1, value => if value < 128 then 1 else varintSizeWithin width (value / 128) + 1

def varintSize (value : ℕ) : ℕ := varintSizeWithin 10 value

def readVarint : ℕ → Bytes → Option (ℕ × Bytes)
  | 0, _ => none
  | _ + 1, [] => none
  | width + 1, byte :: rest =>
    if byte.toNat < 128 then some (byte.toNat, rest)
    else (readVarint width rest).map fun (value, after) => (byte.toNat - 128 + 128 * value, after)

def decodeVarint (bytes : Bytes) : Option (ℕ × Bytes) :=
  (readVarint 10 bytes).filter fun (value, _) => value < 2 ^ 64

theorem length_varintBytes (width val : ℕ) :
    (varintBytes width val).length = varintSizeWithin width val := by
  induction width generalizing val with
  | zero => rfl
  | succ width ih =>
    rw [varintBytes, varintSizeWithin]
    split_ifs
    · rfl
    · rw [length_cons, ih]

@[simp]
theorem length_encodeVarint (val : ℕ) : (encodeVarint val).length = varintSize val :=
  length_varintBytes 10 val

theorem readVarint_varintBytes {width val : ℕ} (fits : val < 128 ^ (width + 1)) (rest : Bytes) :
    readVarint (width + 1) (varintBytes (width + 1) val ++ rest) = some (val, rest) := by
  induction width generalizing val with
  | zero =>
    have byte : (UInt8.ofNat val).toNat = val := by
      rw [UInt8.toNat_ofNat']
      omega
    simp only [zero_add, pow_one] at fits
    simp [varintBytes, readVarint, byte, fits]
  | succ width ih =>
    rw [varintBytes]
    split_ifs with small
    · have byte : (UInt8.ofNat val).toNat = val := by
        rw [UInt8.toNat_ofNat']
        omega
      simp [readVarint, byte, small]
    · have byte : (UInt8.ofNat (val % 128 + 128)).toNat = val % 128 + 128 := by
        rw [UInt8.toNat_ofNat']
        omega
      have quotient : val / 128 < 128 ^ (width + 1) := by
        rw [pow_succ] at fits
        exact Nat.div_lt_of_lt_mul (by rwa [Nat.mul_comm])
      rw [cons_append, readVarint, if_neg (by omega), ih quotient, byte]
      simp only [map_some, Option.some.injEq, Prod.mk.injEq, and_true]
      omega

theorem decodeVarint_encodeVarint {val : ℕ} (fits : val < 2 ^ 64) (rest : Bytes) :
    decodeVarint (encodeVarint val ++ rest) = some (val, rest) := by
  have read : readVarint 10 (encodeVarint val ++ rest) = some (val, rest) :=
    readVarint_varintBytes (by omega) rest
  simp only [decodeVarint, read, filter_some, fits, decide_true, if_true]

example : encodeVarint 300 = [0xAC, 0x02] := by decide +kernel

theorem varintSize_pos (val : ℕ) : 0 < varintSize val := by
  rw [varintSize, varintSizeWithin]
  split_ifs <;> omega

inductive Value where
  | varint (value : ℕ)
  | fixed64 (bytes : Bytes)
  | delimited (bytes : Bytes)
  | fixed32 (bytes : Bytes)
deriving DecidableEq

structure Field where
  number : ℕ
  value : Value
deriving DecidableEq

namespace Value

def wireType : Value → ℕ
  | varint _ => 0
  | fixed64 _ => 1
  | delimited _ => 2
  | fixed32 _ => 5

def encode : Value → Bytes
  | varint value => encodeVarint value
  | fixed64 bytes => bytes
  | delimited bytes => encodeVarint bytes.length ++ bytes
  | fixed32 bytes => bytes

def size : Value → ℕ
  | varint value => varintSize value
  | fixed64 bytes => bytes.length
  | delimited bytes => varintSize bytes.length + bytes.length
  | fixed32 bytes => bytes.length

def Fits : Value → Prop
  | varint value => value < 2 ^ 64
  | fixed64 bytes => bytes.length = 8
  | delimited bytes => bytes.length < 2 ^ 64
  | fixed32 bytes => bytes.length = 4

@[simp]
theorem length_encode (val : Value) : val.encode.length = val.size := by
  cases val <;> simp [encode, size]

def Sound : Value → Prop
  | varint value => value < 2 ^ 64
  | fixed64 bytes => bytes.length = 8
  | delimited _ => True
  | fixed32 bytes => bytes.length = 4

theorem Sound.fits {val : Value} (sound : val.Sound) (small : val.size < 2 ^ 64) : val.Fits := by
  cases val with
  | varint => exact sound
  | fixed64 => exact sound
  | delimited bytes =>
    rw [size] at small
    rw [Fits]
    omega
  | fixed32 => exact sound

end Value

namespace Field

variable (field : Field)

def key : ℕ := 8 * field.number + field.value.wireType

def encode : Bytes := encodeVarint field.key ++ field.value.encode

def size : ℕ := varintSize field.key + field.value.size

def Fits : Prop := (0 < field.number ∧ field.number < 2 ^ 29) ∧ field.value.Fits

@[simp]
theorem length_encode : field.encode.length = field.size := by
  simp [encode, size]

def Sound : Prop := (0 < field.number ∧ field.number < 2 ^ 29) ∧ field.value.Sound

end Field

variable (fields : List Field)

def encodeFields : Bytes := fields.flatMap Field.encode

def fieldsSize : ℕ := (fields.map Field.size).sum

@[simp]
theorem length_encodeFields : (encodeFields fields).length = fieldsSize fields := by
  simp [encodeFields, fieldsSize, length_flatMap]

@[simp]
theorem fieldsSize_nil : fieldsSize [] = 0 := rfl

@[simp]
theorem fieldsSize_cons (field : Field) (fields : List Field) :
    fieldsSize (field :: fields) = field.size + fieldsSize fields := rfl

@[simp]
theorem fieldsSize_append (first second : List Field) :
    fieldsSize (first ++ second) = fieldsSize first + fieldsSize second := by
  simp [fieldsSize]

variable {fields : List Field}

theorem fits_of_sound (sound : ∀ field ∈ fields, field.Sound)
    (small : fieldsSize fields < 2 ^ 64) : ∀ field ∈ fields, field.Fits := by
  intro field mem
  have part : field.size ≤ fieldsSize fields :=
    single_le_sum (fun _ _ => Nat.zero_le _) _ (mem_map_of_mem mem)
  refine ⟨(sound field mem).1, (sound field mem).2.fits ?_⟩
  rw [Field.size] at part
  omega

def takeExact (width : ℕ) (bytes : Bytes) : Option (Bytes × Bytes) :=
  if width ≤ bytes.length then some (bytes.take width, bytes.drop width) else none

theorem takeExact_append {width : ℕ} {bytes : Bytes} (len : bytes.length = width)
    (rest : Bytes) : takeExact width (bytes ++ rest) = some (bytes, rest) := by
  subst len
  simp [takeExact]

def readValue (wireType : ℕ) (bytes : Bytes) : Option (Value × Bytes) :=
  if wireType = 0 then (decodeVarint bytes).map fun (value, rest) => (.varint value, rest)
  else if wireType = 1 then (takeExact 8 bytes).map fun (value, rest) => (.fixed64 value, rest)
  else if wireType = 2 then
    (decodeVarint bytes).bind fun (length, behind) =>
      (takeExact length behind).map fun (value, rest) => (.delimited value, rest)
  else if wireType = 5 then (takeExact 4 bytes).map fun (value, rest) => (.fixed32 value, rest)
  else none

theorem readValue_encode {val : Value} (fits : val.Fits) (rest : Bytes) :
    readValue val.wireType (val.encode ++ rest) = some (val, rest) := by
  cases val with
  | varint val => simp [readValue, Value.wireType, Value.encode, decodeVarint_encodeVarint fits]
  | fixed64 bytes | fixed32 bytes =>
    simp [readValue, Value.wireType, Value.encode, takeExact_append fits]
  | delimited bytes =>
    simp [readValue, Value.wireType, Value.encode, decodeVarint_encodeVarint fits, takeExact_append]

def readField (bytes : Bytes) : Option (Field × Bytes) :=
  (decodeVarint bytes).bind fun (key, behind) =>
    if key < 2 ^ 32 ∧ 0 < key / 8 then
      (readValue (key % 8) behind).map fun (value, rest) => (⟨key / 8, value⟩, rest)
    else none

theorem readField_encode {field : Field} (fits : field.Fits) (rest : Bytes) :
    readField (field.encode ++ rest) = some (field, rest) := by
  rcases fits with ⟨⟨positive, small⟩, val⟩
  have wireType : field.value.wireType < 8 := by
    cases field.value <;> simp [Value.wireType]
  have num : field.key / 8 = field.number := by
    rw [Field.key]
    omega
  have type : field.key % 8 = field.value.wireType := by
    rw [Field.key]
    omega
  have bound : field.key < 2 ^ 32 := by
    rw [Field.key]
    omega
  have key : decodeVarint (encodeVarint field.key ++ (field.value.encode ++ rest)) =
      some (field.key, field.value.encode ++ rest) :=
    decodeVarint_encodeVarint (by omega) _
  simp only [readField, Field.encode, append_assoc, key, bind_some, num, type, bound,
    positive, and_self, if_true, readValue_encode val, map_some]

def readFields : ℕ → Bytes → Option (List Field)
  | _, [] => some []
  | 0, _ :: _ => none
  | bound + 1, byte :: bytes =>
    (readField (byte :: bytes)).bind fun (field, rest) =>
      (readFields bound rest).map fun fields => field :: fields

def parseFields (bytes : Bytes) : Option (List Field) := readFields bytes.length bytes

theorem readFields_encodeFields (fits : ∀ field ∈ fields, field.Fits)
    {bound : ℕ} (enough : fields.length ≤ bound) :
    readFields bound (encodeFields fields) = some fields := by
  induction fields generalizing bound with
  | nil => simp [encodeFields, readFields]
  | cons field fields ih =>
    rcases forall_mem_cons.mp fits with ⟨first, others⟩
    rcases bound with _ | bound
    · simp at enough
    · have rest := ih others (Nat.le_of_succ_le_succ enough)
      have read := readField_encode first (encodeFields fields)
      -- The encoding of a field is not empty.
      rcases start : field.encode ++ encodeFields fields with _ | ⟨byte, bytes⟩
      · have size := congrArg List.length start
        simp only [length_append, Field.length_encode, Field.size, length_nil] at size
        have := varintSize_pos field.key
        omega
      · have whole : encodeFields (field :: fields) = byte :: bytes := start
        rw [whole, readFields, ← start, read]
        simp only [bind_some, rest, map_some]

theorem parseFields_encodeFields (fits : ∀ field ∈ fields, field.Fits) :
    parseFields (encodeFields fields) = some fields := by
  apply readFields_encodeFields fits
  have positive : ∀ size ∈ fields.map Field.size, 1 ≤ size := by
    intro size mem
    rcases List.mem_map.mp mem with ⟨field, -, rfl⟩
    have := varintSize_pos field.key
    rw [Field.size]
    omega
  have := card_nsmul_le_sum (fields.map Field.size) 1 positive
  simpa [fieldsSize] using this

example : parseFields [8, 0xAC, 2] = some [⟨1, .varint 300⟩] := by decide +kernel

def varintField (number value : ℕ) : List Field :=
  if value = 0 then [] else [⟨number, .varint value⟩]

def signedVarint (value : ℤ) : ℕ := (value % 2 ^ 64).toNat

variable (number : ℕ)

def int32Field (value : Int32) : List Field :=
  varintField number (signedVarint value.toInt)

def int64Field (value : Int64) : List Field :=
  varintField number (signedVarint value.toInt)

variable (text : String)

def stringField : List Field :=
  if text = "" then [] else [⟨number, .delimited (Text.asBytes text)⟩]

def messageField (fields : List Field) : List Field :=
  [⟨number, .delimited (encodeFields fields)⟩]

def entryFields (entry : String × String) : List Field :=
  [⟨1, .delimited (Text.asBytes entry.1)⟩, ⟨2, .delimited (Text.asBytes entry.2)⟩]

variable (entries : List (String × String))

def mapField : List Field :=
  entries.flatMap fun entry => messageField number (entryFields entry)

def asVarint : Value → Option ℕ
  | .varint value => some value
  | _ => none

def asString : Value → Option String
  | .delimited bytes => String.fromUTF8? bytes.toByteArray
  | _ => none

def asMessage : Value → Option (List Field)
  | .delimited bytes => parseFields bytes
  | _ => none

def withNumber (fields : List Field) : List Field := fields.filter (·.number = number)

def readAll {α : Type} (read : Value → Option α) (number : ℕ) (fields : List Field) :
    Option (List α) :=
  (withNumber number fields).mapM fun field => read field.value

def getVarint (fields : List Field) : Option ℕ :=
  (readAll asVarint number fields).map (·.getLastD 0)

def getInt32 (fields : List Field) : Option Int32 :=
  (getVarint number fields).map fun value : ℕ => .ofInt value

def getInt64 (fields : List Field) : Option Int64 :=
  (getVarint number fields).map fun value : ℕ => .ofInt value

def getString (fields : List Field) : Option String :=
  (readAll asString number fields).map (·.getLastD "")

def getMessage (fields : List Field) : Option (Option (List Field)) :=
  (readAll asMessage number fields).map fun parts =>
    if parts.isEmpty then none else some parts.flatten

def getEntry (fields : List Field) : Option (String × String) :=
  (getString 1 fields).bind fun key => (getString 2 fields).map fun value => (key, value)

def insertEntry (entry : String × String) : List (String × String) :=
  entries.filter (·.1 ≠ entry.1) ++ [entry]

def getMap (fields : List Field) : Option (List (String × String)) :=
  (readAll asMessage number fields).bind fun parts =>
    (parts.mapM getEntry).map fun entries => entries.foldl insertEntry []

theorem toByteArray_asBytes : (Text.asBytes text).toByteArray = text.toByteArray := by
  conv_rhs => rw [← String.ofList_toList (s := text), String.toByteArray_ofList, List.utf8Encode]
  rfl

@[simp]
theorem length_asBytes : (Text.asBytes text).length = text.utf8ByteSize := by
  rw [← size_toByteArray, toByteArray_asBytes]
  rfl

theorem asString_asBytes : asString (.delimited (Text.asBytes text)) = some text := by
  rw [asString, toByteArray_asBytes, String.fromUTF8?, dif_pos text.isValidUTF8]
  rfl

theorem asMessage_encodeFields (fits : ∀ field ∈ fields, field.Fits) :
    asMessage (.delimited (encodeFields fields)) = some fields :=
  parseFields_encodeFields fits

def varintFieldSize (number value : ℕ) : ℕ :=
  if value = 0 then 0 else varintSize (8 * number) + varintSize value

def delimitedSize (number length : ℕ) : ℕ :=
  varintSize (8 * number + 2) + (varintSize length + length)

def stringFieldSize (number length : ℕ) : ℕ :=
  if length = 0 then 0 else delimitedSize number length

theorem le_delimitedSize (num len : ℕ) : len ≤ delimitedSize num len := by
  rw [delimitedSize]
  omega

theorem le_stringFieldSize (num len : ℕ) : len ≤ stringFieldSize num len := by
  rw [stringFieldSize]
  split_ifs with empty
  · exact empty.le
  · exact le_delimitedSize num len

@[simp]
theorem fieldsSize_varintField (num val : ℕ) :
    fieldsSize (varintField num val) = varintFieldSize num val := by
  rw [varintField, varintFieldSize]
  split_ifs <;> simp [Field.size, Field.key, Value.wireType, Value.size]

@[simp]
theorem fieldsSize_stringField (num : ℕ) (text : String) :
    fieldsSize (stringField num text) = stringFieldSize num text.utf8ByteSize := by
  simp only [stringField, stringFieldSize, String.utf8ByteSize_eq_zero_iff]
  split_ifs <;> simp [delimitedSize, Field.size, Field.key, Value.wireType, Value.size]

@[simp]
theorem fieldsSize_messageField (num : ℕ) (fields : List Field) :
    fieldsSize (messageField num fields) = delimitedSize num (fieldsSize fields) := by
  simp [messageField, delimitedSize, Field.size, Field.key, Value.wireType, Value.size]

def entrySize (entry : String × String) : ℕ :=
  delimitedSize 1 entry.1.utf8ByteSize + delimitedSize 2 entry.2.utf8ByteSize

theorem fieldsSize_entryFields (entry : String × String) :
    fieldsSize (entryFields entry) = entrySize entry := by
  simp [entryFields, entrySize, delimitedSize, Field.size, Field.key, Value.wireType, Value.size]

def mapFieldSize : ℕ :=
  (entries.map fun entry => delimitedSize number (entrySize entry)).sum

@[simp]
theorem fieldsSize_mapField (num : ℕ) (entries : List (String × String)) :
    fieldsSize (mapField num entries) = mapFieldSize num entries := by
  induction entries with
  | nil => rfl
  | cons entry entries ih =>
    have split : mapField num (entry :: entries) =
        messageField num (entryFields entry) ++ mapField num entries := rfl
    simp [split, ih, mapFieldSize, fieldsSize_entryFields]

@[simp]
theorem withNumber_append (num : ℕ) (first second : List Field) :
    withNumber num (first ++ second) = withNumber num first ++ withNumber num second := by
  simp [withNumber]

@[simp]
theorem withNumber_varintField (wanted num val : ℕ) : withNumber wanted (varintField num val) =
      if num = wanted then varintField num val else [] := by
  rw [varintField]
  split_ifs <;> simp_all [withNumber]

@[simp]
theorem withNumber_stringField (wanted num : ℕ) (text : String) :
    withNumber wanted (stringField num text) =
      if num = wanted then stringField num text else [] := by
  rw [stringField]
  split_ifs <;> simp_all [withNumber]

@[simp]
theorem withNumber_messageField (wanted num : ℕ) (fields : List Field) :
    withNumber wanted (messageField num fields) =
      if num = wanted then messageField num fields else [] := by
  rw [messageField]
  split_ifs <;> simp_all [withNumber]

@[simp]
theorem withNumber_mapField (wanted num : ℕ) (entries : List (String × String)) :
    withNumber wanted (mapField num entries) =
      if num = wanted then mapField num entries else [] := by
  induction entries with
  | nil => simp [mapField, withNumber]
  | cons entry entries ih =>
    have split : mapField num (entry :: entries) =
        messageField num (entryFields entry) ++ mapField num entries := rfl
    rw [split, withNumber_append, ih, withNumber_messageField]
    split_ifs <;> rfl

theorem signedVarint_lt (val : ℤ) : signedVarint val < 2 ^ 64 := by
  rw [signedVarint]
  omega

theorem int32_signedVarint (val : Int32) : Int32.ofInt (signedVarint val.toInt) = val := by
  have nonneg : 0 ≤ val.toInt % 2 ^ 64 := Int.emod_nonneg _ (by decide)
  have low := val.le_toInt
  have high := val.toInt_lt
  rw [signedVarint, Int.toNat_of_nonneg nonneg, ← Int32.toInt_inj, Int32.toInt_ofInt, Int.bmod_def]
  norm_num
  split_ifs <;> omega

theorem int64_signedVarint (val : Int64) : Int64.ofInt (signedVarint val.toInt) = val := by
  have nonneg : 0 ≤ val.toInt % 2 ^ 64 := Int.emod_nonneg _ (by decide)
  have low := val.le_toInt
  have high := val.toInt_lt
  rw [signedVarint, Int.toNat_of_nonneg nonneg, ← Int64.toInt_inj, Int64.toInt_ofInt, Int.bmod_def]
  norm_num
  split_ifs <;> omega

section Sound

variable {num : ℕ} (low : 0 < num) (high : num < 2 ^ 29)
include low high

theorem sound_varintField {val : ℕ} (small : val < 2 ^ 64) :
    ∀ field ∈ varintField num val, field.Sound := by
  rw [varintField]
  split_ifs
  · simp
  · simpa using ⟨⟨low, high⟩, small⟩

theorem sound_stringField (text : String) : ∀ field ∈ stringField num text, field.Sound := by
  rw [stringField]
  split_ifs
  · simp
  · simpa using ⟨⟨low, high⟩, trivial⟩

theorem sound_messageField (fields : List Field) :
    ∀ field ∈ messageField num fields, field.Sound := by
  simpa [messageField] using ⟨⟨low, high⟩, trivial⟩

theorem sound_mapField (entries : List (String × String)) :
    ∀ field ∈ mapField num entries, field.Sound := by
  intro field mem
  rcases mem_flatMap.mp mem with ⟨entry, -, mem⟩
  exact sound_messageField low high _ field mem

end Sound

theorem sound_entryFields (entry : String × String) : ∀ field ∈ entryFields entry, field.Sound := by
  simp [entryFields, Field.Sound, Value.Sound]

theorem fits_entryFields {num : ℕ} {entries : List (String × String)}
    (small : fieldsSize (mapField num entries) < 2 ^ 64) :
    ∀ entry ∈ entries, ∀ field ∈ entryFields entry, field.Fits := by
  intro entry mem
  have part : delimitedSize num (entrySize entry) ≤ fieldsSize (mapField num entries) := by
    rw [fieldsSize_mapField]
    exact single_le_sum (fun _ _ => Nat.zero_le _) _
      (mem_map_of_mem (f := fun entry => delimitedSize num (entrySize entry)) mem)
  rw [delimitedSize, ← fieldsSize_entryFields] at part
  exact fits_of_sound (sound_entryFields entry) (by omega)

section Reading

variable {num : ℕ} {fields : List Field}

theorem getVarint_eq {val : ℕ} (found : withNumber num fields = varintField num val) :
    getVarint num fields = some val := by
  rw [getVarint, readAll, found, varintField]
  split_ifs with zero <;> simp [zero, asVarint]

theorem getInt32_eq {val : Int32} (found : withNumber num fields = int32Field num val) :
    getInt32 num fields = some val := by
  rw [getInt32, getVarint_eq found, map_some, int32_signedVarint]

theorem getInt64_eq {val : Int64} (found : withNumber num fields = int64Field num val) :
    getInt64 num fields = some val := by
  rw [getInt64, getVarint_eq found, map_some, int64_signedVarint]

theorem getString_eq {text : String} (found : withNumber num fields = stringField num text) :
    getString num fields = some text := by
  rw [getString, readAll, found, stringField]
  split_ifs with empty <;> simp [empty, asString_asBytes]

theorem getMessage_eq {inner : List Field} (fits : ∀ field ∈ inner, field.Fits)
    (found : withNumber num fields = messageField num inner) :
    getMessage num fields = some (some inner) := by
  simp [getMessage, readAll, found, messageField, asMessage_encodeFields fits]

theorem getMessage_eq_none (found : withNumber num fields = []) :
    getMessage num fields = some none := by
  simp [getMessage, readAll, found]

theorem getEntry_entryFields (entry : String × String) :
    getEntry (entryFields entry) = some entry := by
  simp [getEntry, getString, readAll, withNumber, entryFields, asString_asBytes]

theorem mapM_getEntry : (entries.map entryFields).mapM getEntry = some entries := by
  induction entries with
  | nil => rfl
  | cons entry entries ih => simp [getEntry_entryFields, ih]

theorem foldl_insertEntry (entries pre : List (String × String))
    (distinct : ((pre ++ entries).map Prod.fst).Nodup) :
    entries.foldl insertEntry pre = pre ++ entries := by
  induction entries generalizing pre with
  | nil => simp
  | cons entry entries ih =>
    have kept : pre.filter (·.1 ≠ entry.1) = pre := by
      rw [filter_eq_self]
      intro other mem
      simp only [map_append, map_cons, nodup_append] at distinct
      simpa using distinct.2.2 other.1 (mem_map_of_mem mem) entry.1 (by simp)
    rw [foldl_cons, insertEntry, kept, ih]
    · simp
    · simpa using distinct

section Maps

variable {entries : List (String × String)}
  (fits : ∀ entry ∈ entries, ∀ field ∈ entryFields entry, field.Fits)

include fits

theorem readAll_mapField : (mapField num entries).mapM (fun field => asMessage field.value) =
      some (entries.map entryFields) := by
  induction entries with
  | nil => rfl
  | cons entry entries ih =>
    rcases forall_mem_cons.mp fits with ⟨first, others⟩
    have split : mapField num (entry :: entries) =
        messageField num (entryFields entry) ++ mapField num entries := rfl
    simp [split, messageField, asMessage_encodeFields first, ih others]

theorem getMap_eq (distinct : (entries.map Prod.fst).Nodup)
    (found : withNumber num fields = mapField num entries) :
    getMap num fields = some entries := by
  rw [getMap, readAll, found, readAll_mapField fits, bind_some, mapM_getEntry,
    map_some, foldl_insertEntry entries [] distinct, nil_append]

end Maps

end Reading

end Barista.Protobuf
