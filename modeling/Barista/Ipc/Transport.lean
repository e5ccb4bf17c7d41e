import Barista.Protobuf

/-!
# Envelopes on the wire

The messages by which the daemon reports the outcome of an action, and their encoding.  The daemon
writes the fields in the order of their numbers.  The fields that it never sets, and the bodies of
other envelopes, are left out.
-/

namespace Barista.Ipc.Wire

open Protobuf

section Messages

structure Error where
  code : String
  message : String
  details : List (String × String)
  actionId : String
deriving DecidableEq

inductive Status where
  | unknown
  | success
  | failure
  | timeout
  | crashed
  | cancelled
deriving DecidableEq

def Status.code : Status → Int32
  | unknown => 0
  | success => 1
  | failure => 2
  | timeout => 3
  | crashed => 4
  | cancelled => 5

structure ActionResult where
  actionId : String
  status : Int32
  exitCode : Int32
  durationMicros : Int64
  failureMessage : String
  failureStack : String
  error : Option Error
deriving DecidableEq

structure Envelope where
  version : UInt32
  requestId : UInt64
  result : Option ActionResult
deriving DecidableEq

def Error.fields (error : Error) : List Field :=
  stringField 1 error.code ++ stringField 2 error.message ++ mapField 3 error.details ++
    stringField 4 error.actionId

variable (result : ActionResult)

def ActionResult.errorFields : List Field :=
  (result.error.map fun error => messageField 9 error.fields).getD []

def ActionResult.fields : List Field :=
  stringField 1 result.actionId ++ int32Field 2 result.status ++ int32Field 3 result.exitCode ++
    int64Field 4 result.durationMicros ++ stringField 6 result.failureMessage ++
    stringField 7 result.failureStack ++ result.errorFields

variable (envelope : Envelope)

def Envelope.resultFields : List Field :=
  (envelope.result.map fun result => messageField 14 result.fields).getD []

def Envelope.fields : List Field :=
  varintField 1 envelope.version.toNat ++ varintField 2 envelope.requestId.toNat ++
    envelope.resultFields

def Envelope.toByteArray : Bytes := encodeFields envelope.fields

variable (fields : List Field)

def Error.decode : Option Error := do
  let code ← getString 1 fields
  let message ← getString 2 fields
  let details ← getMap 3 fields
  let actionId ← getString 4 fields
  return ⟨code, message, details, actionId⟩

def ActionResult.decode : Option ActionResult := do
  let actionId ← getString 1 fields
  let status ← getInt32 2 fields
  let exitCode ← getInt32 3 fields
  let durationMicros ← getInt64 4 fields
  let failureMessage ← getString 6 fields
  let failureStack ← getString 7 fields
  let error ← getMessage 9 fields
  let error ← error.mapM Error.decode
  return ⟨actionId, status, exitCode, durationMicros, failureMessage, failureStack, error⟩

def bodyNumbers : List ℕ := [10, 11, 12, 13, 14, 15, 16, 17, 18, 19, 99]

def lastResult : List Field :=
  (((fields.filter (·.number ∈ bodyNumbers)).reverse).takeWhile (·.number = 14)).reverse

def Envelope.decode (bytes : Bytes) : Option Envelope := do
  let fields ← parseFields bytes
  let version ← getVarint 1 fields
  let requestId ← getVarint 2 fields
  let result ← getMessage 14 (lastResult fields)
  let result ← result.mapM ActionResult.decode
  return ⟨.ofNat version, .ofNat requestId, result⟩

def errorSize (code message : ℕ) (details : List (String × String)) (actionId : ℕ) : ℕ :=
  stringFieldSize 1 code + stringFieldSize 2 message + mapFieldSize 3 details +
    stringFieldSize 4 actionId

def resultSize (actionId : ℕ) (status exitCode : Int32) (durationMicros : Int64)
    (failureMessage failureStack : ℕ) (error : Option ℕ) : ℕ :=
  stringFieldSize 1 actionId + varintFieldSize 2 (signedVarint status.toInt) +
    varintFieldSize 3 (signedVarint exitCode.toInt) +
    varintFieldSize 4 (signedVarint durationMicros.toInt) + stringFieldSize 6 failureMessage +
    stringFieldSize 7 failureStack + (error.map (delimitedSize 9)).getD 0

def envelopeSize (version : UInt32) (requestId : UInt64) (result : ℕ) : ℕ :=
  varintFieldSize 1 version.toNat + varintFieldSize 2 requestId.toNat + delimitedSize 14 result

theorem Error.fieldsSize_fields (err : Error) :
    fieldsSize err.fields = errorSize err.code.utf8ByteSize err.message.utf8ByteSize
      err.details err.actionId.utf8ByteSize := by
  simp [fields, errorSize, Nat.add_assoc]

theorem ActionResult.fieldsSize_fields (out : ActionResult) :
    fieldsSize out.fields = resultSize out.actionId.utf8ByteSize out.status
      out.exitCode out.durationMicros out.failureMessage.utf8ByteSize
      out.failureStack.utf8ByteSize
      (out.error.map fun err => fieldsSize err.fields) := by
  rcases out with ⟨id, status, exitCode, duration, msg, stack, _ | err⟩ <;>
    simp [fields, errorFields, resultSize, int32Field, int64Field, Nat.add_assoc]

variable {out : ActionResult}

theorem Envelope.length_toByteArray (carries : envelope.result = some out) :
    envelope.toByteArray.length =
      envelopeSize envelope.version envelope.requestId (fieldsSize out.fields) := by
  simp [toByteArray, fields, resultFields, envelopeSize, carries, Nat.add_assoc]

def Error.Distinct (error : Error) : Prop := (error.details.map Prod.fst).Nodup

theorem Error.decode_fields {err : Error} (distinct : err.Distinct)
    (small : fieldsSize err.fields < 2 ^ 64) : Error.decode err.fields = some err := by
  have code : getString 1 err.fields = some err.code := getString_eq (by simp [fields])
  have msg : getString 2 err.fields = some err.message := getString_eq (by simp [fields])
  have id : getString 4 err.fields = some err.actionId := getString_eq (by simp [fields])
  have within : fieldsSize (mapField 3 err.details) < 2 ^ 64 := by
    simp only [fields, fieldsSize_append] at small
    omega
  have details : getMap 3 err.fields = some err.details :=
    getMap_eq (fits_entryFields within) distinct (by simp [fields])
  simp [decode, code, msg, id, details]

theorem Error.sound_fields (err : Error) : ∀ field ∈ err.fields, field.Sound := by
  simp only [fields, List.forall_mem_append]
  exact ⟨⟨⟨sound_stringField (by decide) (by decide) _,
    sound_stringField (by decide) (by decide) _⟩,
    sound_mapField (by decide) (by decide) _⟩, sound_stringField (by decide) (by decide) _⟩

def ActionResult.Distinct : Prop := ∀ error ∈ result.error, error.Distinct

theorem ActionResult.sound_fields (out : ActionResult) : ∀ field ∈ out.fields, field.Sound := by
  simp only [fields, List.forall_mem_append]
  refine ⟨⟨⟨⟨⟨⟨?_, ?_⟩, ?_⟩, ?_⟩, ?_⟩, ?_⟩, ?_⟩
  · exact sound_stringField (by decide) (by decide) _
  · exact sound_varintField (by decide) (by decide) (signedVarint_lt _)
  · exact sound_varintField (by decide) (by decide) (signedVarint_lt _)
  · exact sound_varintField (by decide) (by decide) (signedVarint_lt _)
  · exact sound_stringField (by decide) (by decide) _
  · exact sound_stringField (by decide) (by decide) _
  · rw [errorFields]
    rcases out.error with _ | _
    · simp
    · exact sound_messageField (by decide) (by decide) _

theorem ActionResult.getError_fields (distinct : out.Distinct)
    (small : fieldsSize out.fields < 2 ^ 64) :
    (getMessage 9 out.fields).bind (·.mapM Error.decode) = some out.error := by
  rcases present : out.error with _ | err
  · have absent : getMessage 9 out.fields = some none :=
      getMessage_eq_none (by simp [fields, errorFields, present, int32Field, int64Field])
    simp [absent]
  · have within : fieldsSize err.fields < 2 ^ 64 := by
      simp only [fields, errorFields, present, Option.map_some, Option.getD_some,
        fieldsSize_append, fieldsSize_messageField, delimitedSize] at small
      omega
    have found : getMessage 9 out.fields = some (some err.fields) :=
      getMessage_eq (fits_of_sound err.sound_fields within)
        (by simp [fields, errorFields, present, int32Field, int64Field])
    simp [found, Error.decode_fields (distinct err present) within]

theorem ActionResult.decode_fields (distinct : out.Distinct)
    (small : fieldsSize out.fields < 2 ^ 64) :
    ActionResult.decode out.fields = some out := by
  have quiet : ∀ num, num ≠ 9 → withNumber num out.errorFields = [] := by
    intro num other
    rw [errorFields]
    rcases out.error with _ | _
    · rfl
    · simp [other.symm]
  have id : getString 1 out.fields = some out.actionId :=
    getString_eq (by simp [fields, quiet, int32Field, int64Field])
  have status : getInt32 2 out.fields = some out.status :=
    getInt32_eq (by simp [fields, quiet, int32Field, int64Field])
  have exitCode : getInt32 3 out.fields = some out.exitCode :=
    getInt32_eq (by simp [fields, quiet, int32Field, int64Field])
  have micros : getInt64 4 out.fields = some out.durationMicros :=
    getInt64_eq (by simp [fields, quiet, int32Field, int64Field])
  have failureMessage : getString 6 out.fields = some out.failureMessage :=
    getString_eq (by simp [fields, quiet, int32Field, int64Field])
  have failureStack : getString 7 out.fields = some out.failureStack :=
    getString_eq (by simp [fields, quiet, int32Field, int64Field])
  rcases Option.bind_eq_some_iff.mp (getError_fields distinct small) with ⟨part, found, decoded⟩
  simp [decode, id, status, exitCode, micros, failureMessage, failureStack, found, decoded]

theorem Envelope.sound_fields : ∀ field ∈ envelope.fields, field.Sound := by
  simp only [fields, List.forall_mem_append]
  refine ⟨⟨?_, ?_⟩, ?_⟩
  · have := envelope.version.toNat_lt
    exact sound_varintField (by decide) (by decide) (by omega)
  · exact sound_varintField (by decide) (by decide) envelope.requestId.toNat_lt
  · rw [resultFields]
    rcases envelope.result with _ | _
    · simp
    · exact sound_messageField (by decide) (by decide) _

theorem Envelope.lastResult_fields (carries : envelope.result = some out) :
    lastResult envelope.fields = messageField 14 out.fields := by
  have head : ∀ num val, num ∉ bodyNumbers →
      (varintField num val).filter (·.number ∈ bodyNumbers) = [] := by
    intro num val other
    rw [varintField]
    split_ifs <;> simp [other]
  rw [lastResult, fields, resultFields, carries, List.filter_append, List.filter_append,
    head 1 _ (by decide), head 2 _ (by decide)]
  simp [messageField, bodyNumbers]

theorem Envelope.decode_toByteArray {envelope : Envelope} (carries : envelope.result = some out)
    (distinct : out.Distinct) (small : envelope.toByteArray.length < 2 ^ 64) :
    Envelope.decode envelope.toByteArray = some envelope := by
  rw [toByteArray, length_encodeFields] at small
  have parsed : parseFields envelope.toByteArray = some envelope.fields :=
    parseFields_encodeFields (fits_of_sound envelope.sound_fields small)
  have ver : getVarint 1 envelope.fields = some envelope.version.toNat :=
    getVarint_eq (by simp [fields, resultFields, carries])
  have reqId : getVarint 2 envelope.fields = some envelope.requestId.toNat :=
    getVarint_eq (by simp [fields, resultFields, carries])
  have last := envelope.lastResult_fields carries
  have within : fieldsSize out.fields < 2 ^ 64 := by
    simp only [fields, resultFields, carries, Option.map_some, Option.getD_some,
      fieldsSize_append, fieldsSize_messageField, delimitedSize] at small
    omega
  have body : getMessage 14 (lastResult envelope.fields) = some (some out.fields) :=
    getMessage_eq (fits_of_sound out.sound_fields within) (by simp [last])
  rcases envelope with ⟨versionNumber, req, carried⟩
  simp only at carries
  subst carries
  simp [decode, parsed, ver, reqId, body, ActionResult.decode_fields distinct within]

end Messages

/-!
# Frames between the daemon and the client

The daemon writes the length of an envelope, a word of four bytes with the highest first, and the
envelope.  The codec of the client waits until the whole frame has come in, and gives up on a frame
whose length is above the limit as soon as it has seen the length.
-/

open List

def maxFrameBytes : ℕ := 16 * 1024 * 1024

def beBytes (width word : ℕ) : Bytes := (leBytes width word).reverse

def beWord (bytes : Bytes) : ℕ := leWord bytes.reverse

theorem beWord_beBytes {width word : ℕ} (fits : word < 256 ^ width) :
    beWord (beBytes width word) = word := by
  rw [beWord, beBytes, reverse_reverse, leWord_leBytes fits]

@[simp]
theorem length_beBytes (width word : ℕ) : (beBytes width word).length = width := by
  simp [beBytes]

def writeEnvelope (envelope : Envelope) : Option Bytes :=
  let payload := envelope.toByteArray
  if payload.length < 2 ^ 31 then some (beBytes 4 payload.length ++ payload) else none

inductive TransportError where
  | closed
  | daemonCrashed (kind : String)
  | io
  | encode
  | decode
  | frameTooLarge (announced : ℕ)
deriving DecidableEq

inductive Framed where
  | incomplete
  | tooBig
  | frame (payload rest : Bytes)
deriving DecidableEq

def decodeFrame (buffer : Bytes) : Framed :=
  if buffer.length < 4 then .incomplete
  else if maxFrameBytes < beWord (buffer.take 4) then .tooBig
  else if (buffer.drop 4).length < beWord (buffer.take 4) then .incomplete
  else
    .frame ((buffer.drop 4).take (beWord (buffer.take 4)))
      ((buffer.drop 4).drop (beWord (buffer.take 4)))

def decodeEnvelope (payload : Bytes) : Except TransportError Envelope :=
  match Envelope.decode payload with
  | some envelope => .ok envelope
  | none => .error .decode

def recv (buffer : Bytes) : List Bytes → Except TransportError (Envelope × Bytes × List Bytes)
  | [] =>
    match decodeFrame buffer with
    | .tooBig => .error (.frameTooLarge 0)
    | .frame payload rest => (decodeEnvelope payload).map (·, rest, [])
    | .incomplete => .error (if buffer.isEmpty then .closed else .daemonCrashed "UnexpectedEof")
  | part :: parts =>
    match decodeFrame buffer with
    | .tooBig => .error (.frameTooLarge 0)
    | .frame payload rest => (decodeEnvelope payload).map (·, rest, part :: parts)
    | .incomplete => recv (buffer ++ part) parts

/-- The envelope is written, and read back however the bytes are split. -/
def Delivered (envelope : Envelope) : Prop :=
  ∃ frame, writeEnvelope envelope = some frame ∧ ∀ parts rest, parts.flatten = frame ++ rest →
      ∃ left, recv [] parts = .ok (envelope, left)

section Decoding

variable {payload buffer unseen rest : Bytes} (short : payload.length < 2 ^ 32)
include short

theorem beWord_take (comes : buffer ++ unseen = beBytes 4 payload.length ++ payload ++ rest)
    (long : 4 ≤ buffer.length) : beWord (buffer.take 4) = payload.length := by
  have front : buffer.take 4 = beBytes 4 payload.length := by
    have same := congrArg (List.take 4) comes
    rwa [take_append_of_le_length long, append_assoc, take_left' (length_beBytes 4 _)] at same
  rw [front, beWord_beBytes (by omega)]

theorem decodeFrame_large (large : maxFrameBytes < payload.length)
    (comes : buffer ++ unseen = beBytes 4 payload.length ++ payload ++ rest) :
    decodeFrame buffer = if buffer.length < 4 then .incomplete else .tooBig := by
  rw [decodeFrame]
  split_ifs with few announced behind
  · rfl
  · rfl
  · exact absurd (by rwa [beWord_take short comes (by omega)]) announced
  · exact absurd (by rwa [beWord_take short comes (by omega)]) announced

theorem decodeFrame_small (small : payload.length ≤ maxFrameBytes)
    (comes : buffer ++ unseen = beBytes 4 payload.length ++ payload ++ rest) :
    (decodeFrame buffer = .incomplete ∧ buffer.length < payload.length + 4) ∨
      ∃ post, decodeFrame buffer = .frame payload post := by
  by_cases few : buffer.length < 4
  · exact .inl ⟨by rw [decodeFrame, if_pos few], by omega⟩
  · have announced := beWord_take short comes (by omega)
    rw [decodeFrame, if_neg few, announced, if_neg (by omega)]
    by_cases behind : (buffer.drop 4).length < payload.length
    · refine .inl ⟨if_pos behind, ?_⟩
      rw [length_drop] at behind
      omega
    · have body : buffer.drop 4 ++ unseen = payload ++ rest := by
        have same := congrArg (List.drop 4) comes
        rwa [drop_append_of_le_length (by omega), append_assoc,
          drop_left' (length_beBytes 4 _)] at same
      have front : (buffer.drop 4).take payload.length = payload := by
        have same := congrArg (List.take payload.length) body
        rwa [take_append_of_le_length (by omega), take_left] at same
      exact .inr ⟨_, by rw [if_neg behind, front]⟩

theorem recv_large (large : maxFrameBytes < payload.length) {parts : List Bytes}
    (comes : buffer ++ parts.flatten = beBytes 4 payload.length ++ payload ++ rest) :
    recv buffer parts = .error (.frameTooLarge 0) := by
  induction parts generalizing buffer with
  | nil =>
    have whole := congrArg List.length comes
    simp only [flatten_nil, append_nil, length_append, length_beBytes] at whole
    rw [recv, decodeFrame_large short large comes, if_neg (by omega)]
  | cons part parts ih =>
    rw [recv, decodeFrame_large short large comes]
    split_ifs
    · exact ih (by simpa using comes)
    · rfl

theorem recv_small (small : payload.length ≤ maxFrameBytes) {envelope : Envelope}
    (decodes : Envelope.decode payload = some envelope) {parts : List Bytes}
    (comes : buffer ++ parts.flatten = beBytes 4 payload.length ++ payload ++ rest) :
    ∃ left, recv buffer parts = .ok (envelope, left) := by
  have decoded : decodeEnvelope payload = .ok envelope := by rw [decodeEnvelope, decodes]
  induction parts generalizing buffer with
  | nil =>
    rcases decodeFrame_small short small comes with ⟨-, few⟩ | ⟨post, found⟩
    · have whole := congrArg List.length comes
      simp only [flatten_nil, append_nil, length_append, length_beBytes] at whole
      omega
    · exact ⟨(post, []), by rw [recv, found]; simp only [decoded]; rfl⟩
  | cons part parts ih =>
    rcases decodeFrame_small short small comes with ⟨waits, -⟩ | ⟨post, found⟩
    · rw [recv, waits]
      exact ih (by simpa using comes)
    · exact ⟨(post, part :: parts), by rw [recv, found]; simp only [decoded]; rfl⟩

end Decoding

theorem delivered_iff {envelope : Envelope} {out : ActionResult}
    (carries : envelope.result = some out) (distinct : out.Distinct) :
    Delivered envelope ↔ envelope.toByteArray.length ≤ maxFrameBytes := by
  have limit : maxFrameBytes < 2 ^ 31 := by decide
  constructor
  · rintro ⟨frame, written, receives⟩
    by_contra large
    simp only [writeEnvelope, Option.ite_none_right_eq_some, Option.some.injEq] at written
    rcases written with ⟨short, rfl⟩
    have comes : [] ++ [beBytes 4 envelope.toByteArray.length ++ envelope.toByteArray].flatten =
        beBytes 4 envelope.toByteArray.length ++ envelope.toByteArray ++ [] := by simp
    rcases receives _ [] comes with ⟨left, received⟩
    rw [recv_large (by omega) (by omega) comes] at received
    cases received
  · intro small
    refine ⟨_, if_pos (by omega), ?_⟩
    intro parts rest comes
    exact recv_small (by omega) small
      (Envelope.decode_toByteArray carries distinct (by omega)) (by simpa using comes)

end Barista.Ipc.Wire
