import Barista.Cache.Cas

/-!
# The client of a roastery

A roastery is a shared cache that serves blobs by their digest.  The server is not trusted: it may
answer a request with any status, headers and body, or not at all.
-/

namespace Barista.Cache

namespace ContentHash

def ofBytes (bytes : Bytes) : Option ContentHash :=
  if size : bytes.length = 32 then some ⟨⟨bytes.toArray, by simpa using size⟩⟩ else none

/-- The parser of the content store, which accepts digits of both cases. -/
def fromHex (text : String) : Option ContentHash :=
  if text.utf8ByteSize ≠ 64 then none else (Hex.decode text.toList).bind ofBytes

theorem utf8ByteSize_ofList {chars : List Char} (ascii : ∀ char ∈ chars, char.utf8Size = 1) :
    (String.ofList chars).utf8ByteSize = chars.length := by
  rw [String.utf8ByteSize, String.toByteArray_ofList]
  induction chars with
  | nil => rfl
  | cons char chars ih =>
    rw [List.forall_mem_cons] at ascii
    have one : [char].utf8Encode.size = 1 := by
      rw [List.utf8Encode_singleton, ← ascii.1]
      simp
    rw [List.utf8Encode_cons, ByteArray.size_append, one, ih ascii.2, List.length_cons]
    omega

theorem utf8Size_of_mem {bytes : Bytes} {char : Char} (mem : char ∈ Hex.encode bytes) :
    char.utf8Size = 1 := by
  have each : ∀ val : Fin 16, val.val.digitChar.utf8Size = 1 := by decide
  rcases List.mem_flatMap.mp mem with ⟨byte, _, digit⟩
  rcases Hex.exists_digitChar digit with ⟨val, rfl⟩
  exact each val

theorem fromHex_toHex (hash : ContentHash) : fromHex hash.toHex = some hash := by
  have size : hash.toHex.utf8ByteSize = 64 := by
    rw [toHex, utf8ByteSize_ofList fun _ => utf8Size_of_mem,
      Hex.length_encode, Vector.length_toList]
  rw [fromHex, if_neg (by simp [size]), toHex, String.toList_ofList, Hex.decode_encode]
  simp only [Option.bind_some, ofBytes, Vector.length_toList, ↓reduceDIte]
  rcases hash with ⟨⟨bytes, size⟩⟩
  rfl

end ContentHash

/-- The parser of the digests on the wire, which accepts digits in lower case only. -/
def Digest.fromHex (text : String) : Option ContentHash :=
  if text.toList.all fun char =>
      ('0' ≤ char && char ≤ '9') || ('a' ≤ char && char ≤ 'f') then ContentHash.fromHex text
  else none

namespace Roastery

inductive TransportFailure where
  | network
  | timeout
  | tls
  deriving DecidableEq

structure Reply where
  status : ℕ
  headers : String → Option Bytes
  body : Except TransportFailure Bytes

inductive ClientError where
  | config (reason : String)
  | transport (failure : TransportFailure)
  | auth (code message : String)
  | serverRejected (status : ℕ) (code message : String)
  | notFound
  | badResponse (reason : String)
  deriving DecidableEq

structure BlobStat where
  size : ℕ
  digest : ContentHash
  deriving DecidableEq

structure BlobStream where
  stat : BlobStat
  body : Except TransportFailure Bytes

def headerText (value : Bytes) : Option String :=
  if value.all fun byte => byte == 9 || (32 ≤ byte && byte < 127) then
    some (.ofList (value.map fun byte => Char.ofNat byte.toNat))
  else none

def parseU64 (text : String) : Option ℕ :=
  let digits := match text.toList with
    | '+' :: rest => rest
    | chars => chars
  if digits.isEmpty || !digits.all Char.isDigit then none
  else
    let value := digits.foldl (fun value digit => 10 * value + (digit.toNat - '0'.toNat)) 0
    if value < 2 ^ 64 then some value else none

def requireHeader (headers : String → Option Bytes) (name : String) : Except ClientError String :=
  match headers name with
  | none => .error (.badResponse ("response is missing " ++ name))
  | some value =>
    match headerText value with
    | none => .error (.badResponse (name ++ " is not valid ASCII"))
    | some text => .ok text

def parseBlobStat (headers : String → Option Bytes) (expected : ContentHash) :
    Except ClientError BlobStat := do
  let length ← requireHeader headers "Content-Length"
  match parseU64 length with
  | none => throw (.badResponse "Content-Length is not a u64")
  | some size =>
    let rawDigest := Text.trim (← requireHeader headers "X-Barista-Digest")
    match Digest.fromHex ((Text.stripPrefix "sha256:" rawDigest).getD rawDigest) with
    | none => throw (.badResponse "X-Barista-Digest is not a valid SHA-256")
    | some serverDigest =>
      if serverDigest ≠ expected then
        throw (.badResponse ("X-Barista-Digest mismatch: requested " ++ expected.toHex ++
          " but server echoed " ++ serverDigest.toHex))
      else return ⟨size, expected⟩

end Roastery

structure Roastery where
  url : String
  /-- The error of building a request for the base URL and with the token, if there is one. -/
  request : Option String
  /-- Whether a text may stand in a header. -/
  isHeaderValue : String → Bool
  /-- The code and message in the body of an error reply. -/
  errorBody : Bytes → Option (String × String)
  fromUtf8Lossy : Bytes → String
  serve : ContentHash → String → Except Roastery.TransportFailure Roastery.Reply

namespace Roastery

variable (roastery : Roastery)

def rejection (reply : Reply) : ClientError :=
  match reply.body with
  | .error failure => .transport failure
  | .ok body =>
    if reply.status = 401 then
      let (code, message) := (roastery.errorBody body).getD ("BAR-AUTH-001", "unauthorized")
      .auth code message
    else
      match roastery.errorBody body with
      | some (code, message) => .serverRejected reply.status code message
      | none =>
        let text := roastery.fromUtf8Lossy body
        .serverRejected reply.status "BAR-UNKNOWN"
          (if text.isEmpty then
            "server returned HTTP " ++ toString reply.status ++ " with empty body"
          else text)

def checkStatus (reply : Reply) : Except ClientError Reply :=
  if 200 ≤ reply.status ∧ reply.status < 300 then .ok reply
  else .error (roastery.rejection reply)

def getBlobWithCoords (digest : ContentHash) (coords : String) : Except ClientError BlobStream :=
  match roastery.request with
  | some reason => .error (.config reason)
  | none =>
    if !roastery.isHeaderValue coords then
      .error (.config ("X-Barista-Coords " ++ coords ++ " is not a valid header value"))
    else
      match roastery.serve digest coords with
      | .error failure => .error (.transport failure)
      | .ok reply =>
        if reply.status = 404 then .error .notFound
        else do
          let reply ← roastery.checkStatus reply
          let stat ← parseBlobStat reply.headers digest
          return ⟨stat, reply.body⟩

end Roastery

end Barista.Cache
