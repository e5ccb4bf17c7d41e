import Barista.Cache.Roastery
import Barista.Resolver.Source

/-!
# Requests to the upstream repository

The fetcher turns coordinates into URLs and answers into outcomes.  The repository is a function
from URLs to answers: it answers each URL always in the same way.
-/

namespace Barista.Cache

inductive Interruption where
  | timeout
  | broken (source : String)
  deriving DecidableEq

structure Headers where
  etag : Option String
  lastModified : Option String
  contentType : Option String
  deriving DecidableEq

inductive Response where
  | interrupted (reason : Interruption)
  | answered (status : ℕ) (headers : Headers) (body : Except Interruption Bytes)

inductive FetchError where
  | transport (url source : String)
  | status (url : String) (status : ℕ)
  | timeout (url : String) (seconds : ℕ)
  deriving DecidableEq

inductive FetchOutcome where
  | fresh (bytes : Bytes) (headers : Headers)
  | notModified
  deriving DecidableEq

structure Fetcher where
  defaultUpstream : String
  requestTimeoutSecs : ℕ
  deriving DecidableEq

namespace Fetcher

variable (fetcher : Fetcher)

def interrupted (url : String) : Interruption → FetchError
  | .timeout => .timeout url fetcher.requestTimeoutSecs
  | .broken source => .transport url source

def fetch (respond : String → Response) (url : String) : Except FetchError FetchOutcome :=
  match respond url with
  | .interrupted reason => .error (fetcher.interrupted url reason)
  | .answered status headers body =>
    if status = 304 then .ok .notModified
    else if ¬(200 ≤ status ∧ status < 300) then .error (.status url status)
    else
      match body with
      | .error reason => .error (fetcher.interrupted url reason)
      | .ok bytes => .ok (.fresh bytes headers)

def base : String := .ofList (fetcher.defaultUpstream.toList.reverse.dropWhile (· = '/')).reverse

def groupPath (group : String) : String := group.map fun char => if char = '.' then '/' else char

def urlForArtifact (group artifact version : String) (classifier : Option String)
    (extension : String) : String :=
  let suffix := match classifier with
    | some classifier => "-" ++ classifier
    | none => ""
  fetcher.base ++ "/" ++ groupPath group ++ "/" ++ artifact ++ "/" ++ version ++ "/" ++
    artifact ++ "-" ++ version ++ suffix ++ "." ++ extension

def urlForMetadata (group artifact : String) : String :=
  fetcher.base ++ "/" ++ groupPath group ++ "/" ++ artifact ++ "/maven-metadata.xml"

def urlForSidecar (artifactUrl algorithm : String) : String := artifactUrl ++ "." ++ algorithm

end Fetcher

/-!
# Checksum sidecars

A repository publishes the digests of an artifact in small text files next to it.  The bytes of an
artifact are checked against the sidecars that could be fetched.
-/

inductive Algorithm where
  | sha1
  | sha256
  deriving DecidableEq

namespace Algorithm

def hexLen : Algorithm → ℕ
  | sha1 => 40
  | sha256 => 64

def debug : Algorithm → String
  | sha1 => "Sha1"
  | sha256 => "Sha256"

end Algorithm

structure ChecksumExpected where
  algorithm : Algorithm
  hex : String
  deriving DecidableEq

inductive ChecksumError where
  | format (detail : String)
  | mismatch (expected : ChecksumExpected) (computed : String)
  deriving DecidableEq

inductive Verification where
  | sha256Verified (hex : String)
  | sha1Verified (hex : String)
  | unverified
  deriving DecidableEq

structure Digests where
  sha256 : Bytes → ContentHash
  sha1 : Bytes → Bytes

def isAsciiHexDigit (char : Char) : Bool :=
  char.isDigit || ('a' ≤ char && char ≤ 'f') || ('A' ≤ char && char ≤ 'F')

def firstToken (text : List Char) : List Char :=
  (text.dropWhile Text.isWhitespace).takeWhile (!Text.isWhitespace ·)

namespace ChecksumExpected

def parseLine (algorithm : Algorithm) (line : List Char) : Except ChecksumError ChecksumExpected :=
  let hex := firstToken line
  let length := (String.ofList hex).utf8ByteSize
  if length ≠ algorithm.hexLen then
    .error (.format (algorithm.debug ++ " sidecar expected " ++ toString algorithm.hexLen ++
      " hex chars, got " ++ toString length))
  else if !hex.all isAsciiHexDigit then .error (.format "sidecar contains non-hex characters")
  else .ok ⟨algorithm, String.ofList (hex.map Char.toLower)⟩

def parse (algorithm : Algorithm) (raw : String) : Except ChecksumError ChecksumExpected :=
  match ((raw.toList.splitOn '\n').map Text.trimChars).find? fun line =>
      !(line.isEmpty || line.head? == some '#') with
  | some line => parseLine algorithm line
  | none => .error (.format "sidecar file contained no non-empty lines")

end ChecksumExpected

namespace Digests

variable (digests : Digests) (bytes : Bytes)

def hexSha256 : String := (digests.sha256 bytes).toHex

def hexSha1 : String := .ofList (Hex.encode (digests.sha1 bytes))

def check (algorithm : Algorithm) (computed : String) : Option String → Except ChecksumError Bool
  | none => .ok false
  | some raw => do
    let expected ← ChecksumExpected.parse algorithm raw
    if expected.hex ≠ computed then throw (.mismatch expected computed)
    else return true

def verify (sha256Sidecar sha1Sidecar : Option String) : Except ChecksumError Verification := do
  let sha256Ok ← check .sha256 (digests.hexSha256 bytes) sha256Sidecar
  let sha1Ok ← check .sha1 (digests.hexSha1 bytes) sha1Sidecar
  return if sha256Ok then .sha256Verified (digests.hexSha256 bytes)
    else if sha1Ok then .sha1Verified (digests.hexSha1 bytes)
    else .unverified

theorem hex_eq_of_verify {bytes : Bytes} {raw : String} {sha1Sidecar : Option String}
    {verification : Verification}
    (verified : digests.verify bytes (some raw) sha1Sidecar = .ok verification) :
    ∃ want, ChecksumExpected.parse .sha256 raw = .ok want ∧ want.hex = digests.hexSha256 bytes := by
  rcases parsed : ChecksumExpected.parse .sha256 raw with _ | want
  · simp [verify, check, parsed, bind, Except.bind] at verified
  · refine ⟨want, rfl, ?_⟩
    by_contra ne
    simp [verify, check, parsed, bind, Except.bind, ne, throw, throwThe,
      MonadExceptOf.throw] at verified

end Digests

open Resolver (MetadataError FetchOrigin)

structure Store where
  index : IndexMap
  objects : ContentHash → Option Bytes

namespace Store

variable (store : Store)

def empty : Store := ⟨∅, fun _ => none⟩

def putBlob (hash : ContentHash) (bytes : Bytes) : Store :=
  { store with
    objects := Function.update store.objects hash (some ((store.objects hash).getD bytes)) }

def putRow (key : IndexKey) (entry : IndexEntry) : Store :=
  { store with index := store.index.insert key entry }

def touch (key : IndexKey) (now : UInt64) : Store :=
  { store with index := (JournalEntry.touch key now).applyTo store.index }

end Store

structure Environment where
  fetcher : Fetcher
  respond : String → Response
  digests : Digests
  fromUtf8Lossy : Bytes → String
  toLowercase : String → String
  displayCas : CasError → String
  displayFetch : FetchError → String
  displayChecksum : ChecksumError → String
  /-- Whether the allocator grants a vector of this capacity. -/
  allocates : ℕ → Bool

structure Download where
  bytes : Bytes
  url : String
  sha1Hex : Option String
  headers : Headers
  deriving DecidableEq

inductive DownloadFailure where
  | fetch (error : FetchError)
  | notModified
  | checksum (error : ChecksumError)
  deriving DecidableEq

namespace Environment

variable (env : Environment)

def artifactUrl (target : IndexKey) : String :=
  env.fetcher.urlForArtifact target.coords.group target.coords.artifact target.version
    target.classifier target.type

def sidecar (artifactUrl algorithm : String) : Option String :=
  match env.fetcher.fetch env.respond (Fetcher.urlForSidecar artifactUrl algorithm) with
  | .ok (.fresh bytes _) => some (env.fromUtf8Lossy bytes)
  | _ => none

def fetchFresh (url : String) : Except DownloadFailure (Bytes × Headers) :=
  match env.fetcher.fetch env.respond url with
  | .error error => .error (.fetch error)
  | .ok .notModified => .error .notModified
  | .ok (.fresh bytes headers) => .ok (bytes, headers)

def recordedSha1 : Verification → Option String
  | .sha1Verified hex => some hex
  | _ => none

def downloadArtifact (target : IndexKey) : Except DownloadFailure Download := do
  let url := env.artifactUrl target
  let (bytes, headers) ← env.fetchFresh url
  match env.digests.verify bytes (env.sidecar url "sha256") (env.sidecar url "sha1") with
  | .error error => throw (.checksum error)
  | .ok verification => return ⟨bytes, url, recordedSha1 verification, headers⟩

def downloadUrl (url : String) : Except DownloadFailure Download := do
  let (bytes, headers) ← env.fetchFresh url
  return ⟨bytes, url, none, headers⟩

def rowFor (download : Download) (now : UInt64) : IndexEntry where
  hash := env.digests.sha256 download.bytes
  sizeBytes := .ofNat download.bytes.length
  sha1Hex := download.sha1Hex
  origin :=
    { repositoryUrl := download.url
      etag := download.headers.etag
      lastModified := download.headers.lastModified
      upstreamLastUpdated := none
      tier := .upstream }
  atimeUnix := now
  createdUnix := now

def mapCasErr (coords : Coords) (version : String) (error : CasError) : MetadataError :=
  .transport coords.display version ("cas: " ++ env.displayCas error)

def mapFetchErr (coords : Coords) (version : String) (error : FetchError) : MetadataError :=
  match error with
  | .status _ status =>
    if status = 404 then .notFound coords.display version
    else if status = 401 ∨ status = 403 then .authRequired coords.display version
    else .transport coords.display version (env.displayFetch error)
  | _ => .transport coords.display version (env.displayFetch error)

end Environment

structure Request where
  target : IndexKey
  urlOverride : Option String
  key : IndexKey
  deriving DecidableEq

inductive Ended (α : Type) where
  | returned (value : α)
  | panicked
  /-- The allocator gave up, which ends the whole process. -/
  | aborted
  deriving DecidableEq

inductive RoasteryOutcome where
  | hit
  | miss
  | unreachable
  | authFailed
  | digestMismatch
  deriving DecidableEq

namespace Request

def artifact (target : IndexKey) : Request := ⟨target, none, target⟩

def metadataSentinelVersion : String := "<metadata>"

def snapshotMetaLead : String := "<snapshot-metadata>:"

def snapshotMetaVersion (version : String) : String := snapshotMetaLead ++ version

def metadataKey (coords : Coords) (version : String) : IndexKey :=
  ⟨coords, version, "maven-metadata.xml", none⟩

def metadata (fetcher : Fetcher) (coords : Coords) : Request where
  target := metadataKey coords ""
  urlOverride := some (fetcher.urlForMetadata coords.group coords.artifact)
  key := metadataKey coords metadataSentinelVersion

def snapshotMetadata (fetcher : Fetcher) (coords : Coords) (version : String) : Request where
  target := metadataKey coords version
  urlOverride := some (Text.replace (fetcher.urlForMetadata coords.group coords.artifact)
    "/maven-metadata.xml" ("/" ++ version ++ "/maven-metadata.xml"))
  key := metadataKey coords (snapshotMetaVersion version)

end Request

section Fetching

variable (env : Environment) (now : UInt64) (request : Request)

def artifactError : DownloadFailure → MetadataError
  | .fetch error => env.mapFetchErr request.target.coords request.target.version error
  | .notModified => .transport request.target.coords.display request.target.version
      "upstream returned 304 with no cached entry"
  | .checksum error => .parse "checksum sidecar" request.target.coords.display
      request.target.version (env.displayChecksum error)

def urlError : DownloadFailure → MetadataError
  | .fetch error => env.mapFetchErr request.target.coords request.target.version error
  | _ => .metadataNotFound request.target.coords.display

def fetchAndCache (store : Store) : Except MetadataError (Bytes × FetchOrigin) × Store :=
  match env.downloadArtifact request.target with
  | .error failure => (.error (artifactError env request failure), store)
  | .ok download =>
    (.ok (download.bytes, .remote),
      (store.putBlob (env.digests.sha256 download.bytes) download.bytes).putRow request.key
        (env.rowFor download now))

def fetchUrlAndCache (url : String) (store : Store) :
    Except MetadataError (Bytes × FetchOrigin) × Store :=
  match env.downloadUrl url with
  | .error failure => (.error (urlError env request failure), store)
  | .ok download =>
    (.ok (download.bytes, .remote),
      (store.putBlob (env.digests.sha256 download.bytes) download.bytes).putRow request.key
        (env.rowFor download now))

def formatCoordsHeader (target : IndexKey) : String :=
  match target.classifier with
  | some classifier =>
    target.coords.display ++ ":" ++ target.type ++ ":" ++ classifier ++ ":" ++ target.version
  | none =>
    if target.type ≠ "jar" then
      target.coords.display ++ ":" ++ target.type ++ ":" ++ target.version
    else target.coords.display ++ ":" ++ target.version

def sidecarDigest (target : IndexKey) : Option ContentHash :=
  (env.sidecar (env.artifactUrl target) "sha256").bind fun text =>
    match firstToken text.toList with
    | [] => none
    | token => Digest.fromHex (env.toLowercase (Text.trim (.ofList token)))

def isizeMax : ℕ := 2 ^ 63 - 1

def classifyClientError : Roastery.ClientError → Except RoasteryOutcome Unit
  | .notFound => .ok ()
  | .auth _ _ => .error .authFailed
  | .serverRejected _ code _ =>
    if code = "BAR-CAS-001" then .error .digestMismatch else .error .unreachable
  | _ => .error .unreachable

variable (roastery : Roastery)

def roasteryRow (hash : ContentHash) (bytes : Bytes)
    (verification : Verification) (now : UInt64) : IndexEntry where
  hash := hash
  sizeBytes := .ofNat bytes.length
  sha1Hex := Environment.recordedSha1 verification
  origin :=
    { repositoryUrl := roastery.url
      etag := none
      lastModified := none
      upstreamLastUpdated := none
      tier := .roastery }
  atimeUnix := now
  createdUnix := now

def acceptBlob (now : UInt64) (target : IndexKey) (digest : ContentHash)
    (blob : Roastery.BlobStream) (store : Store) :
    Except RoasteryOutcome (Option (Bytes × IndexEntry)) × Store :=
  let url := env.artifactUrl target
  match blob.body with
  | .error _ => (.error .unreachable, store)
  | .ok bytes =>
    if bytes.length ≠ blob.stat.size then (.error .unreachable, store)
    else
      match env.digests.verify bytes (env.sidecar url "sha256") (env.sidecar url "sha1") with
      | .error _ => (.error .digestMismatch, store)
      | .ok verification =>
        let hash := env.digests.sha256 bytes
        let store := store.putBlob hash bytes
        if hash ≠ digest then (.error .digestMismatch, store)
        else (.ok (some (bytes, roasteryRow roastery hash bytes verification now)), store)

def tryRoastery (now : UInt64) (target : IndexKey) (store : Store) :
    Ended (Except RoasteryOutcome (Option (Bytes × IndexEntry))) × Store :=
  match sidecarDigest env target with
  | none => (.returned (.ok none), store)
  | some digest =>
    match roastery.getBlobWithCoords digest (formatCoordsHeader target) with
    | .error error => (.returned ((classifyClientError error).map fun _ => none), store)
    | .ok blob =>
      -- the buffer for the body is allocated with the declared size
      if isizeMax < blob.stat.size then (.panicked, store)
      else if env.allocates blob.stat.size = false then (.aborted, store)
      else
        let (answer, store) := acceptBlob env roastery now target digest blob store
        (.returned answer, store)

def fetchUpstream (store : Store) : Except MetadataError (Bytes × FetchOrigin) × Store :=
  match request.urlOverride with
  | some url => fetchUrlAndCache env now request url store
  | none => fetchAndCache env now request store

def fetchHit (entry : IndexEntry) (store : Store) :
    Except MetadataError (Bytes × FetchOrigin) × Store :=
  match store.objects entry.hash with
  | some bytes => (.ok (bytes, .disk), store.touch request.key now)
  | none =>
    (.error (env.mapCasErr request.target.coords request.target.version
      (.io (Cas.pathFor entry.hash) .notFound)), store)

def getOrFetchArtifact (roastery : Option Roastery) (now : UInt64) (request : Request)
    (store : Store) : Ended (Except MetadataError (Bytes × FetchOrigin)) × Store :=
  match store.index[request.key]? with
  | some entry =>
    let (answer, store) := fetchHit env now request entry store
    (.returned answer, store)
  | none =>
    match request.urlOverride, roastery with
    | none, some roastery =>
      match tryRoastery env roastery now request.target store with
      | (.panicked, store) => (.panicked, store)
      | (.aborted, store) => (.aborted, store)
      | (.returned (.ok (some (bytes, entry))), store) =>
        (.returned (.ok (bytes, .remote)), store.putRow request.key entry)
      | (.returned _, store) =>
        let (answer, store) := fetchUpstream env now request store
        (.returned answer, store)
    | _, _ =>
      let (answer, store) := fetchUpstream env now request store
      (.returned answer, store)

variable {env} in
theorem fetchUpstream_fst (req : Request) (now now' : UInt64) (store store' : Store) :
    (fetchUpstream env now req store).1 = (fetchUpstream env now' req store').1 := by
  rcases override : req.urlOverride with _ | url
  · simp only [fetchUpstream, override, fetchAndCache]
    rcases env.downloadArtifact req.target with failure | _
    · cases failure <;> rfl
    · rfl
  · simp only [fetchUpstream, override, fetchUrlAndCache]
    rcases env.downloadUrl url with failure | _
    · cases failure <;> rfl
    · rfl

end Fetching

def shortHash (bytes : Bytes) : ContentHash := ⟨Vector.ofFn fun index : Fin 32 =>
    if index.val = 0 then UInt8.ofNat bytes.length else bytes.getD (index.val - 1) 0⟩

def asciiBytes (text : String) : Bytes := text.toList.map fun char => UInt8.ofNat char.toNat

def asciiText (bytes : Bytes) : String := .ofList (bytes.map fun byte => Char.ofNat byte.toNat)

def repository (files : List (String × Bytes)) (url : String) : Response :=
  match files.find? fun file => file.1 == url with
  | some file => .answered 200 ⟨none, none, none⟩ (.ok file.2)
  | none => .answered 404 ⟨none, none, none⟩ (.ok [])

def Environment.small (files : List (String × Bytes)) : Environment where
  fetcher := ⟨"https://repo", 60⟩
  respond := repository files
  digests := ⟨shortHash, fun _ => []⟩
  fromUtf8Lossy := asciiText
  toLowercase := id
  displayCas := fun _ => "not found"
  displayFetch := fun _ => "not fetched"
  displayChecksum := fun _ => "not verified"
  allocates := fun size => size < 2 ^ 32

end Barista.Cache
