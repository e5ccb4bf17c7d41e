import Barista.Document

/-!
# The lockfile

The records of `barista.lock` and their rendering as TOML.  Rendering and parsing are those of the
`toml` crate, which is a parameter: it turns documents into text and text into documents.
-/

namespace Barista

namespace Lockfile

open Document

def lockfileSchemaVersion : UInt32 := 1

structure Meta where
  schemaVersion : UInt32
  generatedBy : String
  generatedAt : String
  projectSignature : String
  settingsFingerprint : String
  deriving DecidableEq

structure ReactorEntry where
  coords : String
  version : String
  relativePath : String
  deriving DecidableEq

structure Exclusion where
  group : String
  artifact : String
  deriving DecidableEq

structure LockfileEntry where
  coords : String
  version : String
  scope : String
  optional : Bool
  sha256 : String
  sha1 : Option String
  sizeBytes : UInt64
  sourceUrl : String
  etag : Option String
  lastModified : Option String
  classifier : Option String
  type : String
  fromPath : List String
  depth : UInt32
  snapshotResolution : Option String
  exclusions : List Exclusion
  deriving DecidableEq

structure MirrorRef where
  id : String
  url : String
  mirrorOf : String
  deriving DecidableEq

structure RepositoryRef where
  id : String
  url : String
  deriving DecidableEq

structure SettingsSnapshot where
  mirrors : List MirrorRef
  repositories : List RepositoryRef
  deriving DecidableEq

end Lockfile

structure Lockfile where
  metaTable : Lockfile.Meta
  reactor : List Lockfile.ReactorEntry
  entries : List Lockfile.LockfileEntry
  settingsSnapshot : Option Lockfile.SettingsSnapshot
  deriving DecidableEq

namespace Lockfile

open Document
open Fields (required)

def Meta.shape : Shape Meta := ((required "schema_version" Shape.u32).pair <|
    (required "generated_by" Shape.string).pair <|
    (required "generated_at" Shape.string).pair <|
    (required "project_signature" Shape.string).pair <|
    required "settings_fingerprint" Shape.string).record
      (fun value => (value.schemaVersion, value.generatedBy, value.generatedAt,
        value.projectSignature, value.settingsFingerprint))
      (fun (schemaVersion, generatedBy, generatedAt, projectSignature, settingsFingerprint) =>
        { schemaVersion, generatedBy, generatedAt, projectSignature, settingsFingerprint })
      (fun _ => rfl)
    |>.shape (by decide)

def ReactorEntry.shape : Shape ReactorEntry := ((required "coords" Shape.string).pair <|
    (required "version" Shape.string).pair <|
    required "relative_path" Shape.string).record
      (fun value => (value.coords, value.version, value.relativePath))
      (fun (coords, version, relativePath) => { coords, version, relativePath })
      (fun _ => rfl)
    |>.shape (by decide)

def Exclusion.shape : Shape Exclusion := ((required "group" Shape.string).pair <|
    required "artifact" Shape.string).record (fun value => (value.group, value.artifact))
      (fun (group, artifact) => { group, artifact })
      (fun _ => rfl)
    |>.shape (by decide)

def defaultType : String := "jar"

def isFalse (value : Bool) : Bool := !value

def isZeroU32 (value : UInt32) : Bool := value == 0

def LockfileEntry.shape : Shape LockfileEntry := ((required "coords" Shape.string).pair <|
    (required "version" Shape.string).pair <|
    (required "scope" Shape.string).pair <|
    (Fields.skipping "optional" Shape.bool isFalse false (by decide)).pair <|
    (required "sha256" Shape.string).pair <|
    (Fields.option "sha1" Shape.string).pair <|
    (required "size_bytes" Shape.u64).pair <|
    (required "source_url" Shape.string).pair <|
    (Fields.option "etag" Shape.string).pair <|
    (Fields.option "last_modified" Shape.string).pair <|
    (Fields.option "classifier" Shape.string).pair <|
    (Fields.defaulted "type" Shape.string defaultType).pair <|
    (Fields.list "from_path" Shape.string).pair <|
    (Fields.skipping "depth" Shape.u32 isZeroU32 0 (by simp [isZeroU32])).pair <|
    (Fields.option "snapshot_resolution" Shape.string).pair <|
    Fields.list "exclusions" Exclusion.shape).record
      (fun value => (value.coords, value.version, value.scope, value.optional, value.sha256,
        value.sha1, value.sizeBytes, value.sourceUrl, value.etag, value.lastModified,
        value.classifier, value.type, value.fromPath, value.depth, value.snapshotResolution,
        value.exclusions))
      (fun (coords, version, scope, optional, sha256, sha1, sizeBytes, sourceUrl, etag,
          lastModified, classifier, type, fromPath, depth, snapshotResolution, exclusions) =>
        { coords, version, scope, optional, sha256, sha1, sizeBytes, sourceUrl, etag,
          lastModified, classifier, type, fromPath, depth, snapshotResolution, exclusions })
      (fun _ => rfl)
    |>.shape (by decide)

def MirrorRef.shape : Shape MirrorRef := ((required "id" Shape.string).pair <|
    (required "url" Shape.string).pair <|
    required "mirror_of" Shape.string).record (fun value => (value.id, value.url, value.mirrorOf))
      (fun (id, url, mirrorOf) => { id, url, mirrorOf })
      (fun _ => rfl)
    |>.shape (by decide)

def RepositoryRef.shape : Shape RepositoryRef := ((required "id" Shape.string).pair <|
    required "url" Shape.string).record (fun value => (value.id, value.url))
      (fun (id, url) => { id, url })
      (fun _ => rfl)
    |>.shape (by decide)

def SettingsSnapshot.shape : Shape SettingsSnapshot :=
  ((Fields.list "mirrors" MirrorRef.shape).pair <|
    Fields.list "repositories" RepositoryRef.shape).record
      (fun value => (value.mirrors, value.repositories))
      (fun (mirrors, repositories) => { mirrors, repositories })
      (fun _ => rfl)
    |>.shape (by decide)

def shape : Shape Lockfile := ((required "meta" Meta.shape).pair <|
    (Fields.list "reactor" ReactorEntry.shape).pair <|
    (Fields.list "entries" LockfileEntry.shape).pair <|
    Fields.option "settings" SettingsSnapshot.shape).record
      (fun value => (value.metaTable, value.reactor, value.entries, value.settingsSnapshot))
      (fun (metaTable, reactor, entries, settingsSnapshot) =>
        { metaTable, reactor, entries, settingsSnapshot })
      (fun _ => rfl)
    |>.shape (by decide)

inductive LockfileError where
  | tomlParse (detail : String)
  | tomlSerialize (detail : String)
  | unsupportedVersion (got expected : UInt32)
  deriving DecidableEq

structure Toml where
  render : Document → Except String String
  parse : String → Except String Document

def Toml.FaithfulOn (toml : Toml) (document : Document) : Prop :=
  ∃ text, toml.render document = .ok text ∧ toml.parse text = .ok document

variable (toml : Toml)

def fromStr (text : String) : Except LockfileError Lockfile :=
  ((toml.parse text).bind shape.read).mapError LockfileError.tomlParse

def fromToml (text : String) : Except LockfileError Lockfile := do
  let lockfile ← fromStr toml text
  if lockfile.metaTable.schemaVersion ≠ lockfileSchemaVersion then
    throw (.unsupportedVersion lockfile.metaTable.schemaVersion lockfileSchemaVersion)
  else return lockfile

def toToml (lockfile : Lockfile) : Except LockfileError String :=
  (toml.render (shape.write lockfile)).mapError LockfileError.tomlSerialize

/-- A lockfile of the current schema version is parsed as it was rendered. -/
theorem fromToml_toToml (lockfile : Lockfile)
    (current : lockfile.metaTable.schemaVersion = lockfileSchemaVersion)
    (faithful : toml.FaithfulOn (shape.write lockfile)) :
    ∃ text, toToml toml lockfile = .ok text ∧ fromToml toml text = .ok lockfile := by
  rcases faithful with ⟨text, rendered, parsed⟩
  refine ⟨text, ?_, ?_⟩
  · rw [toToml, rendered]
    rfl
  · have read : fromStr toml text = .ok lockfile := by
      rw [fromStr, parsed, Except.bind, shape.read_write]
      rfl
    rw [fromToml, read]
    exact if_neg (not_not.mpr current)

def exampleLockfile : Lockfile where
  metaTable := ⟨1, "barista 0.1.0", "2026-05-13T12:34:56Z", "signature", "fingerprint"⟩
  reactor := []
  entries := [
    { coords := "org.slf4j:slf4j-api", version := "2.0.16", scope := "compile", optional := false,
      sha256 := "00", sha1 := none, sizeBytes := 65432, sourceUrl := "https://repo/slf4j-api.jar",
      etag := some "tag", lastModified := none, classifier := none, type := "jar",
      fromPath := ["org.slf4j:slf4j-api"], depth := 1, snapshotResolution := none,
      exclusions := [] }]
  settingsSnapshot := none

/-- Renders one lockfile as one text and parses that text back, and fails on all others. -/
def Toml.only (text : String) (lockfile : Lockfile) : Toml where
  render document :=
    match shape.read document with
    | .ok found => if found = lockfile then .ok text else .error "another lockfile"
    | .error detail => .error detail
  parse found := if found = text then .ok (shape.write lockfile) else .error "another text"

/-- The text that the crate renders for `exampleLockfile`. -/
def exampleText : String := "[meta]
schema_version = 1
generated_by = \"barista 0.1.0\"
generated_at = \"2026-05-13T12:34:56Z\"
project_signature = \"signature\"
settings_fingerprint = \"fingerprint\"

[[entries]]
coords = \"org.slf4j:slf4j-api\"
version = \"2.0.16\"
scope = \"compile\"
sha256 = \"00\"
size_bytes = 65432
source_url = \"https://repo/slf4j-api.jar\"
etag = \"tag\"
type = \"jar\"
from_path = [\"org.slf4j:slf4j-api\"]
depth = 1
"

theorem fromToml_toToml_example :
    let toml := Toml.only exampleText exampleLockfile
    ∃ text, toToml toml exampleLockfile = .ok text ∧ fromToml toml text = .ok exampleLockfile := by
  apply fromToml_toToml _ exampleLockfile rfl
  refine ⟨exampleText, ?_, ?_⟩
  · simp [Toml.only, shape.read_write]
  · simp [Toml.only]

end Lockfile

end Barista
