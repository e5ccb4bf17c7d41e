import Barista.Text
import Barista.Version.Item
import Barista.Coords

/-!
# Version requirements

The text of a `<version>` element is a soft preference, a union of intervals, or one of
the meta-versions `LATEST` and `RELEASE`.
-/

namespace Barista.Resolver

section Specs

inductive Bound (α : Type) where
  | unbounded
  | included (value : α)
  | excluded (value : α)

structure Interval where
  lower : Bound Version
  upper : Bound Version

inductive VersionSpec where
  | soft (version : String)
  | hard (intervals : List Interval)
  | latest
  | release

inductive SpecParseError where
  | empty
  | unmatchedBracket (input : String)
  | missingComma (input : String)
  | invalidBound (input detail : String)
  deriving DecidableEq

inductive SpecWarning where
  | latestUsed (coords resolvedTo : String)
  | releaseUsed (coords resolvedTo : String)
  deriving DecidableEq

def Interval.contains (interval : Interval) (version : Version) : Bool := (match interval.lower with
    | .unbounded => true
    | .included bound => version.cmp bound != .lt
    | .excluded bound => version.cmp bound == .gt) &&
  (match interval.upper with
    | .unbounded => true
    | .included bound => version.cmp bound != .gt
    | .excluded bound => version.cmp bound == .lt)

def VersionSpec.satisfies (version : Version) : VersionSpec → Bool
  | .hard intervals => intervals.any fun interval => interval.contains version
  | _ => true

variable (toLowercase : String → String)

def parseVersionToken (full token : String) : Except SpecParseError Version :=
  match Version.parseStrict toLowercase token with
  | some version => .ok version
  | none => .error (.invalidBound full ("invalid version \"\": empty version string"))

def parseBound (full : String) (token : List Char) (inclusive : Bool) :
    Except SpecParseError (Bound Version) :=
  if token = [] then .ok .unbounded
  else do
    let version ← parseVersionToken toLowercase full (String.ofList token)
    return if inclusive then .included version else .excluded version

def parseInterval (full : String) (inner : List Char) (opening closing : Char) :
    Except SpecParseError Interval :=
  let inner := Text.trimChars inner
  if !inner.contains ',' then
    if opening ≠ '[' ∨ closing ≠ ']' then .error (.missingComma full)
    else if inner = [] then .error (.invalidBound full "empty exact-match interval")
    else do
      let version ← parseVersionToken toLowercase full (String.ofList inner)
      return { lower := .included version, upper := .included version }
  else do
    let low := Text.trimChars (inner.takeWhile (· != ','))
    let high := Text.trimChars ((inner.dropWhile (· != ',')).drop 1)
    let lower ← parseBound toLowercase full low (opening == '[')
    let upper ← parseBound toLowercase full high (closing == ']')
    return { lower, upper }

def byteLength (chars : List Char) : ℕ := (chars.map Char.utf8Size).sum

def isIntervalSeparator (char : Char) : Bool := Text.isAsciiWhitespace char || char == ','

def isClosingBracket (char : Char) : Bool := char == ']' || char == ')'

def parseIntervals (full : String) (position : ℕ) (chars : List Char) :
    Except SpecParseError (List Interval) :=
  match _skipped : chars.dropWhile isIntervalSeparator with
  | [] => .ok []
  | opening :: rest =>
    let start := position + byteLength (chars.takeWhile isIntervalSeparator)
    if opening ≠ '[' ∧ opening ≠ '(' then
      .error (.invalidBound full ("expected '[' or '(' at position " ++ toString start))
    else
      let inner := rest.takeWhile fun char => !isClosingBracket char
      match _closed : rest.dropWhile fun char => !isClosingBracket char with
      | [] => .error (.unmatchedBracket full)
      | closing :: rest' => do
        let interval ← parseInterval toLowercase full inner opening closing
        let intervals ← parseIntervals full (start + 2 + byteLength inner) rest'
        return interval :: intervals
termination_by chars.length
decreasing_by
  have outer := (List.dropWhile_sublist isIntervalSeparator (l := chars)).length_le
  have nested := (List.dropWhile_sublist (fun char => !isClosingBracket char) (l := rest)).length_le
  rw [_skipped] at outer
  rw [_closed] at nested
  simp only [List.length_cons] at outer nested
  omega

def parseHard (text : String) : Except SpecParseError (List Interval) := do
  match ← parseIntervals toLowercase text 0 text.toList with
  | [] => .error (.invalidBound text "no intervals found")
  | intervals => return intervals

def VersionSpec.parse (raw : String) : Except SpecParseError VersionSpec :=
  let trimmed := Text.trim raw
  if trimmed = "" then .error .empty
  else if Text.eqIgnoreAsciiCase trimmed "LATEST" then .ok .latest
  else if Text.eqIgnoreAsciiCase trimmed "RELEASE" then .ok .release
  else if trimmed.toList.head? = some '[' ∨ trimmed.toList.head? = some '(' then do
    return .hard (← parseHard toLowercase trimmed)
  else .ok (.soft trimmed)

end Specs

/-!
# Project descriptions as the resolver sees them

The walker reads only a few fields of a POM, and it hands the rest to the effective-POM
pipeline.  A raw POM and its resolved form are therefore type parameters here, and the
functions of `barista-pom` that the walker calls are the fields of `PomPipeline`.
-/

structure RawExclusion where
  groupId : String
  artifactId : String
  deriving DecidableEq

structure RawDependency where
  groupId : String
  artifactId : String
  version : Option String := none
  scope : Option String := none
  classifier : Option String := none
  type : Option String := none
  optional : Option String := none
  exclusions : List RawExclusion := []
  deriving DecidableEq

structure RawParent where
  groupId : String
  artifactId : String
  version : String
  deriving DecidableEq

inductive ResolveError where
  | parentResolution (coords : String)
  | bomImportResolution (coords : String)
  | other (message : String)
  deriving DecidableEq

structure PomPipeline (RawPom ResolvedPom Activation : Type) where
  parent : RawPom → Option RawParent
  dependencies : ResolvedPom → List RawDependency
  resolvePom : RawPom → (RawParent → Except String RawPom) → Activation →
    Except ResolveError ResolvedPom

inductive Scope where
  | compile
  | provided
  | runtime
  | test
  | system
  | imported
  deriving DecidableEq

namespace Scope

def parse (raw : Option String) : Scope :=
  let text := (raw.map Text.trim).getD ""
  if text = "compile" ∨ text = "" then compile
  else if text = "provided" then provided
  else if text = "runtime" then runtime
  else if text = "test" then test
  else if text = "system" then system
  else if text = "import" then imported
  else compile

def inherit (parentPathScope declared : Scope) : Option Scope :=
  match declared with
  | provided | test | system | imported => none
  | _ =>
    match parentPathScope with
    | provided | system | imported => none
    | _ =>
      match parentPathScope, declared with
      | compile, compile => some compile
      | compile, runtime => some runtime
      | runtime, compile => some runtime
      | runtime, runtime => some runtime
      | test, compile => some test
      | test, runtime => some test
      | _, _ => none

end Scope

def parseBool (text : Option String) : Bool := text.map Text.trim == some "true"

/-!
# Metadata sources and sessions

The walker asks a metadata source for POMs, version lists and snapshot publications.  A
deterministic source is a function of the request.  An optional session keeps answers
between requests, together with the versions pinned by a lockfile.
-/

inductive MetadataError where
  | notFound (coords version : String)
  | metadataNotFound (coords : String)
  | transport (coords version detail : String)
  | parse (what coords version detail : String)
  | authRequired (coords version : String)
  | offline (coords version : String)
  deriving DecidableEq

structure GaMetadata where
  coords : Coords
  versions : List String
  latestSnapshotTimestamp : Option String := none
  lastUpdated : Option String := none
  deriving DecidableEq

inductive FetchOrigin where
  | inMemory
  | disk
  | remote
  | fixture
  deriving DecidableEq

structure SnapshotVersionEntry where
  extension : String
  classifier : Option String
  value : String
  deriving DecidableEq

structure SnapshotInfo where
  snapshot : Option String
  snapshotVersions : List SnapshotVersionEntry
  deriving DecidableEq

def SnapshotInfo.pickVersion (info : SnapshotInfo) (extension : String)
    (classifier : Option String) : Option String :=
  match info.snapshotVersions.find? fun entry =>
      entry.extension == extension && entry.classifier == classifier with
  | some entry => some entry.value
  | none => info.snapshot

structure MetadataSource (RawPom : Type) where
  fetchPom : Coords → String → Except MetadataError (RawPom × FetchOrigin)
  fetchMetadata : Coords → Except MetadataError (GaMetadata × FetchOrigin)
  fetchSnapshotInfo : Coords → String → Except MetadataError (SnapshotInfo × FetchOrigin)

inductive SnapshotFailure where
  | noEntry (extension : String) (classifier : Option String)
  | source (error : MetadataError)
  deriving DecidableEq

inductive ParentFailure where
  | coords (error : Coords.ParseError)
  | source (error : MetadataError)
  deriving DecidableEq

inductive EffectiveFailure where
  | unparseableMissing (missing : String)
  | pipeline (error : ResolveError)
  | notConverged (rounds : ℕ)
  deriving DecidableEq

inductive WalkError where
  | metadata (error : MetadataError)
  | invalidSpec (coords spec : String) (detail : SpecParseError)
  | missingVersion (coords : String)
  | noMetaVersionCandidate (coords : String) (spec : VersionSpec)
  | invalidCoords (group artifact : String) (detail : Coords.ParseError)
  | snapshotResolution (coords version : String) (detail : SnapshotFailure)
  | parentChainResolution (coords version : String) (detail : ParentFailure)
  | effectivePomResolution (coords version : String) (detail : EffectiveFailure)

structure OreqStats where
  oreq01Avoided : ℕ := 0
  oreq02Avoided : ℕ := 0
  oreq03Avoided : ℕ := 0
  oreq04Avoided : ℕ := 0
  oreq05Avoided : ℕ := 0
  deriving DecidableEq

structure MetadataKey where
  repo : String
  coords : Coords
  deriving DecidableEq

structure PomKey where
  coords : Coords
  version : String
  deriving DecidableEq

structure OreqSession (RawPom ResolvedPom : Type) where
  stats : OreqStats := {}
  metadataCache : MetadataKey → Option GaMetadata := fun _ => none
  frozenPins : Option (Coords → Option String) := none
  rawPomCache : PomKey → Option RawPom := fun _ => none
  resolvedPomCache : PomKey → Option ResolvedPom := fun _ => none

namespace OreqSession

variable {RawPom ResolvedPom : Type} (session : OreqSession RawPom ResolvedPom)

def frozenPin (coords : Coords) : Option String := session.frozenPins.bind fun pins => pins coords

def lookupMetadata (key : MetadataKey) : Option GaMetadata × OreqSession RawPom ResolvedPom :=
  match session.metadataCache key with
  | some metadata =>
    (some metadata, { session with
      stats := { session.stats with oreq01Avoided := session.stats.oreq01Avoided + 1 } })
  | none => (none, session)

def recordMetadataOrigin (origin : FetchOrigin) : OreqSession RawPom ResolvedPom :=
  match origin with
  | .disk | .inMemory =>
    { session with
      stats := { session.stats with oreq02Avoided := session.stats.oreq02Avoided + 1 } }
  | .remote | .fixture => session

def depositMetadata (key : MetadataKey) (metadata : GaMetadata) (origin : FetchOrigin) :
    OreqSession RawPom ResolvedPom :=
  let session := session.recordMetadataOrigin origin
  { session with metadataCache := Function.update session.metadataCache key (some metadata) }

section Deposit

variable (key : MetadataKey) (metadata : GaMetadata) (origin : FetchOrigin)

@[simp]
theorem metadataCache_depositMetadata :
    (session.depositMetadata key metadata origin).metadataCache =
      Function.update session.metadataCache key (some metadata) := by
  cases origin <;> rfl

@[simp]
theorem frozenPins_depositMetadata :
    (session.depositMetadata key metadata origin).frozenPins = session.frozenPins := by
  cases origin <;> rfl

@[simp]
theorem rawPomCache_depositMetadata :
    (session.depositMetadata key metadata origin).rawPomCache = session.rawPomCache := by
  cases origin <;> rfl

@[simp]
theorem resolvedPomCache_depositMetadata :
    (session.depositMetadata key metadata origin).resolvedPomCache = session.resolvedPomCache := by
  cases origin <;> rfl

end Deposit

def recordFrozenSkip : OreqSession RawPom ResolvedPom :=
  { session with
    stats := { session.stats with oreq03Avoided := session.stats.oreq03Avoided + 1 } }

variable (key : PomKey)

def lookupParentPom : Option RawPom × OreqSession RawPom ResolvedPom :=
  match session.rawPomCache key with
  | some pom =>
    (some pom, { session with
      stats := { session.stats with oreq04Avoided := session.stats.oreq04Avoided + 1 } })
  | none => (none, session)

def depositParentPom (pom : RawPom) : OreqSession RawPom ResolvedPom :=
  { session with rawPomCache := Function.update session.rawPomCache key (some pom) }

def lookupEffectivePom : Option ResolvedPom × OreqSession RawPom ResolvedPom :=
  match session.resolvedPomCache key with
  | some resolved =>
    (some resolved, { session with
      stats := { session.stats with oreq05Avoided := session.stats.oreq05Avoided + 1 } })
  | none => (none, session)

def depositEffectivePom (resolved : ResolvedPom) : OreqSession RawPom ResolvedPom :=
  { session with
    resolvedPomCache := Function.update session.resolvedPomCache key (some resolved) }

end OreqSession

end Barista.Resolver
