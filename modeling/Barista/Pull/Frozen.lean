import Barista.Cache.LocalRepository
import Barista.Cache.Transparency
import Barista.Lockfile.File
import Barista.Lockfile.Signature

/-!
# Pull

A run resolves the project, compares the lockfile, fetches what it names and writes it anew.
-/

namespace Barista.Pull

open Cache

section Ready

section Program

open Pom (RawPom ResolvedPom)
open Resolver
    (MetadataSource MetadataError ResolvedDep ResolvedGraph Scope WalkError WalkOptions walk)
open Lockfile (LockfileEntry SignatureError ReactorModule computeSignature)

inductive ScopeArg where
  | compile
  | runtime
  | test
  | provided
  | system
  deriving DecidableEq

structure Flags where
  ci : Bool
  frozen : Bool
  strict : Bool
  update : Bool
  noFetch : Bool
  scope : ScopeArg
  deriving DecidableEq

def Flags.expand (flags : Flags) : Flags :=
  { flags with frozen := flags.frozen || flags.ci }

inductive PullError where
  | project (detail : String)
  | config (detail : String)
  | io (path : String) (source : IoError)
  | pomParse (detail : String)
  | pomResolve (error : Pom.ResolveError)
  | lockfile (error : Lockfile.FileError)
  | cacheOpen (detail : String)
  | indexOpen (detail : String)
  | fetcher (detail : String)
  | runtime (detail : String)
  | signature (error : SignatureError)
  | resolve (error : WalkError)
  | fetchArtifact (coord : String) (error : ArtifactFetchError)
  | badHash (coord : String)
  | casMaterialize (coord : String) (error : MirrorError)
  | frozenSignatureMismatch (onDisk computed : String)
  /-- The program panics, because it cuts a text inside a character. -/
  | panicked

inductive LockfileStatus where
  | absent
  | unchanged
  | written
  deriving DecidableEq

structure PullReport where
  lockfileStatus : LockfileStatus
  entries : ℕ
  fetched : ℕ
  projectSignature : Option String
  coords : Option String
  noFetch : Bool
  strict : Bool
  deriving DecidableEq

structure Setup where
  cache : Environment
  parsers : Parsers
  toml : Lockfile.Toml
  envVar : String → Option String
  pathExists : String → String → Bool
  displayPom : Pom.ResolveError → String
  displayCoords : Coords.ParseError → String
  displayMetadata : MetadataError → String
  packageVersion : String
  projectRoot : String
  m2Root : String

structure Invocation where
  flags : Flags
  /-- The text of `pom.xml`, if there is a project with a valid configuration. -/
  pomText : Except PullError String
  createMarker : Option IoError
  openCache : Except PullError Unit
  /-- What the cache answers to the questions of this run. -/
  answers : MetadataSource RawPom
  parentQuestions : List (Question × UInt64)
  walkQuestions : List (Question × UInt64)
  /-- How many steps the walk may take. -/
  steps : ℕ
  clock : IndexKey → UInt64
  generatedAt : String
  putFaults : IndexKey → EntryFaults
  mirrorFaults : MirrorFaults
  readLockfile : Option IoError
  writeLockfile : Option IoError

structure Machine where
  store : Store
  repository : LocalRepository
  lockfile : Option Bytes
  rootMarker : Bool

def pomCoordsForSummary (pom : RawPom) : String :=
  let group := (pom.groupId.or (pom.parent.map Pom.RawParent.groupId)).getD "<no-group>"
  let version := (pom.version.or (pom.parent.map Pom.RawParent.version)).getD "<no-version>"
  group ++ ":" ++ pom.artifactId ++ ":" ++ version

/-- The first twelve bytes of a signature, for summaries. -/
def shortSig (signature : String) : Except PullError String :=
  if signature.utf8ByteSize > 12 then
    match Lockfile.ofUtf8 ((Lockfile.utf8 signature).take 12) with
    | some head => .ok (head ++ "…")
    | none => .error .panicked
  else .ok signature

def formatCoord (entry : LockfileEntry) : String :=
  match entry.classifier with
  | some classifier =>
    entry.coords ++ ":" ++ entry.version ++ ":" ++ classifier ++ ":" ++ entry.type
  | none => entry.coords ++ ":" ++ entry.version

def scopeFilter : ScopeArg → List Scope
  | .compile => [.compile]
  | .runtime => [.runtime]
  | .test => [.test]
  | .provided => [.provided]
  | .system => [.system]

def scopeToStr : Scope → String
  | .compile => "compile"
  | .provided => "provided"
  | .runtime => "runtime"
  | .test => "test"
  | .system => "system"
  | .imported => "import"

def afterFirst (lead : List Char) : List Char → Option (List Char)
  | [] => if lead.isEmpty then some [] else none
  | char :: rest =>
    if lead.isPrefixOf (char :: rest) then some ((char :: rest).drop lead.length)
    else afterFirst lead rest

def valueIsTrue (afterName : List Char) : Bool :=
  match afterName.dropWhile Text.isWhitespace with
  | '=' :: rest =>
    let value := rest.dropWhile Text.isWhitespace
    "\"true\"".toList.isPrefixOf value || "'true'".toList.isPrefixOf value
  | _ => false

def attrRootIsTrue (boundary : Bool) : List Char → Bool
  | [] => false
  | char :: rest =>
    (boundary && "root".toList.isPrefixOf (char :: rest) && valueIsTrue (rest.drop 3)) ||
      attrRootIsTrue (Text.isWhitespace char || char == '<') rest

def pomDeclaresRootTrue (pomText : String) : Bool :=
  match afterFirst "<project".toList pomText.toList with
  | none => false
  | some rest => attrRootIsTrue false (rest.takeWhile (· ≠ '>'))

def ensureRootMarker (setup : Setup) (createMarker : Option IoError) (pomText : String) :
    Persistent Machine PullError Unit :=
  fun machine =>
    if pomDeclaresRootTrue pomText then (.ok (), machine)
    else
      match createMarker with
      | some error => (.error (.io (Path.join setup.projectRoot ".mvn") error), machine)
      | none => (.ok (), { machine with rootMarker := true })

def defaultContext : Pom.ActivationContext :=
  ⟨none, none, none, none, none, fun _ => none, [], [], none⟩

section Project

variable (setup : Setup) (answers : MetadataSource RawPom)

def resolveParent (parent : Pom.RawParent) : Except String RawPom :=
  match Coords.new parent.groupId parent.artifactId with
  | .error error => .error ("invalid parent coords: " ++ setup.displayCoords error)
  | .ok coords =>
    match answers.fetchPom coords parent.version with
    | .ok (pom, _) => .ok pom
    | .error error =>
      .error ("failed to fetch parent " ++ parent.groupId ++ ":" ++ parent.artifactId ++ ":" ++
        parent.version ++ ": " ++ setup.displayMetadata error)

def effectivePom (rawPom : RawPom) : Except Pom.ResolveError ResolvedPom :=
  (Pom.resolvePom setup.envVar setup.pathExists rawPom defaultContext).eval
    (resolveParent setup answers)

def projectSignature (resolved : ResolvedPom) : Except SignatureError String :=
  computeSignature (fun bytes => (setup.cache.digests.sha256 bytes).bytes.toList)
    [{ groupId := (resolved.pom.groupId.or (resolved.pom.parent.map Pom.RawParent.groupId)).getD ""
       artifactId := resolved.pom.artifactId
       pom := resolved.pom }]

def settingsFingerprint : String := (setup.cache.digests.sha256 []).toHex

def walkOptions (scope : ScopeArg) : WalkOptions RawPom ResolvedPom Pom.ActivationContext :=
  ⟨true, scopeFilter scope, defaultContext, true, none, "default"⟩

def walkDependencies (invocation : Invocation) (resolved : ResolvedPom) :
    Option (Except WalkError ResolvedGraph) :=
  walk setup.cache.toLowercase (Resolver.pomPipeline setup.envVar setup.pathExists setup.displayPom)
    invocation.answers (walkOptions invocation.flags.scope) invocation.steps resolved

end Project

def targetOf (dep : ResolvedDep) : IndexKey := ⟨dep.coords, dep.version, dep.type, dep.classifier⟩

def buildLockfileEntry (dep : ResolvedDep) (fetched : FetchedArtifact) : LockfileEntry where
  coords := dep.coords.display
  version := dep.version
  scope := scopeToStr dep.scope
  optional := dep.optional
  sha256 := fetched.sha256.toHex
  sha1 := fetched.sha1
  sizeBytes := fetched.sizeBytes
  sourceUrl := fetched.sourceUrl
  etag := fetched.etag
  lastModified := fetched.lastModified
  classifier := dep.classifier
  type := dep.type
  fromPath := dep.winningPath.map Coords.display
  depth := .ofNat dep.depth
  snapshotResolution := none
  exclusions := []

structure Consulted where
  resolved : ResolvedPom
  signature : String
  onDisk : Option Lockfile

section Steps

variable (setup : Setup) (call : Invocation)

def askQuestions (questions : List (Question × UInt64)) : Persistent Machine PullError Unit :=
  .update fun machine => { machine with store := questions.foldl (ask setup.cache) machine.store }

def onDisk (machine : Machine) : Except Lockfile.FileError (Option Lockfile) :=
  match machine.lockfile with
  | none => .ok none
  | some bytes => (Lockfile.read setup.toml call.readLockfile bytes).map some

def readOnDisk : Persistent Machine PullError (Option Lockfile) :=
  fun machine => ((onDisk setup call machine).mapError PullError.lockfile, machine)

def carries (signature : String) (lockfile : Lockfile) : Bool :=
  lockfile.metaTable.projectSignature == signature

def checkFrozen (signature : String) : Option Lockfile → Persistent Machine PullError Unit
  | some lockfile =>
    if call.flags.frozen && !carries signature lockfile then
      .fail (.frozenSignatureMismatch lockfile.metaTable.projectSignature signature)
    else pure ()
  | none => pure ()

variable (rawPom : RawPom)

def consult : Persistent Machine PullError Consulted := do
  .ofExcept call.openCache
  askQuestions setup call.parentQuestions
  let resolved ← .ofExcept ((effectivePom setup call.answers rawPom).mapError PullError.pomResolve)
  let signature ← .ofExcept ((projectSignature setup resolved).mapError PullError.signature)
  let onDisk ← readOnDisk setup call
  checkFrozen call signature onDisk
  return ⟨resolved, signature, onDisk⟩

def coordDisplay (dep : ResolvedDep) : String := dep.coords.display ++ ":" ++ dep.version

def fetchEntry (dep : ResolvedDep) : Persistent Machine PullError (LockfileEntry × FetchSource) :=
  fun machine =>
    let target := targetOf dep
    let (outcome, store) :=
      fetchArtifactToCache setup.cache (call.putFaults target) (call.clock target) target
        machine.store
    ((outcome.map fun fetched => (buildLockfileEntry dep fetched, fetched.source)).mapError
      (PullError.fetchArtifact (coordDisplay dep)), { machine with store })

def materializeEntry (pair : ResolvedDep × LockfileEntry) : Persistent Machine PullError Unit :=
  fun machine =>
    match ContentHash.fromHex pair.2.sha256 with
    | none => (.error (.badHash (formatCoord pair.2)), machine)
    | some hash =>
      let (outcome, repository) := materialize call.mirrorFaults machine.store.objects hash
        setup.m2Root (targetOf pair.1) machine.repository
      ((outcome.map fun _ => ()).mapError (PullError.casMaterialize (formatCoord pair.2)),
        { machine with repository })

def newLockfile (signature : String) (entries : List LockfileEntry) : Lockfile :=
  { Lockfile.new ("barista " ++ setup.packageVersion) call.generatedAt signature
      (settingsFingerprint setup) with entries }

def writeOnDisk (lockfile : Lockfile) : Persistent Machine PullError Unit :=
  fun machine =>
    match Lockfile.write setup.toml call.writeLockfile lockfile with
    | .ok bytes => (.ok (), { machine with lockfile := some bytes })
    | .error error => (.error (.lockfile error), machine)

def lockfilesEqualIgnoringTimestamp (left right : Lockfile) : Bool :=
  left.metaTable.schemaVersion == right.metaTable.schemaVersion &&
    left.metaTable.projectSignature == right.metaTable.projectSignature &&
    left.metaTable.settingsFingerprint == right.metaTable.settingsFingerprint &&
    left.reactor == right.reactor && left.entries == right.entries &&
    left.settingsSnapshot == right.settingsSnapshot

variable (consulted : Consulted)

def refresh (graph : Except WalkError ResolvedGraph) : Persistent Machine PullError PullReport := do
  askQuestions setup call.walkQuestions
  let graph ← .ofExcept (graph.mapError PullError.resolve)
  let fetched ← graph.resolved.mapM' (fetchEntry setup call)
  let entries := fetched.map Prod.fst
  let _ ← (graph.resolved.zip entries).mapM' (materializeEntry setup call)
  let lockfile := newLockfile setup call consulted.signature entries
  writeOnDisk setup call lockfile
  return {
    lockfileStatus :=
      if consulted.onDisk.any (lockfilesEqualIgnoringTimestamp · lockfile) then .unchanged
      else .written
    entries := lockfile.entries.length
    fetched := (fetched.filter fun pair => pair.2 = .remote).length
    projectSignature := (shortSig consulted.signature).toOption
    coords := some (pomCoordsForSummary rawPom)
    noFetch := false
    strict := call.flags.strict }

def authoritative : Bool :=
  !call.flags.update && consulted.onDisk.any (carries consulted.signature)

def unchangedReport : PullReport where
  lockfileStatus := .unchanged
  entries := (consulted.onDisk.map fun lockfile => lockfile.entries.length).getD 0
  fetched := 0
  projectSignature := (shortSig consulted.signature).toOption
  coords := some (pomCoordsForSummary rawPom)
  noFetch := false
  strict := call.flags.strict

def runFullFetch (machine : Machine) : Option (Except PullError PullReport × Machine) :=
  match consult setup call rawPom machine with
  | (.error error, machine) => some (.error error, machine)
  | (.ok consulted, machine) =>
    if authoritative call consulted then
      some (.ok (unchangedReport call rawPom consulted), machine)
    else
      (walkDependencies setup call consulted.resolved).map fun graph =>
        refresh setup call rawPom consulted graph machine

def runNoFetch : Persistent Machine PullError PullReport := do
  let onDisk ← readOnDisk setup call
  let projectSignature ← .ofExcept (onDisk.mapM fun lockfile =>
    shortSig lockfile.metaTable.projectSignature)
  return {
    lockfileStatus := if onDisk.isSome then .unchanged else .absent
    entries := (onDisk.map fun lockfile => lockfile.entries.length).getD 0
    fetched := 0
    projectSignature
    coords := some (pomCoordsForSummary rawPom)
    noFetch := call.flags.noFetch
    strict := call.flags.strict }

def readPom : Except PullError (String × RawPom) := do
  let pomText ← call.pomText
  let rawPom ← (setup.parsers.pom pomText).mapError PullError.pomParse
  return (pomText, rawPom)

def runInner (machine : Machine) : Option (Except PullError PullReport × Machine) :=
  match readPom setup call with
  | .error error => some (.error error, machine)
  | .ok (pomText, rawPom) =>
    if call.flags.noFetch then some (runNoFetch setup call rawPom machine)
    else
      match ensureRootMarker setup call.createMarker pomText machine with
      | (.error error, machine) => some (.error error, machine)
      | (.ok _, machine) => runFullFetch setup call rawPom machine

def Invocation.expanded : Invocation := { call with flags := call.flags.expand }

def pull (machine : Machine) : Option (Except PullError PullReport × Machine) :=
  runInner setup call.expanded machine

variable (walked : Except WalkError ResolvedGraph)

def pipeline : Persistent Machine PullError PullReport := do
  let consulted ← consult setup call rawPom
  if authoritative call consulted then return unchangedReport call rawPom consulted
  else refresh setup call rawPom consulted walked

def procedure : Persistent Machine PullError PullReport := do
  let read ← .ofExcept (readPom setup call)
  if call.flags.noFetch then runNoFetch setup call read.2
  else
    ensureRootMarker setup call.createMarker read.1
    pipeline setup call read.2 walked

end Steps

section Successful

variable {setup : Setup} {call : Invocation} {machine last : Machine}

def Machine.asked (machine : Machine) (env : Environment) (questions : List (Question × UInt64)) :
    Machine :=
  { machine with store := questions.foldl (ask env) machine.store }

variable (setup call machine) in
structure Consults (rawPom : RawPom) (consulted : Consulted) : Prop where
  opened : call.openCache = .ok ()
  resolved : effectivePom setup call.answers rawPom = .ok consulted.resolved
  signature : projectSignature setup consulted.resolved = .ok consulted.signature
  onDisk : onDisk setup call machine = .ok consulted.onDisk
  frozen : call.flags.frozen = true →
    ∀ lockfile ∈ consulted.onDisk, carries consulted.signature lockfile = true

theorem mapError_eq_ok {ε δ α : Type} {out : Except ε α} {wrap : ε → δ} {val : α} :
    out.mapError wrap = .ok val ↔ out = .ok val := by
  cases out <;> simp [Except.mapError]

variable {found : Option Lockfile} {val : Unit} {rawPom : RawPom} {report : PullReport}

theorem isSome_of_onDisk (read : onDisk setup call machine = .ok found) :
    found.isSome = machine.lockfile.isSome := by
  unfold onDisk at read
  rcases there : machine.lockfile with _ | bytes <;> rw [there] at read
  · cases read
    rfl
  · rcases parsed : Lockfile.read setup.toml call.readLockfile bytes with _ | _
    · simp [parsed, Except.map] at read
    · simp only [parsed, Except.map, Except.ok.injEq] at read
      rw [← read]
      rfl

theorem readOnDisk_eq_ok : readOnDisk setup call machine = (.ok found, last) ↔
      onDisk setup call machine = .ok found ∧ machine = last := by
  rw [readOnDisk, Prod.mk.injEq, mapError_eq_ok]

theorem checkFrozen_eq_ok {sig : String} : checkFrozen call sig found machine = (.ok val, last) ↔
      (call.flags.frozen = true → ∀ lock ∈ found, carries sig lock = true) ∧ machine = last := by
  rcases found with _ | lock
  · simp [checkFrozen, Persistent.pure_eq_ok]
  · simp only [checkFrozen, Option.mem_some_iff, forall_eq']
    cases call.flags.frozen <;> cases carries sig lock <;>
      simp [Persistent.pure_eq_ok, Persistent.fail]

theorem consult_eq_ok {asked : Consulted} : consult setup call rawPom machine = (.ok asked, last) ↔
      Consults setup call machine rawPom asked ∧
        machine.asked setup.cache call.parentQuestions = last := by
  simp only [consult, Persistent.bind_eq_ok, Persistent.ofExcept_eq_ok, mapError_eq_ok,
    askQuestions, Persistent.update_eq_ok, readOnDisk_eq_ok, checkFrozen_eq_ok,
    Persistent.pure_eq_ok]
  constructor
  · rintro ⟨_, _, ⟨opened, rfl⟩, _, _, rfl, res, _, ⟨resolvedOk, rfl⟩, sig, _,
      ⟨signed, rfl⟩, found, _, ⟨read, rfl⟩, _, _, ⟨frozen, rfl⟩, rfl, rfl⟩
    exact ⟨⟨opened, resolvedOk, signed, read, frozen⟩, rfl⟩
  · rintro ⟨consults, rfl⟩
    exact ⟨(), _, ⟨consults.opened, rfl⟩, (), _, rfl, _, _, ⟨consults.resolved, rfl⟩, _, _,
      ⟨consults.signature, rfl⟩, _, _, ⟨consults.onDisk, rfl⟩, (), _, ⟨consults.frozen, rfl⟩, rfl,
      rfl⟩

theorem utf8_ofList_append (chars rest : List Char) : Lockfile.utf8 (.ofList (chars ++ rest)) =
    Lockfile.utf8 (.ofList chars) ++ Lockfile.utf8 (.ofList rest) := by
  simp [Lockfile.utf8, String.toByteArray_ofList]

theorem take_utf8_ofList {chars : List Char} (ascii : ∀ char ∈ chars, char.utf8Size = 1)
    {count : ℕ} (fits : count ≤ chars.length) :
    (Lockfile.utf8 (.ofList chars)).take count = Lockfile.utf8 (.ofList (chars.take count)) := by
  have size : (Lockfile.utf8 (.ofList (chars.take count))).length = count :=
    calc (Lockfile.utf8 (.ofList (chars.take count))).length = (chars.take count).length :=
          ContentHash.utf8ByteSize_ofList fun char mem => ascii char (List.mem_of_mem_take mem)
      _ = count := List.length_take_of_le fits
  calc (Lockfile.utf8 (.ofList chars)).take count
      = (Lockfile.utf8 (.ofList (chars.take count ++ chars.drop count))).take count := by
        rw [List.take_append_drop]
    _ = Lockfile.utf8 (.ofList (chars.take count)) := by
        rw [utf8_ofList_append, List.take_left' size]

/-- The signature of a run is in hexadecimal, so that it is never cut inside a character. -/
theorem exists_shortSig {resolved : ResolvedPom} {sig : String}
    (computed : projectSignature setup resolved = .ok sig) : ∃ text, shortSig sig = .ok text := by
  simp only [projectSignature, computeSignature, bind, Except.bind] at computed
  split at computed
  · cases computed
  · rename_i input hashed
    cases computed
    change ∃ text, shortSig (.ofList (Hex.encode _)) = .ok text
    unfold shortSig
    split
    · rename_i long
      have ascii : ∀ char ∈ Hex.encode (setup.cache.digests.sha256 input).bytes.toList,
          char.utf8Size = 1 := fun char => ContentHash.utf8Size_of_mem
      rw [ContentHash.utf8ByteSize_ofList ascii] at long
      rw [take_utf8_ofList ascii long.le, Lockfile.ofUtf8_utf8]
      exact ⟨_, rfl⟩
    · exact ⟨_, rfl⟩

theorem runFullFetch_eq_ok : runFullFetch setup call rawPom machine = some (.ok report, last) ↔
      ∃ asked, Consults setup call machine rawPom asked ∧
        if authoritative call asked then
          unchangedReport call rawPom asked = report ∧
            machine.asked setup.cache call.parentQuestions = last
        else
          ∃ graph, walkDependencies setup call asked.resolved = some graph ∧
            refresh setup call rawPom asked graph
              (machine.asked setup.cache call.parentQuestions) = (.ok report, last) := by
  rcases ran : consult setup call rawPom machine with ⟨failure | asked, mid⟩
  · simp only [runFullFetch, ran, Option.some.injEq, Prod.mk.injEq, reduceCtorEq, false_and,
      false_iff]
    rintro ⟨asked, consults, -⟩
    have succeeded := consult_eq_ok.mpr ⟨consults, rfl⟩
    rw [ran] at succeeded
    cases succeeded
  · rcases consult_eq_ok.mp ran with ⟨consults, rfl⟩
    have unique : ∀ other, Consults setup call machine rawPom other → other = asked := by
      intro other otherConsults
      have succeeded := consult_eq_ok.mpr ⟨otherConsults, rfl⟩
      rw [ran] at succeeded
      cases succeeded
      rfl
    simp only [runFullFetch, ran]
    constructor
    · intro ended
      refine ⟨asked, consults, ?_⟩
      split
      · rename_i settled
        simpa [settled] using ended
      · rename_i stale
        simpa [stale] using ended
    · rintro ⟨other, otherConsults, ended⟩
      cases unique other otherConsults
      split
      · rename_i settled
        simpa [settled] using ended
      · rename_i stale
        simpa [stale] using ended

theorem snd_ensureRootMarker (fault : Option IoError) (pomText : String) (machine : Machine) :
    (ensureRootMarker setup fault pomText machine).2 =
      { machine with
        rootMarker := (ensureRootMarker setup fault pomText machine).2.rootMarker } := by
  unfold ensureRootMarker
  split
  · rfl
  · split <;> rfl

theorem ensureRootMarker_eq_ok {fault : Option IoError} {pomText : String}
    (ensured : ensureRootMarker setup fault pomText machine = (.ok val, last)) :
    last = { machine with rootMarker := last.rootMarker } := by
  have touched : (ensureRootMarker setup fault pomText machine).2 = _ :=
    snd_ensureRootMarker fault pomText machine
  rwa [ensured] at touched

theorem runInner_eq_ok (fetches : call.flags.noFetch = false) :
    runInner setup call machine = some (.ok report, last) ↔
      ∃ pomText rawPom begun, readPom setup call = .ok (pomText, rawPom) ∧
        ensureRootMarker setup call.createMarker pomText machine = (.ok (), begun) ∧
          runFullFetch setup call rawPom begun = some (.ok report, last) := by
  rcases readable : readPom setup call with _ | read
  · simp [runInner, readable]
  · rcases read with ⟨pomText, rawPom⟩
    rcases marked : ensureRootMarker setup call.createMarker pomText machine with
      ⟨failure | val, begun⟩
    · simp [runInner, readable, fetches, marked]
    · simp [runInner, readable, fetches, marked]

end Successful

def Setup.small (files : List (String × Bytes)) (pom : String → Except String RawPom)
    (toml : Lockfile.Toml) : Setup where
  cache := .small files
  parsers := ⟨pom, fun text => [text], fun _ => .error "no snapshots"⟩
  toml := toml
  envVar := fun _ => none
  pathExists := fun _ _ => false
  displayPom := fun _ => "not resolved"
  displayCoords := fun _ => "not valid"
  displayMetadata := fun _ => "not found"
  packageVersion := "0.1.0"
  projectRoot := "/app"
  m2Root := "/m2"

def Machine.blank : Machine := ⟨.empty, fun _ => none, none, false⟩

def Invocation.small (setup : Setup) (flags : Flags) (pomText : String) (machine : Machine)
    (walkQuestions : List (Question × UInt64)) : Invocation where
  flags := flags
  pomText := .ok pomText
  createMarker := none
  openCache := .ok ()
  answers := Cache.answers setup.cache setup.parsers machine.store
  parentQuestions := []
  walkQuestions := walkQuestions
  steps := 8
  clock := fun _ => 1
  generatedAt := "2026-01-01T00:00:00Z"
  putFaults := fun _ => ⟨none, none⟩
  mirrorFaults := .none
  readLockfile := none
  writeLockfile := none

def leafPom (artifact : String) : RawPom :=
  { groupId := some "org.example", artifactId := artifact, version := some "1.0" }

def appPom (artifact version : String) (type scope : Option String) : RawPom :=
  { leafPom "app" with
    dependencies := [{ groupId := "org.example", artifactId := artifact, version := some version,
                       type := type, scope := scope }] }

end Program

open List
open Resolver (ResolvedDep ResolvedGraph WalkError)
open Lockfile (LockfileEntry)

variable {setup : Setup} {call : Invocation} {machine last : Machine}

section Refresh

variable (setup call machine) in
structure Refreshes (consulted : Consulted) (graph : ResolvedGraph)
    (fetched : List (LockfileEntry × FetchSource)) (stored linked : Machine) (bytes : Bytes) :
    Prop where
  fetches : (graph.resolved.mapM' (fetchEntry setup call))
    (machine.asked setup.cache call.walkQuestions) = (.ok fetched, stored)
  links : ∃ done, ((graph.resolved.zip (fetched.map Prod.fst)).mapM'
    (materializeEntry setup call)) stored = (.ok done, linked)
  writes : Lockfile.write setup.toml call.writeLockfile
    (newLockfile setup call consulted.signature (fetched.map Prod.fst)) = .ok bytes

theorem writeOnDisk_eq_ok {lock : Lockfile} {val : Unit} :
    writeOnDisk setup call lock machine = (.ok val, last) ↔
      ∃ bytes, Lockfile.write setup.toml call.writeLockfile lock = .ok bytes ∧
        { machine with lockfile := some bytes } = last := by
  simp only [writeOnDisk]
  cases Lockfile.write setup.toml call.writeLockfile lock <;> simp

variable {asked : Consulted} {tgt : IndexKey} {fetched : List (LockfileEntry × FetchSource)}
  {pair : ResolvedDep × LockfileEntry}

theorem exists_refreshes {rawPom : Pom.RawPom} {walked : Except WalkError ResolvedGraph}
    {report : PullReport}
    (refreshed : refresh setup call rawPom asked walked machine = (.ok report, last)) :
    ∃ graph fetched stored linked bytes, walked = .ok graph ∧
      Refreshes setup call machine asked graph fetched stored linked bytes ∧
        last = { linked with lockfile := some bytes } := by
  simp only [refresh, Persistent.bind_eq_ok, askQuestions, Persistent.update_eq_ok,
    Persistent.ofExcept_eq_ok, mapError_eq_ok, writeOnDisk_eq_ok,
    Persistent.pure_eq_ok] at refreshed
  rcases refreshed with ⟨_, _, rfl, graph, _, ⟨rfl, rfl⟩, fetched, stored, fetches, done, linked,
    links, _, _, ⟨bytes, writes, rfl⟩, _, rfl⟩
  exact ⟨graph, fetched, stored, linked, bytes, rfl, ⟨fetches, ⟨done, links⟩, writes⟩, rfl⟩

theorem isSome_objects_putBlob {store : Store} {hash : ContentHash}
    (held : (store.objects hash).isSome) (other : ContentHash) (bytes : Bytes) :
    ((store.putBlob other bytes).objects hash).isSome := by
  simp only [Store.putBlob, Function.update_apply]
  split
  · rfl
  · exact held

theorem isSome_objects_fetchArtifactToCache {env : Environment} {faults : EntryFaults}
    {now : UInt64}
    {store : Store} {hash : ContentHash} (held : (store.objects hash).isSome) :
    ((fetchArtifactToCache env faults now tgt store).2.objects hash).isSome := by
  unfold fetchArtifactToCache
  split
  · exact held
  · split
    · exact held
    · exact held
    · exact held
    · dsimp only
      split
      · exact held
      · split
        · split_ifs <;> exact isSome_objects_putBlob held _ _
        · exact isSome_objects_putBlob held _ _

theorem isSome_objects_of_fetched {env : Environment} {faults : EntryFaults} {now : UInt64}
    {store last : Store} {fetched : FetchedArtifact}
    (ret : fetchArtifactToCache env faults now tgt store = (.ok fetched, last)) :
    (last.objects fetched.sha256).isSome := by
  unfold fetchArtifactToCache at ret
  rcases row : cachedRow tgt store with _ | _ <;> rw [row] at ret
  · dsimp only at ret
    split at ret
    · cases ret
    · cases ret
    · cases ret
    · split at ret
      · cases ret
      · split at ret <;> cases ret
        simp [FetchedArtifact.ofRow, Store.putRow, Store.putBlob]
  · cases ret
    exact (Option.filter_eq_some_iff.mp row).2

def Stored (dep : ResolvedDep) (pair : LockfileEntry × FetchSource) (machine : Machine) : Prop :=
  ∃ fetched, pair.1 = buildLockfileEntry dep fetched ∧ (machine.store.objects fetched.sha256).isSome

theorem stored_fetchEntry {dep : ResolvedDep} {pair : LockfileEntry × FetchSource}
    (ret : fetchEntry setup call dep machine = (.ok pair, last)) :
    Stored dep pair last := by
  rcases ran : fetchArtifactToCache setup.cache (call.putFaults (targetOf dep))
    (call.clock (targetOf dep)) (targetOf dep) machine.store with ⟨failure | fetched, store⟩
  · simp [fetchEntry, ran, Except.map, Except.mapError] at ret
  · simp only [fetchEntry, ran, Except.map, Except.mapError, Prod.mk.injEq, Except.ok.injEq] at ret
    rcases ret with ⟨rfl, rfl⟩
    exact ⟨fetched, rfl, isSome_objects_of_fetched ran⟩

theorem Stored.fetchEntry {dep other : ResolvedDep} {pair : LockfileEntry × FetchSource}
    (stored : Stored dep pair machine) :
    Stored dep pair (fetchEntry setup call other machine).2 := by
  rcases stored with ⟨fetched, described, held⟩
  exact ⟨fetched, described, isSome_objects_fetchArtifactToCache held⟩

theorem stored_of_fetches {deps : List ResolvedDep}
    (fetches : (deps.mapM' (fetchEntry setup call)) machine = (.ok fetched, last)) :
    Forall₂ (fun dep pair => Stored dep pair last) deps fetched := by
  apply Persistent.forall₂_of_mapM' _ _ (pairwise_of_forall (fun _ _ => True.intro)) fetches
  · intro dep pair pre post
    exact stored_fetchEntry
  · intro dep pair other machine _
    exact Stored.fetchEntry

theorem Refreshes.stored {graph : ResolvedGraph} {stored linked : Machine} {bytes : Bytes}
    (refreshes : Refreshes setup call machine asked graph fetched stored linked bytes) :
    Forall₂ (fun dep pair => Stored dep pair stored) graph.resolved fetched :=
  stored_of_fetches refreshes.fetches

def placeOf (setup : Setup) (target : IndexKey) : List String :=
  Path.resolve (m2Path setup.m2Root target)

def Linked (setup : Setup) (target : IndexKey) (entry : LockfileEntry) (machine : Machine) : Prop :=
  ∃ hash bytes, ContentHash.fromHex entry.sha256 = some hash ∧
    machine.store.objects hash = some bytes ∧
      machine.repository.contents machine.store.objects (placeOf setup target) = some bytes

theorem linked_materializeEntry {val : Unit}
    (ret : materializeEntry setup call pair machine = (.ok val, last)) :
    Linked setup (targetOf pair.1) pair.2 last := by
  rcases named : ContentHash.fromHex pair.2.sha256 with _ | hash
  · simp [materializeEntry, named] at ret
  · rcases ran : materialize call.mirrorFaults machine.store.objects hash setup.m2Root
      (targetOf pair.1) machine.repository with ⟨failure | path, repo⟩
    · simp [materializeEntry, named, ran, Except.map, Except.mapError] at ret
    · simp only [materializeEntry, named, ran, Prod.mk.injEq] at ret
      rcases ret with ⟨-, rfl⟩
      rcases contents_materialize ran with ⟨bytes, held, there⟩
      exact ⟨hash, bytes, named, held, there⟩

@[simp]
theorem store_materializeEntry (pair : ResolvedDep × LockfileEntry) (machine : Machine) :
    (materializeEntry setup call pair machine).2.store = machine.store := by
  unfold materializeEntry
  split <;> rfl

theorem repository_materializeEntry {place : List String}
    (other : place ≠ placeOf setup (targetOf pair.1)) :
    (materializeEntry setup call pair machine).2.repository place = machine.repository place := by
  unfold materializeEntry
  split
  · rfl
  · exact materialize_of_ne other

theorem Linked.materializeEntry {entry : LockfileEntry} (linked : Linked setup tgt entry machine)
    (other : placeOf setup tgt ≠ placeOf setup (targetOf pair.1)) :
    Linked setup tgt entry (materializeEntry setup call pair machine).2 := by
  rcases linked with ⟨hash, bytes, named, held, there⟩
  refine ⟨hash, bytes, named, ?_, ?_⟩
  · rw [store_materializeEntry]
    exact held
  · rw [store_materializeEntry, LocalRepository.contents, repository_materializeEntry other]
    exact there

theorem Refreshes.linked {graph : ResolvedGraph} {stored linked : Machine} {bytes : Bytes}
    (refreshes : Refreshes setup call machine asked graph fetched stored linked bytes)
    (distinct : (graph.resolved.map fun dep => placeOf setup (targetOf dep)).Nodup) :
    Forall₂ (fun dep entry => Linked setup (targetOf dep) entry linked) graph.resolved
      (fetched.map Prod.fst) := by
  have sameLength : graph.resolved.length = (fetched.map Prod.fst).length := by
    rw [length_map]
    exact refreshes.stored.length_eq
  rcases refreshes.links with ⟨done, links⟩
  have apart : (graph.resolved.zip (fetched.map Prod.fst)).Pairwise fun pair other =>
      placeOf setup (targetOf pair.1) ≠ placeOf setup (targetOf other.1) := by
    rw [Nodup, ← map_fst_zip (le_of_eq sameLength), map_map, pairwise_map] at distinct
    exact distinct
  rw [forall₂_iff_zip]
  refine ⟨sameLength, ?_⟩
  have all : ∀ pair ∈ graph.resolved.zip (fetched.map Prod.fst),
      Linked setup (targetOf pair.1) pair.2 linked := by
    refine Persistent.forall_of_mapM' ?_ ?_ apart links
    · intro pair val pre post
      exact linked_materializeEntry
    · intro pair other machine apart linked
      exact linked.materializeEntry apart
  intro dep entry mem
  exact all (dep, entry) mem

end Refresh

section Ready

variable (setup call)

def currentSignature : Option String := do
  let (_, rawPom) ← (readPom setup call).toOption
  let resolved ← (effectivePom setup call.answers rawPom).toOption
  (projectSignature setup resolved).toOption

def lockedSignature (machine : Machine) : Option String := do
  let lockfile ← (onDisk setup call machine).toOption
  lockfile.map fun lockfile => lockfile.metaTable.projectSignature

/-- The lockfile carries the signature of the project, and no update is asked for. -/
def LockfileSettles (machine : Machine) : Prop :=
  call.flags.update = false ∧ ∃ signature, currentSignature setup call = some signature ∧
    lockedSignature setup call machine = some signature

structure Describes (target : IndexKey) (entry : LockfileEntry) : Prop where
  coords : entry.coords = target.coords.display
  version : entry.version = target.version
  type : entry.type = target.type
  classifier : entry.classifier = target.classifier

/-- The blob of the entry is in the store and at the Maven path of the artifact. -/
def ReadyFor (target : IndexKey) (entry : LockfileEntry) (machine : Machine) : Prop :=
  ∃ hash bytes, entry.sha256 = hash.toHex ∧ machine.store.objects hash = some bytes ∧
    machine.repository.contents machine.store.objects (placeOf setup target) = some bytes

variable {setup call} {rawPom : Pom.RawPom} {asked : Consulted}

theorem Consults.currentSignature_eq {pomText : String}
    (consults : Consults setup call machine rawPom asked)
    (readable : readPom setup call = .ok (pomText, rawPom)) :
    currentSignature setup call = some asked.signature := by
  simp [currentSignature, readable, consults.resolved, consults.signature, Except.toOption]

theorem Consults.lockedSignature_eq (consults : Consults setup call machine rawPom asked) :
    lockedSignature setup call machine =
      asked.onDisk.map fun lock => lock.metaTable.projectSignature := by
  simp [lockedSignature, consults.onDisk, Except.toOption]

theorem authoritative_iff {pomText : String} (readable : readPom setup call = .ok (pomText, rawPom))
    (consults : Consults setup call machine rawPom asked) :
    authoritative call asked = true ↔ LockfileSettles setup call machine := by
  simp only [authoritative, LockfileSettles, consults.currentSignature_eq readable,
    consults.lockedSignature_eq, Bool.and_eq_true, Bool.not_eq_true', Option.some.injEq,
    exists_eq_left']
  rcases asked.onDisk with _ | _
  · simp
  · simp [carries]

section Refreshed

variable {graph : ResolvedGraph} {fetched : List (LockfileEntry × FetchSource)}
  {stored linked : Machine}
  {bytes : Bytes} (refreshes : Refreshes setup call machine asked graph fetched stored linked bytes)

include refreshes

theorem Refreshes.describes :
    Forall₂ Describes (graph.resolved.map targetOf) (fetched.map Prod.fst) := by
  rw [forall₂_map_left_iff, forall₂_map_right_iff]
  apply refreshes.stored.imp
  rintro dep pair ⟨fetched, described, -⟩
  rw [described]
  exact ⟨rfl, rfl, rfl, rfl⟩

theorem Refreshes.ready (distinct : ((graph.resolved.map targetOf).map (placeOf setup)).Nodup) :
    Forall₂ (fun tgt entry => ReadyFor setup tgt entry linked)
      (graph.resolved.map targetOf) (fetched.map Prod.fst) := by
  rw [map_map] at distinct
  have linked := refreshes.linked distinct
  rw [forall₂_map_right_iff] at linked
  rw [forall₂_map_left_iff, forall₂_map_right_iff]
  apply List.Forall₂.mp _ refreshes.stored linked
  rintro dep pair ⟨fetched, described, -⟩ ⟨hash, bytes, named, held, there⟩
  have sha : pair.1.sha256 = fetched.sha256.toHex := by rw [described, buildLockfileEntry]
  rw [sha, ContentHash.fromHex_toHex, Option.some.injEq] at named
  subst named
  exact ⟨fetched.sha256, bytes, sha, held, there⟩

end Refreshed

theorem exists_refreshes_of_pull (fetches : call.flags.noFetch = false)
    {report : PullReport} (ret : pull setup call machine = some (.ok report, last))
    (stale : ¬LockfileSettles setup call machine) :
    ∃ begun asked graph fetched stored linked bytes,
      Refreshes setup call.expanded begun asked graph fetched stored linked bytes ∧
        last = { linked with lockfile := some bytes } := by
  have expandedFetches : call.expanded.flags.noFetch = false := fetches
  rcases (runInner_eq_ok expandedFetches).mp ret with
    ⟨pomText, rawPom, begun, readable, marked, ended⟩
  rcases runFullFetch_eq_ok.mp ended with ⟨asked, consults, ended⟩
  have refreshing : authoritative call.expanded asked ≠ true := by
    rw [Ne, authoritative_iff readable consults, ensureRootMarker_eq_ok marked]
    exact stale
  rw [if_neg refreshing] at ended
  rcases ended with ⟨walked, -, refreshed⟩
  rcases exists_refreshes refreshed with ⟨graph, fetched, stored, linked, bytes, -, refreshes, rfl⟩
  exact ⟨_, asked, graph, fetched, stored, linked, bytes, refreshes, rfl⟩

end Ready

/-- After a full run that does not take the lockfile as it is, the blob of every entry of the
lockfile is in the store, and the file at its Maven path holds it, if no two entries share a Maven
path. -/
theorem pull_makes_ready (setup : Setup) (faithful : setup.toml.Faithful) (call : Invocation)
    (fetches : call.flags.noFetch = false) (machine last : Machine) (report : PullReport)
    (returned : pull setup call machine = some (.ok report, last))
    (stale : ¬LockfileSettles setup call machine) :
    ∃ lockfile targets, last.lockfile.map (Lockfile.read setup.toml none) = some (.ok lockfile) ∧
      Forall₂ Describes targets lockfile.entries ∧ ((targets.map (placeOf setup)).Nodup →
          Forall₂ (fun tgt entry => ReadyFor setup tgt entry last) targets
            lockfile.entries) := by
  rcases exists_refreshes_of_pull fetches returned stale with
    ⟨begun, asked, graph, fetched, stored, linked, bytes, refreshes, rfl⟩
  refine ⟨newLockfile setup call.expanded asked.signature (fetched.map Prod.fst),
    graph.resolved.map targetOf, ?_, refreshes.describes, refreshes.ready⟩
  exact congrArg some (Lockfile.read_write faithful rfl refreshes.writes)

def readyFiles : List (String × Bytes) :=
  [("https://repo/org/example/core/1.0/core-1.0.pom", asciiBytes "core"),
    ("https://repo/org/example/core/1.0/core-1.0.jar", [1, 2, 3]),
    ("https://repo/org/example/util/1.0/util-1.0.pom", asciiBytes "util"),
    ("https://repo/org/example/util/1.0/util-1.0.jar", [4, 5])]

def readyApp : Pom.RawPom :=
  { leafPom "app" with
    dependencies := (appPom "core" "1.0" none none).dependencies ++
      (appPom "util" "1.0" none none).dependencies }

def readyParser (text : String) : Except String Pom.RawPom :=
  if text = "app" then .ok readyApp else .ok (leafPom text)

def readySetup (lockfile : Lockfile) : Setup :=
  .small readyFiles readyParser (Lockfile.Toml.only "lockfile" lockfile)

def noFlags : Flags := ⟨false, false, false, false, false, .compile⟩

def readyRun (lockfile : Lockfile) (machine : Machine) : Invocation :=
  .small (readySetup lockfile) noFlags "app" machine
    [(.pom ⟨"org.example", "core"⟩ "1.0", 1), (.pom ⟨"org.example", "util"⟩ "1.0", 1)]

def readyDep (artifact : String) : ResolvedDep :=
  ⟨⟨"org.example", artifact⟩, "1.0", .compile, none, "jar", false, 1, [⟨"org.example", artifact⟩]⟩

def coreEntry : LockfileEntry := buildLockfileEntry (readyDep "core")
    ⟨shortHash [1, 2, 3], none, 3, "https://repo/org/example/core/1.0/core-1.0.jar", none, none,
      .remote⟩

def utilEntry : LockfileEntry := buildLockfileEntry (readyDep "util")
    ⟨shortHash [4, 5], none, 2, "https://repo/org/example/util/1.0/util-1.0.jar", none, none,
      .remote⟩

def readyLockfile : Lockfile :=
  let blank := Lockfile.new "" "" "" ""
  newLockfile (readySetup blank) (readyRun blank .blank)
    ((currentSignature (readySetup blank) (readyRun blank .blank)).getD "") [coreEntry, utilEntry]

def readyBytes : Bytes := Lockfile.utf8 "lockfile"

theorem exists_of_pull {α : Type} {setup : Setup} {call : Invocation} {machine : Machine}
    (view : Machine → α) {val : α}
    (ran : ((pull setup call machine).map fun ended =>
      (ended.1.toOption.isSome, view ended.2)) = some (true, val)) :
    ∃ report last, pull setup call machine = some (.ok report, last) ∧ view last = val := by
  rcases Option.map_eq_some_iff.mp ran with ⟨⟨out, last⟩, ended, same⟩
  rw [Prod.mk.injEq] at same
  rcases out with _ | report
  · cases same.1
  · exact ⟨report, last, ended, same.2⟩

theorem pull_makes_ready_small :
    ∃ report last, pull (readySetup readyLockfile) (readyRun readyLockfile .blank) .blank =
        some (.ok report, last) ∧
      ∃ lockfile targets, last.lockfile.map (Lockfile.read (readySetup readyLockfile).toml none) =
          some (.ok lockfile) ∧
        Forall₂ Describes targets lockfile.entries ∧
          ((targets.map (placeOf (readySetup readyLockfile))).Nodup →
            Forall₂ (fun tgt entry => ReadyFor (readySetup readyLockfile) tgt entry last)
              targets lockfile.entries) := by
  have ran : ((pull (readySetup readyLockfile) (readyRun readyLockfile .blank) .blank).map
      fun ended => (ended.1.toOption.isSome, ended.2.lockfile)) =
        some (true, some readyBytes) := by decide +kernel
  rcases exists_of_pull Machine.lockfile ran with ⟨report, last, returned, -⟩
  refine ⟨report, last, returned, pull_makes_ready _ ?_ _ rfl _ _ report returned ?_⟩
  · exact Lockfile.Toml.faithful_only _ readyLockfile
  · rintro ⟨-, signature, -, locked⟩
    cases locked

/-- The lockfile of another machine satisfies `pull`, and nothing is fetched. -/
theorem foreign_lockfile_not_ready :
    let machine : Machine := { Machine.blank with lockfile := some readyBytes }
    ∃ report last, pull (readySetup readyLockfile) (readyRun readyLockfile machine) machine =
        some (.ok report, last) ∧
      last.lockfile.map (Lockfile.read (readySetup readyLockfile).toml none) =
          some (.ok readyLockfile) ∧
        coreEntry ∈ readyLockfile.entries ∧ coreEntry.sha256 = (shortHash [1, 2, 3]).toHex ∧
          last.store.objects (shortHash [1, 2, 3]) = none := by
  intro machine
  let view (last : Machine) :=
    (last.lockfile.map (Lockfile.read (readySetup readyLockfile).toml none),
    last.store.objects (shortHash [1, 2, 3]))
  have ran : ((pull (readySetup readyLockfile) (readyRun readyLockfile machine) machine).map
      fun ended => (ended.1.toOption.isSome, view ended.2)) =
        some (true, some (.ok readyLockfile), none) := by decide +kernel
  rcases exists_of_pull view ran with ⟨report, last, returned, same⟩
  rw [Prod.mk.injEq] at same
  exact ⟨report, last, returned, same.1, by decide, by decide, same.2⟩

end Ready

/-!
# Frozen runs

With `--frozen` the lockfile on the disk is meant to stay as it is.  The signature is compared only
if there is a lockfile, and `--update` refreshes the lockfile whatever the comparison says.  So a
frozen run may write a lockfile where there was none, and may rewrite one that carries the right
signature.
-/

open Resolver (ResolvedGraph)
open Lockfile (LockfileEntry)

section Frozen

variable (setup : Setup) (call : Invocation) (machine : Machine)

/-- The run leaves the bytes of the lockfile as they were, and a full run leaves a lockfile that
carries the signature of the project. -/
def KeepsLockfile (last : Machine) : Prop :=
  last.lockfile = machine.lockfile ∧ (call.flags.noFetch = false → ∃ signature,
    currentSignature setup call = some signature ∧ lockedSignature setup call last = some signature)

def Refreshable (bytes : Bytes) : Prop :=
  ∃ pomText rawPom begun consulted graph fetched stored linked,
    readPom setup call = .ok (pomText, rawPom) ∧
      ensureRootMarker setup call.createMarker pomText machine = (.ok (), begun) ∧
      Consults setup call begun rawPom consulted ∧
      walkDependencies setup call consulted.resolved = some (.ok graph) ∧
      Refreshes setup call (begun.asked setup.cache call.parentQuestions) consulted graph
        fetched stored linked bytes

variable {setup call machine} {last : Machine}

variable {rawPom : Pom.RawPom} {asked : Consulted} {bytes : Bytes} {report : PullReport}

theorem lockfile_of_noFetch (noFetch : call.flags.noFetch = true)
    (ret : pull setup call machine = some (.ok report, last)) :
    last.lockfile = machine.lockfile := by
  have expandedNoFetch : call.expanded.flags.noFetch = true := noFetch
  rcases readable : readPom setup call.expanded with _ | _
  · simp [pull, runInner, readable] at ret
  · simp only [pull, runInner, readable, expandedNoFetch, ↓reduceIte, Option.some.injEq, runNoFetch,
      Persistent.bind_eq_ok, readOnDisk_eq_ok, Persistent.ofExcept_eq_ok,
      Persistent.pure_eq_ok] at ret
    rcases ret with ⟨found, _, ⟨-, rfl⟩, sig, _, ⟨-, rfl⟩, -, rfl⟩
    rfl

theorem lockfile_of_fetch (fetches : call.flags.noFetch = false)
    (ret : pull setup call machine = some (.ok report, last)) :
    (LockfileSettles setup call machine ∧ last.lockfile = machine.lockfile) ∨
      (¬LockfileSettles setup call machine ∧
        ∃ bytes, Refreshable setup call.expanded machine bytes ∧ last.lockfile = some bytes) := by
  have expandedFetches : call.expanded.flags.noFetch = false := fetches
  rcases (runInner_eq_ok expandedFetches).mp ret with
    ⟨pomText, rawPom, begun, readable, marked, ended⟩
  rcases runFullFetch_eq_ok.mp ended with ⟨asked, consults, ended⟩
  have settles : authoritative call.expanded asked = true ↔ LockfileSettles setup call machine := by
    rw [authoritative_iff readable consults, ensureRootMarker_eq_ok marked]
    rfl
  by_cases settled : authoritative call.expanded asked = true
  · rw [if_pos settled] at ended
    left
    refine ⟨settles.mp settled, ?_⟩
    rw [← ended.2, ensureRootMarker_eq_ok marked]
    rfl
  · rw [if_neg settled] at ended
    rcases ended with ⟨walked, walks, refreshed⟩
    rcases exists_refreshes refreshed with
      ⟨graph, fetched, stored, linked, bytes, rfl, refreshes, rfl⟩
    right
    exact ⟨fun holds => settled (settles.mpr holds), bytes, ⟨pomText, rawPom, begun, asked, graph,
      fetched, stored, linked, readable, marked, consults, walks, refreshes⟩, rfl⟩

theorem lockedSignature_congr (same : last.lockfile = machine.lockfile) :
    lockedSignature setup call last = lockedSignature setup call machine := by
  simp only [lockedSignature, onDisk, same]

theorem signature_of_frozen (frozen : (call.flags.frozen || call.flags.ci) = true)
    (fetches : call.flags.noFetch = false) (ret : pull setup call machine = some (.ok report, last))
    (present : machine.lockfile.isSome) :
    ∃ sig, currentSignature setup call = some sig ∧
      lockedSignature setup call machine = some sig := by
  have expandedFetches : call.expanded.flags.noFetch = false := fetches
  rcases (runInner_eq_ok expandedFetches).mp ret with
    ⟨pomText, rawPom, begun, readable, marked, ended⟩
  rcases runFullFetch_eq_ok.mp ended with ⟨asked, consults, -⟩
  refine ⟨asked.signature, consults.currentSignature_eq readable, ?_⟩
  have sameLockfile : begun.lockfile = machine.lockfile := by rw [ensureRootMarker_eq_ok marked]
  have found := isSome_of_onDisk consults.onDisk
  rw [sameLockfile, present] at found
  rcases Option.isSome_iff_exists.mp found with ⟨lock, found⟩
  have carried := consults.frozen frozen lock found
  calc lockedSignature setup call machine = lockedSignature setup call begun :=
      lockedSignature_congr sameLockfile.symm
    _ = asked.onDisk.map _ := consults.lockedSignature_eq
    _ = some asked.signature := by
      rw [found]
      simpa [carries] using carried

theorem LockfileSettles.present (settles : LockfileSettles setup call machine) :
    machine.lockfile.isSome = true := by
  rcases settles with ⟨-, sig, -, locked⟩
  rcases there : machine.lockfile with _ | _
  · simp [lockedSignature, onDisk, there, Except.toOption] at locked
  · rfl

theorem onDisk_of_refreshable (faithful : setup.toml.Faithful)
    (refreshable : Refreshable setup call machine bytes) (kept : machine.lockfile = some bytes) :
    ∃ lock, onDisk setup call machine = .ok (some lock) ∧
      lock.metaTable.generatedAt = call.generatedAt := by
  rcases refreshable with ⟨pomText, rawPom, begun, asked, graph, fetched, stored, linked,
    readable, marked, consults, walked, refreshes⟩
  refine ⟨newLockfile setup call asked.signature (fetched.map Prod.fst), ?_, rfl⟩
  have reads := consults.onDisk
  have read := Lockfile.read_write faithful rfl refreshes.writes
  have same : begun.lockfile = some bytes := by rw [ensureRootMarker_eq_ok marked, kept]
  simp only [onDisk, same] at reads
  rcases faults : call.readLockfile with _ | fault
  · simp [onDisk, kept, faults, read, Except.map]
  · simp [Lockfile.read, faults, Except.map] at reads

end Frozen

/-- A frozen run that succeeds keeps the lockfile exactly if it does not fetch, or a lockfile is
there and no update is asked for, unless the lockfile was generated at the time of the run
itself. -/
theorem frozen_pull_keeps_iff (setup : Setup) (faithful : setup.toml.Faithful) (call : Invocation)
    (machine last : Machine) (report : PullReport)
    (frozen : (call.flags.frozen || call.flags.ci) = true)
    (returned : pull setup call machine = some (.ok report, last))
    (earlier : ∀ lockfile, onDisk setup call machine = .ok (some lockfile) →
      lockfile.metaTable.generatedAt ≠ call.generatedAt) :
    KeepsLockfile setup call machine last ↔ call.flags.noFetch = true ∨
        (machine.lockfile.isSome = true ∧ call.flags.update = false) := by
  by_cases fetches : call.flags.noFetch = false
  · constructor
    · rintro ⟨kept, -⟩
      rcases lockfile_of_fetch fetches returned with
        ⟨settles, -⟩ | ⟨-, bytes, refreshable, rewritten⟩
      · exact Or.inr ⟨settles.present, settles.1⟩
      · rw [rewritten] at kept
        rcases onDisk_of_refreshable faithful refreshable kept.symm with ⟨lock, found, stamped⟩
        exact absurd stamped (earlier lock found)
    · rintro (noFetch | ⟨present, noUpdate⟩)
      · simp [fetches] at noFetch
      · have signed := signature_of_frozen frozen fetches returned present
        have kept : last.lockfile = machine.lockfile := by
          rcases lockfile_of_fetch fetches returned with ⟨-, same⟩ | ⟨stale, -⟩
          · exact same
          · exact absurd ⟨noUpdate, signed⟩ stale
        refine ⟨kept, fun _ => ?_⟩
        rwa [lockedSignature_congr kept]
  · rw [Bool.not_eq_false] at fetches
    refine iff_of_true ⟨lockfile_of_noFetch fetches returned, ?_⟩ (Or.inl fetches)
    simp [fetches]

def frozenFlags : Flags := ⟨false, true, false, false, false, .compile⟩

def frozenRun (machine : Machine) : Invocation :=
  { readyRun readyLockfile machine with flags := frozenFlags }

/-- A lockfile that is there is kept. -/
theorem frozen_pull_keeps_small :
    let machine : Machine := { Machine.blank with lockfile := some readyBytes }
    let call := { frozenRun machine with generatedAt := "2026-02-01T00:00:00Z" }
    ∃ report last, pull (readySetup readyLockfile) call machine = some (.ok report, last) ∧
      KeepsLockfile (readySetup readyLockfile) call machine last := by
  intro machine call
  have ran : ((pull (readySetup readyLockfile) call machine).map fun ended =>
      (ended.1.toOption.isSome, ended.2.lockfile)) = some (true, some readyBytes) := by
    decide +kernel
  have found : onDisk (readySetup readyLockfile) call machine = .ok (some readyLockfile) := by
    decide +kernel
  rcases exists_of_pull Machine.lockfile ran with ⟨report, last, returned, -⟩
  refine ⟨report, last, returned, (frozen_pull_keeps_iff _ ?_ call machine last report rfl returned
    ?_).mpr (Or.inr ⟨rfl, rfl⟩)⟩
  · exact Lockfile.Toml.faithful_only _ readyLockfile
  · intro lockfile read
    rw [found, Except.ok.injEq, Option.some.injEq] at read
    rw [← read]
    decide +kernel

/-- Where there is no lockfile, a frozen run writes one. -/
theorem frozen_pull_writes :
    ∃ report last, pull (readySetup readyLockfile) (frozenRun .blank) .blank =
        some (.ok report, last) ∧
      Machine.blank.lockfile = none ∧ last.lockfile = some readyBytes := by
  have ran : ((pull (readySetup readyLockfile) (frozenRun .blank) .blank).map fun ended =>
      (ended.1.toOption.isSome, ended.2.lockfile)) =
        some (true, some readyBytes) := by decide +kernel
  rcases exists_of_pull Machine.lockfile ran with ⟨report, last, returned, written⟩
  exact ⟨report, last, returned, rfl, written⟩

end Barista.Pull
