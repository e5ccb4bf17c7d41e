import Barista.Dialogue
import Barista.Pom.Traversal

/-!
# Effective POMs

The ancestors of a POM are asked for one by one, merged from the farthest down to the POM
itself, and the result is interpolated.
-/

namespace Barista.Pom

def maxChainDepth : ℕ := 10

structure Gav where
  group : String
  artifact : String
  version : String
  deriving DecidableEq

def Gav.display (gav : Gav) : String := gav.group ++ ":" ++ gav.artifact ++ ":" ++ gav.version

def RawParent.gav (parent : RawParent) : Gav := ⟨parent.groupId, parent.artifactId, parent.version⟩

abbrev Resolution (ε α : Type) : Type := Dialogue RawParent (Except String RawPom) ε α

def pomCoords (pom : RawPom) : Gav where
  group := (pom.groupId.or (pom.parent.map RawParent.groupId)).getD ""
  artifact := pom.artifactId
  version := (pom.version.or (pom.parent.map RawParent.version)).getD ""

def collectFrom : ℕ → List Gav → Option RawParent → Resolution EffectiveError (List RawPom)
  | _, _, none => return []
  | 0, _, some _ => .error (.chainTooDeep maxChainDepth)
  | remaining + 1, seen, some parent =>
    if parent.gav ∈ seen then .error (.circularParent parent.gav.display)
    else do
      match ← Dialogue.request parent with
      | .error reason => .error (.parentResolution parent.gav.display reason)
      | .ok pom =>
        let rest ← collectFrom remaining (parent.gav :: seen) pom.parent
        return pom :: rest

def collectParentChain (root : RawPom) : Resolution EffectiveError (List RawPom) :=
  collectFrom maxChainDepth [pomCoords root] root.parent

def mergeProperties (parent child : Properties) : Properties :=
  ((∅ : Properties).extend parent.entries).extend child.entries

def mergeDependencyManagement :
    Option DependencyManagement → Option DependencyManagement → Option DependencyManagement
  | none, none => none
  | some parent, none => some parent
  | none, some child => some child
  | some parent, some child => some { dependencies := parent.dependencies ++ child.dependencies }

def isPluginInheritable (plugin : RawPlugin) : Bool := plugin.inherited ≠ some "false"

def mergePluginManagement :
    Option RawPluginManagement → Option RawPluginManagement → Option RawPluginManagement
  | none, none => none
  | some parent, none => some { plugins := parent.plugins.filter isPluginInheritable }
  | none, some child => some child
  | some parent, some child =>
    some { plugins := parent.plugins.filter isPluginInheritable ++ child.plugins }

def mergeBuild : Option RawBuild → Option RawBuild → Option RawBuild
  | none, none => none
  | some parent, none =>
    some { parent with
      plugins := parent.plugins.filter isPluginInheritable
      pluginManagement := parent.pluginManagement.map fun management =>
        { plugins := management.plugins.filter isPluginInheritable } }
  | none, some child => some child
  | some parent, some child =>
    some
      { sourceDirectory := child.sourceDirectory.or parent.sourceDirectory
        scriptSourceDirectory := child.scriptSourceDirectory.or parent.scriptSourceDirectory
        testSourceDirectory := child.testSourceDirectory.or parent.testSourceDirectory
        outputDirectory := child.outputDirectory.or parent.outputDirectory
        testOutputDirectory := child.testOutputDirectory.or parent.testOutputDirectory
        finalName := child.finalName.or parent.finalName
        defaultGoal := child.defaultGoal.or parent.defaultGoal
        directory := child.directory.or parent.directory
        filters := parent.filters ++ child.filters
        resources := parent.resources ++ child.resources
        testResources := parent.testResources ++ child.testResources
        plugins := parent.plugins.filter isPluginInheritable ++ child.plugins
        pluginManagement := mergePluginManagement parent.pluginManagement child.pluginManagement }

section ById

variable {α : Type} (idOf : α → Option String)

def keepNewIds (seen : List String) : List α → List α
  | [] => []
  | element :: rest =>
    match idOf element with
    | none => element :: keepNewIds seen rest
    | some id =>
      if id ∈ seen then keepNewIds seen rest else element :: keepNewIds (id :: seen) rest

def mergeById (earlier later : List α) : List α :=
  let laterIds := later.filterMap idOf
  let kept := earlier.filter fun element => !(idOf element).any fun id => id ∈ laterIds
  kept ++ keepNewIds idOf (kept.filterMap idOf) later

end ById

def mergeRepositories : List RawRepository → List RawRepository → List RawRepository :=
  mergeById RawRepository.id

def merge (parent child : RawPom) : RawPom :=
  { child with
    groupId := child.groupId.or parent.groupId
    version := child.version.or parent.version
    packaging := if child.packaging = "jar" ∧ parent.packaging ≠ "jar" then parent.packaging
      else child.packaging
    name := child.name.or parent.name
    description := child.description.or parent.description
    url := child.url.or parent.url
    inceptionYear := child.inceptionYear.or parent.inceptionYear
    properties := mergeProperties parent.properties child.properties
    dependencies := parent.dependencies ++ child.dependencies
    dependencyManagement := mergeDependencyManagement parent.dependencyManagement
      child.dependencyManagement
    build := mergeBuild parent.build child.build
    profiles := parent.profiles ++ child.profiles
    repositories := mergeRepositories parent.repositories child.repositories
    pluginRepositories := mergeRepositories parent.pluginRepositories child.pluginRepositories }

def mergeChain (root : RawPom) (chain : List RawPom) : RawPom :=
  match chain.reverse with
  | [] => root
  | farthest :: nearer => merge (nearer.foldl merge farthest) root

structure ProjectContext where
  groupId : Option String
  artifactId : String
  version : Option String
  parentGroupId : Option String
  parentArtifactId : Option String
  parentVersion : Option String
  deriving DecidableEq

def ProjectContext.fromPom (pom : RawPom) : ProjectContext where
  groupId := pom.groupId.or (pom.parent.map RawParent.groupId)
  artifactId := pom.artifactId
  version := pom.version.or (pom.parent.map RawParent.version)
  parentGroupId := pom.parent.map RawParent.groupId
  parentArtifactId := pom.parent.map RawParent.artifactId
  parentVersion := pom.parent.map RawParent.version

def lookupProject (context : ProjectContext) (field : String) : Option String :=
  if field = "groupId" then context.groupId
  else if field = "artifactId" then some context.artifactId
  else if field = "version" then context.version
  else if field = "parent.groupId" then context.parentGroupId
  else if field = "parent.artifactId" then context.parentArtifactId
  else if field = "parent.version" then context.parentVersion
  else if field = "basedir" then some ""
  else none

section Build

variable (env : String → Option String)

def lookup (context : ProjectContext) (properties : Properties) (key : String) : Option String :=
  match Text.stripPrefix "project." key with
  | some field => lookupProject context field
  | none =>
    match Text.stripPrefix "env." key with
    | some name => env name
    | none => if Text.startsWith key "settings." then none else properties.get? key

def lookupIn (pom : RawPom) : String → Option String :=
  lookup env (ProjectContext.fromPom pom) pom.properties

structure EffectivePom where
  pom : RawPom
  interpolations : List Interpolation
  parentChain : List RawPom

def finishEffective (chain : List RawPom) (merged : RawPom) : Except EffectiveError EffectivePom :=
  (interpolatePom (interp (lookupIn env merged)) merged).map fun (pom, interpolations) =>
    { pom := { pom with parent := none }, interpolations, parentChain := chain }

def buildEffective (root : RawPom) : Resolution EffectiveError EffectivePom := do
  let chain ← collectParentChain root
  Dialogue.ofExcept (finishEffective env chain (mergeChain root chain))

end Build

/-!
# Profiles

A profile is active if it is requested, if all its activators agree, or if it is a default
and no other profile is active.  What an active profile contains is spliced into the POM.
-/

inductive ActivationFailure where
  | tooShort (range : String)
  | missingBrackets (range : String)
  | missingComma (range : String)
  deriving DecidableEq

inductive ResolveError where
  | effective (error : EffectiveError)
  | bomImportCycle (coords : String)
  | bomImportTooDeep (max : ℕ)
  | bomImportResolution (coords reason : String)
  | unresolvedDepMgtVersion (coords : String)
  | unresolvedDependencyVersion (coords : String)
  | invalidActivation (detail : ActivationFailure)
  deriving DecidableEq

structure ActivationContext where
  jdkVersion : Option String := none
  osName : Option String := none
  osArch : Option String := none
  osFamily : Option String := none
  osVersion : Option String := none
  userProperties : String → Option String := fun _ => none
  activeProfileIds : List String := []
  inactiveProfileIds : List String := []
  basedir : Option String := none

def jdkPrefixMatches (spec actual : String) : Bool := actual == spec ||
    match Text.stripPrefix spec actual with
    | some rest => Text.startsWith rest "."
    | none => false

def numericParts : List (List Char) → List ℕ
  | [] => []
  | part :: rest =>
    if part = [] then numericParts rest
    else
      let digits := part.takeWhile fun char => '0' ≤ char && char ≤ '9'
      let number := digits.foldl (fun number digit => 10 * number + (digit.toNat - 48)) 0
      if digits = [] ∨ 2 ^ 64 ≤ number then [] else number :: numericParts rest

def parseVersion (text : String) : Option (List ℕ) :=
  if text = "" then none
  else
    some (numericParts (text.toList.splitOnP fun char =>
      char == '.' || char == '_' || char == '-'))

def compareVersions : List ℕ → List ℕ → Ordering
  | [], [] => .eq
  | left :: lefts, [] => (compare left 0).then (compareVersions lefts [])
  | [], right :: rights => (compare 0 right).then (compareVersions [] rights)
  | left :: lefts, right :: rights => (compare left right).then (compareVersions lefts rights)

def jdkRangeMatches (range actual : String) : Except ResolveError Bool :=
  let chars := range.toList
  if range.utf8ByteSize < 3 then .error (.invalidActivation (.tooShort range))
  else
    let first := chars.head?
    let last := chars.getLast?
    if (first ≠ some '[' ∧ first ≠ some '(') ∨ (last ≠ some ']' ∧ last ≠ some ')') then
      .error (.invalidActivation (.missingBrackets range))
    else
      let inner := chars.tail.dropLast
      if ',' ∉ inner then .error (.invalidActivation (.missingComma range))
      else
        let low := parseVersion (Text.trim (String.ofList (inner.takeWhile (· != ','))))
        let high := parseVersion (Text.trim (String.ofList ((inner.dropWhile (· != ',')).drop 1)))
        let version := (parseVersion actual).getD []
        let aboveLow := match low with
          | none => true
          | some low =>
            if first = some '[' then compareVersions version low != .lt
            else compareVersions version low == .gt
        let belowHigh := match high with
          | none => true
          | some high =>
            if last = some ']' then compareVersions version high != .gt
            else compareVersions version high == .lt
        .ok (aboveLow && belowHigh)

def jdkMatches (spec actual : String) : Except ResolveError Bool :=
  let spec := Text.trim spec
  if spec = "" then .ok true
  else
    match Text.stripPrefix "!" spec with
    | some rest => .ok !jdkPrefixMatches (Text.trim rest) actual
    | none =>
      if Text.startsWith spec "[" || Text.startsWith spec "(" then jdkRangeMatches spec actual
      else .ok (jdkPrefixMatches spec actual)

def negatable (spec : String) (test : String → Bool) : Bool :=
  match Text.stripPrefix "!" spec with
  | some rest => !test (Text.trim rest)
  | none => test (Text.trim spec)

def osCheck (spec actual : Option String) : Bool :=
  match spec with
  | none => true
  | some spec => negatable spec fun wanted =>
    match actual with
    | some actual => Text.eqIgnoreAsciiCase actual wanted
    | none => false

def XmlValue.childText (xml : XmlValue) (name : String) : Option String :=
  ((xml.children.find? fun group => group.1 == name).bind fun group => group.2.head?).bind
    XmlValue.text

def osMatches (os : XmlValue) (context : ActivationContext) : Bool :=
  osCheck (os.childText "name") context.osName &&
    osCheck (os.childText "family") context.osFamily &&
    osCheck (os.childText "arch") context.osArch &&
    osCheck (os.childText "version") context.osVersion

def propertyMatches (property : RawActivationProperty) (context : ActivationContext) : Bool :=
  match property.name with
  | none => false
  | some name => negatable name fun key =>
    match context.userProperties key, property.value with
    | some actual, some wanted => actual == wanted
    | some _, none => true
    | none, _ => false

section Activation

-- whether a path below a base directory exists
variable (pathExists : String → String → Bool)

def fileMatches (file : RawActivationFile) (context : ActivationContext) : Bool :=
  match context.basedir with
  | none => false
  | some base =>
    file.exists'.all (pathExists base) && file.missing.all fun path => !pathExists base path

inductive ActivationOutcome where
  | active
  | inactive
  | defaultCandidate
  | unconfigured
  deriving DecidableEq

def evaluateActivators (activation : RawActivation) (context : ActivationContext) :
    Except ResolveError Bool := do
  let jdk ← match activation.jdk, context.jdkVersion with
    | none, _ => pure true
    | some _, none => pure false
    | some spec, some actual => jdkMatches spec actual
  return jdk && activation.os.all (osMatches · context) &&
    activation.property.all (propertyMatches · context) &&
    activation.file.all (fileMatches pathExists · context)

def evaluateActivation (profile : RawProfile) (context : ActivationContext) :
    Except ResolveError ActivationOutcome :=
  match profile.activation with
  | none => .ok .unconfigured
  | some activation =>
    if activation.jdk.isNone ∧ activation.os.isNone ∧ activation.property.isNone ∧
        activation.file.isNone then
      .ok (if activation.activeByDefault = some "true" then .defaultCandidate
        else .unconfigured)
    else do
      let agreed ← evaluateActivators pathExists activation context
      return if agreed then .active else .inactive

def profileOutcome (context : ActivationContext) (profile : RawProfile) :
    Except ResolveError ActivationOutcome :=
  let id := profile.id.getD ""
  if id ≠ "" ∧ id ∈ context.inactiveProfileIds then .ok .inactive
  else if id ≠ "" ∧ id ∈ context.activeProfileIds then .ok .active
  else evaluateActivation pathExists profile context

def profileStatuses (context : ActivationContext) (profiles : List RawProfile) :
    Except ResolveError (List Bool) := do
  let outcomes ← profiles.mapM' (profileOutcome pathExists context)
  let anyActive := outcomes.any (· = .active)
  return outcomes.map fun outcome =>
    outcome = .active || (outcome = .defaultCandidate && !anyActive)

def splicePluginManagement (existing incoming : Option RawPluginManagement) :
    Option RawPluginManagement :=
  match existing, incoming with
  | existing, none => existing
  | none, some incoming => some incoming
  | some existing, some incoming => some { plugins := existing.plugins ++ incoming.plugins }

def spliceBuild (target : Option RawBuild) (build : RawBuild) : RawBuild :=
  let target := target.getD {}
  { sourceDirectory := build.sourceDirectory.or target.sourceDirectory
    scriptSourceDirectory := build.scriptSourceDirectory.or target.scriptSourceDirectory
    testSourceDirectory := build.testSourceDirectory.or target.testSourceDirectory
    outputDirectory := build.outputDirectory.or target.outputDirectory
    testOutputDirectory := build.testOutputDirectory.or target.testOutputDirectory
    finalName := build.finalName.or target.finalName
    defaultGoal := build.defaultGoal.or target.defaultGoal
    directory := build.directory.or target.directory
    filters := target.filters ++ build.filters
    resources := target.resources ++ build.resources
    testResources := target.testResources ++ build.testResources
    plugins := target.plugins ++ build.plugins
    pluginManagement := splicePluginManagement target.pluginManagement build.pluginManagement }

def dedupRepositories : List RawRepository → List RawRepository → List RawRepository :=
  mergeById RawRepository.id

def spliceProfile (pom : RawPom) (profile : RawProfile) : RawPom :=
  { pom with
    properties := pom.properties.extend profile.properties.entries
    dependencies := pom.dependencies ++ profile.dependencies
    dependencyManagement :=
      mergeDependencyManagement pom.dependencyManagement profile.dependencyManagement
    build := match profile.build with
      | none => pom.build
      | some build => some (spliceBuild pom.build build)
    repositories := dedupRepositories pom.repositories profile.repositories
    pluginRepositories := dedupRepositories pom.pluginRepositories profile.pluginRepositories
    modules := profile.modules.foldl (fun modules name =>
      if name ∈ modules then modules else modules ++ [name]) pom.modules }

def spliceProfiles (pom : RawPom) (statuses : List Bool) : RawPom × List String :=
  let marked := (pom.profiles.zip statuses).zipIdx
  let active := marked.filter fun entry => entry.1.2
  let inactive := marked.filter fun entry => !entry.1.2
  let spliced := active.foldl (fun pom entry => spliceProfile pom entry.1.1) pom
  ({ spliced with profiles := inactive.map fun entry => entry.1.1 },
    active.map fun entry => entry.1.1.id.getD ("<profile-" ++ toString entry.2 ++ ">"))

def applyProfiles (pom : RawPom) (context : ActivationContext) :
    Except ResolveError (RawPom × List String) := do
  let statuses ← profileStatuses pathExists context pom.profiles
  return spliceProfiles pom statuses

end Activation

/-!
# Resolution of a POM

The effective POM is extended by the managed dependencies of the POMs it imports and by its
active profiles, interpolated again, and then the managed dependencies fill in what the
dependencies leave open.
-/

def maxBomImportDepth : ℕ := 16

variable (dep : RawDependency)

def isBomImport : Bool := dep.scope = some "import" ∧ dep.type = some "pom"

def RawDependency.importGav : Gav :=
  ⟨dep.groupId, dep.artifactId, dep.version.getD ""⟩

structure ImportState where
  imported : List String := []
  stack : List Gav := []
  deriving DecidableEq

def Gav.toParent (gav : Gav) : RawParent :=
  { groupId := gav.group, artifactId := gav.artifact, version := gav.version }

section Imports

variable (env : String → Option String)

def effectiveBom (gav : Gav) : Resolution ResolveError EffectivePom := do
  match ← Dialogue.request gav.toParent with
  | .error reason => .error (.bomImportResolution gav.display reason)
  | .ok raw => (buildEffective env raw).mapError .effective

def expandImports (expand : RawPom → ImportState → Resolution ResolveError (RawPom × ImportState)) :
    List RawDependency → ImportState → Resolution ResolveError (List RawDependency × ImportState)
  | [], state => return ([], state)
  | dep :: deps, state =>
    let gav := dep.importGav
    if gav.group = "" ∨ gav.artifact = "" ∨ gav.version = "" then
      .error (.unresolvedDepMgtVersion gav.display)
    else if gav ∈ state.stack then .error (.bomImportCycle gav.display)
    else do
      let effective ← effectiveBom env gav
      let (bom, state) ← expand effective.pom { state with stack := gav :: state.stack }
      let (appended, state) ← expandImports expand deps
        { imported := state.imported ++ [gav.display], stack := state.stack.erase gav }
      return (bom.managed ++ appended, state)

def expandBomImports : ℕ → RawPom → ImportState → Resolution ResolveError (RawPom × ImportState)
  | 0, _, _ => .error (.bomImportTooDeep maxBomImportDepth)
  | remaining + 1, pom, state =>
    match pom.dependencyManagement with
    | none => return (pom, state)
    | some management => do
      let kept := management.dependencies.filter fun dep => !isBomImport dep
      let imports := management.dependencies.filter isBomImport
      let (appended, state) ← expandImports env (expandBomImports remaining) imports state
      return ({ pom with dependencyManagement := some { dependencies := kept ++ appended } }, state)

end Imports

structure DepKey where
  group : String
  artifact : String
  type : String
  classifier : String
  deriving DecidableEq

def DepKey.of : DepKey :=
  ⟨dep.groupId, dep.artifactId, dep.type.getD "jar", dep.classifier.getD ""⟩

variable (deps : List RawDependency)

def indexByKey : IndexMap DepKey RawDependency :=
  deps.foldl (fun index dep => index.insertIfNew (DepKey.of dep) dep) ∅

def buildDmIndex (pom : RawPom) : IndexMap DepKey RawDependency :=
  indexByKey (pom.managed.filter fun dep => !isBomImport dep)

def buildIndexFrom : IndexMap DepKey RawDependency :=
  indexByKey (deps.filter fun dep => !isBomImport dep && dep.version.isSome)

def RawDependency.inheritFrom (dep managed : RawDependency) : RawDependency :=
  { dep with
    version := dep.version.or managed.version
    scope := dep.scope.or managed.scope
    exclusions := if dep.exclusions = [] then managed.exclusions else dep.exclusions }

def inheritManaged : List RawDependency := deps.map fun dep =>
    if dep.version.isSome || isBomImport dep then dep
    else
      match (buildIndexFrom deps).get? (DepKey.of dep) with
      | some other => dep.inheritFrom other
      | none => dep

def manageDependency (index : IndexMap DepKey RawDependency) (dep : RawDependency) :
    Except ResolveError RawDependency :=
  if dep.scope = some "system" then .ok dep
  else
    let dep := match index.get? (DepKey.of dep) with
      | some managed => dep.inheritFrom managed
      | none => dep
    if dep.version.isNone then
      .error (.unresolvedDependencyVersion (dep.groupId ++ ":" ++ dep.artifactId))
    else .ok dep

def inheritManagement (management : DependencyManagement) : DependencyManagement :=
  { dependencies := inheritManaged management.dependencies }

def applyDependencyManagement (pom : RawPom) : Except ResolveError RawPom := do
  let pom :=
    { pom with dependencyManagement := pom.dependencyManagement.map inheritManagement }
  let dependencies ← pom.dependencies.mapM' (manageDependency (buildDmIndex pom))
  return { pom with dependencies }

structure ResolvedPom where
  pom : RawPom
  effective : EffectivePom
  activeProfileIds : List String
  importedBoms : List String

section Resolve

variable (env : String → Option String) (pathExists : String → String → Bool)

def preparePom (root : RawPom) (context : ActivationContext) :
    Resolution ResolveError ResolvedPom := do
  let effective ← (buildEffective env root).mapError .effective
  let (pom, imports) ← expandBomImports env (maxBomImportDepth + 1) effective.pom {}
  let (pom, active) ← Dialogue.ofExcept (applyProfiles pathExists pom context)
  if imports.imported = [] ∧ active = [] then
    return { pom, effective, activeProfileIds := active, importedBoms := imports.imported }
  else
    -- the parent is gone, so this is only the second interpolation
    let again ← (buildEffective env pom).mapError .effective
    return { pom := again.pom, effective, activeProfileIds := active,
             importedBoms := imports.imported }

def resolvePom (root : RawPom) (context : ActivationContext) :
    Resolution ResolveError ResolvedPom := do
  let prepared ← preparePom env pathExists root context
  let pom ← Dialogue.ofExcept (applyDependencyManagement prepared.pom)
  return { prepared with pom }

end Resolve

end Barista.Pom
