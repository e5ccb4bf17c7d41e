import Barista.IndexMap
import Barista.MonadMorphism
import Barista.Text

/-!
# Project descriptions

The data model of `pom.xml` as the parser of `barista-pom` leaves it: nothing is inherited,
interpolated or activated yet.
-/

namespace Barista.Pom

structure RawParent where
  groupId : String
  artifactId : String
  version : String
  relativePath : Option String := none
  deriving DecidableEq

abbrev Properties := IndexMap String String

structure RawExclusion where
  groupId : String
  artifactId : String
  deriving DecidableEq

structure RawDependency where
  groupId : String
  artifactId : String
  version : Option String := none
  scope : Option String := none
  classifier : Option String := none
  type : Option String := none
  systemPath : Option String := none
  optional : Option String := none
  exclusions : List RawExclusion := []
  deriving DecidableEq

structure DependencyManagement where
  dependencies : List RawDependency := []
  deriving DecidableEq

structure XmlValue where
  attributes : List (String × String) := []
  text : Option String := none
  children : List (String × List XmlValue) := []

structure RawPluginExecution where
  id : Option String := none
  phase : Option String := none
  inherited : Option String := none
  goals : List String := []
  configuration : Option XmlValue := none

structure RawPlugin where
  groupId : String := "org.apache.maven.plugins"
  artifactId : String := ""
  version : Option String := none
  inherited : Option String := none
  extensions : Option String := none
  configuration : Option XmlValue := none
  dependencies : List RawDependency := []
  executions : List RawPluginExecution := []

structure RawPluginManagement where
  plugins : List RawPlugin := []

structure RawResource where
  directory : Option String := none
  targetPath : Option String := none
  filtering : Option String := none
  includes : List String := []
  excludes : List String := []
  deriving DecidableEq

structure RawBuild where
  sourceDirectory : Option String := none
  scriptSourceDirectory : Option String := none
  testSourceDirectory : Option String := none
  outputDirectory : Option String := none
  testOutputDirectory : Option String := none
  finalName : Option String := none
  defaultGoal : Option String := none
  directory : Option String := none
  filters : List String := []
  resources : List RawResource := []
  testResources : List RawResource := []
  plugins : List RawPlugin := []
  pluginManagement : Option RawPluginManagement := none

structure RawRepositoryPolicy where
  enabled : Option String := none
  updatePolicy : Option String := none
  checksumPolicy : Option String := none
  deriving DecidableEq

structure RawRepository where
  id : Option String := none
  name : Option String := none
  url : Option String := none
  layout : Option String := none
  releases : Option RawRepositoryPolicy := none
  snapshots : Option RawRepositoryPolicy := none
  deriving DecidableEq

structure RawActivationProperty where
  name : Option String := none
  value : Option String := none
  deriving DecidableEq

structure RawActivationFile where
  exists' : Option String := none
  missing : Option String := none
  deriving DecidableEq

structure RawActivation where
  activeByDefault : Option String := none
  jdk : Option String := none
  os : Option XmlValue := none
  property : Option RawActivationProperty := none
  file : Option RawActivationFile := none

structure RawProfile where
  id : Option String := none
  activation : Option RawActivation := none
  properties : Properties := ∅
  dependencies : List RawDependency := []
  dependencyManagement : Option DependencyManagement := none
  modules : List String := []
  build : Option RawBuild := none
  repositories : List RawRepository := []
  pluginRepositories : List RawRepository := []

structure RawPom where
  modelVersion : String := ""
  parent : Option RawParent := none
  groupId : Option String := none
  artifactId : String := ""
  version : Option String := none
  packaging : String := ""
  name : Option String := none
  description : Option String := none
  url : Option String := none
  inceptionYear : Option String := none
  properties : Properties := ∅
  dependencyManagement : Option DependencyManagement := none
  dependencies : List RawDependency := []
  modules : List String := []
  build : Option RawBuild := none
  profiles : List RawProfile := []
  repositories : List RawRepository := []
  pluginRepositories : List RawRepository := []

def RawPom.managed (pom : RawPom) : List RawDependency :=
  match pom.dependencyManagement with
  | none => []
  | some management => management.dependencies

/-!
# Interpolation of texts

A text may contain placeholders `${key}`.  One pass substitutes all of them; passes are
repeated until nothing is left to substitute, at most ten times.  In a strict location an
unknown key is an error, in a lenient one its placeholder stays as it is.
-/

inductive InterpolationLocation where
  | property (key : String)
  | dependencyVersion (group artifact : String)
  | pluginVersion (group artifact : String)
  | pomField (field : String)
  | pluginConfiguration (group artifact : String)
  | repositoryUrl (id : String)
  | other (hint : String)
  deriving DecidableEq

def InterpolationLocation.isStrict : InterpolationLocation → Bool
  | property _ | pluginConfiguration _ _ => false
  | _ => true

structure Interpolation where
  placeholder : String
  resolvedTo : String
  location : InterpolationLocation
  deriving DecidableEq

inductive EffectiveError where
  | parentResolution (coords reason : String)
  | chainTooDeep (max : ℕ)
  | circularParent (coords : String)
  | unresolvedPlaceholder (placeholder : String) (location : InterpolationLocation)
  deriving DecidableEq

def Interp (α : Type) : Type := Except EffectiveError (α × List Interpolation)

namespace Interp

variable {α β : Type}

instance : Monad Interp where
  pure value := Except.ok (value, [])
  bind first next :=
    match first with
    | .error error => .error error
    | .ok (value, log) => (next value).map fun result => (result.1, log ++ result.2)

def fail (error : EffectiveError) : Interp α := Except.error error

def record (substitution : Interpolation) : Interp Unit := Except.ok ((), [substitution])

def value (computation : Interp α) : Except EffectiveError α := Except.map Prod.fst computation

@[simp]
theorem value_pure (out : α) : (pure out : Interp α).value = pure out := rfl

@[simp]
theorem value_fail (err : EffectiveError) : (fail err : Interp α).value = .error err := rfl

@[simp]
theorem value_record (substitution : Interpolation) : (record substitution).value = pure () := rfl

@[simp]
theorem value_bind (first : Interp α) (next : α → Interp β) :
    (first >>= next).value = first.value >>= fun out => (next out).value := by
  rcases first with err | ⟨out, log⟩
  · rfl
  · rcases post : next out with err | ⟨result', log'⟩ <;>
      simp [Bind.bind, value, Except.map, Except.bind, post]

@[simp]
theorem value_map (f : α → β) (computation : Interp α) :
    (f <$> computation).value = f <$> computation.value := by
  rcases computation with err | ⟨out, log⟩ <;> rfl

def valueMorphism : MonadMorphism Interp (Except EffectiveError) where
  apply := value
  apply_pure := value_pure
  apply_bind := value_bind
  apply_map := value_map

theorem value_mapM' (f : α → Interp β) (list : List α) :
    (list.mapM' f).value = list.mapM' fun elem => (f elem).value :=
  valueMorphism.apply_mapM' f list

end Interp

inductive Piece where
  | char (char : Char)
  | placeholder (key : List Char)
  deriving DecidableEq

def placeholderChars (key : List Char) : List Char := '$' :: '{' :: key ++ ['}']

def pieces : Option (List Char) → List Char → List Piece
  | none, [] => []
  | none, '$' :: '{' :: rest => pieces (some []) rest
  | none, char :: rest => .char char :: pieces none rest
  | some key, [] => ('$' :: '{' :: key).map Piece.char
  | some key, '}' :: rest => .placeholder key :: pieces none rest
  | some key, char :: rest => pieces (some (key ++ [char])) rest

def hasOpening : List Char → Bool
  | '$' :: '{' :: _ => true
  | _ :: rest => hasOpening rest
  | [] => false

def copyChar (char : Char) : List Char :=
  (String.utf8EncodeChar char).map fun byte => Char.ofNat byte.toNat

def firstPlaceholder (text : List Char) : Option (List Char) :=
  (pieces none text).findSome? fun piece =>
    match piece with
    | .char _ => none
    | .placeholder key => some (placeholderChars key)

section Interpolate

variable (lookup : String → Option String) (location : InterpolationLocation)

def substitute : Piece → Interp (List Char × Bool)
  | .char char => pure (copyChar char, false)
  | .placeholder key =>
    match lookup (String.ofList key) with
    | some value => do
      Interp.record
        { placeholder := String.ofList (placeholderChars key), resolvedTo := value, location }
      return (value.toList, true)
    | none =>
      if location.isStrict then
        Interp.fail (.unresolvedPlaceholder (String.ofList (placeholderChars key)) location)
      else return (placeholderChars key, false)

def pass (text : List Char) : Interp (List Char × Bool) := do
  let parts ← (pieces none text).mapM' (substitute lookup location)
  return (parts.flatMap Prod.fst, parts.any Prod.snd)

def unresolved (text : List Char) : Interp (List Char) :=
  Interp.fail (.unresolvedPlaceholder (String.ofList ((firstPlaceholder text).getD text)) location)

def interpRounds : ℕ → List Char → Interp (List Char)
  | 0, current => unresolved location current
  | rounds + 1, current => do
    let (next, fired) ← pass lookup location current
    if !fired then return next
    else if !hasOpening next then return next
    else if next = current then unresolved location next
    else interpRounds rounds next

def maxInterpolationDepth : ℕ := 10

def interp (text : String) : Interp String :=
  if !hasOpening text.toList then return text
  else do
    let chars ← interpRounds lookup location maxInterpolationDepth text.toList
    return String.ofList chars

end Interpolate

/-!
# All texts of a POM

The interpolation of a POM visits its texts in a fixed order and tells each of them where it
stands.  What is done with a text is a parameter, and so is the monad in which it is done.
-/

variable {m : Type → Type} [Monad m] (interp : InterpolationLocation → String → m String)

def interpDependency (dep : RawDependency) : m RawDependency := do
  let location := .dependencyVersion dep.groupId dep.artifactId
  let groupId ← interp location dep.groupId
  let artifactId ← interp location dep.artifactId
  let version ← dep.version.mapM (interp location)
  let scope ← dep.scope.mapM (interp location)
  let classifier ← dep.classifier.mapM (interp location)
  let type ← dep.type.mapM (interp location)
  let systemPath ← dep.systemPath.mapM (interp location)
  let optional ← dep.optional.mapM (interp location)
  let exclusions ← dep.exclusions.mapM' fun exclusion => do
    let groupId ← interp location exclusion.groupId
    let artifactId ← interp location exclusion.artifactId
    return { groupId, artifactId : RawExclusion }
  return { groupId, artifactId, version, scope, classifier, type, systemPath, optional, exclusions }

def interpRepository (repository : RawRepository) : m RawRepository := do
  let location := .repositoryUrl (repository.id.getD "?")
  let id ← repository.id.mapM (interp location)
  let name ← repository.name.mapM (interp location)
  let url ← repository.url.mapM (interp location)
  let layout ← repository.layout.mapM (interp location)
  return { repository with id, name, url, layout }

section Configuration

variable (location : InterpolationLocation)

mutual

def interpXmlValue : XmlValue → m XmlValue
  | { attributes, text, children } => do
    let text ← text.mapM (interp location)
    let attributes ← attributes.mapM' fun pair => do
      let value ← interp location pair.2
      return (pair.1, value)
    let children ← interpXmlGroups children
    return { attributes, text, children }

def interpXmlGroups : List (String × List XmlValue) → m (List (String × List XmlValue))
  | [] => return []
  | (name, values) :: groups => do
    let values ← interpXmlValues values
    let groups ← interpXmlGroups groups
    return (name, values) :: groups

def interpXmlValues : List XmlValue → m (List XmlValue)
  | [] => return []
  | value :: values => do
    let value ← interpXmlValue value
    let values ← interpXmlValues values
    return value :: values

end

end Configuration

def interpPluginExecution (location : InterpolationLocation) (execution : RawPluginExecution) :
    m RawPluginExecution := do
  let id ← execution.id.mapM (interp location)
  let phase ← execution.phase.mapM (interp location)
  let goals ← execution.goals.mapM' (interp location)
  let configuration ← execution.configuration.mapM (interpXmlValue interp location)
  return { execution with id, phase, goals, configuration }

def interpPlugin (plugin : RawPlugin) : m RawPlugin := do
  let location := .pluginVersion plugin.groupId plugin.artifactId
  let groupId ← interp location plugin.groupId
  let artifactId ← interp location plugin.artifactId
  let version ← plugin.version.mapM (interp location)
  let inside := .pluginConfiguration groupId artifactId
  let configuration ← plugin.configuration.mapM (interpXmlValue interp inside)
  let dependencies ← plugin.dependencies.mapM' (interpDependency interp)
  let executions ← plugin.executions.mapM' (interpPluginExecution interp inside)
  return { plugin with groupId, artifactId, version, configuration, dependencies, executions }

def interpBuild (build : RawBuild) : m RawBuild := do
  let location := .other "build"
  let sourceDirectory ← build.sourceDirectory.mapM (interp location)
  let scriptSourceDirectory ← build.scriptSourceDirectory.mapM (interp location)
  let testSourceDirectory ← build.testSourceDirectory.mapM (interp location)
  let outputDirectory ← build.outputDirectory.mapM (interp location)
  let testOutputDirectory ← build.testOutputDirectory.mapM (interp location)
  let finalName ← build.finalName.mapM (interp location)
  let defaultGoal ← build.defaultGoal.mapM (interp location)
  let directory ← build.directory.mapM (interp location)
  let plugins ← build.plugins.mapM' (interpPlugin interp)
  let pluginManagement ← build.pluginManagement.mapM fun management => do
    let plugins ← management.plugins.mapM' (interpPlugin interp)
    return { plugins : RawPluginManagement }
  return { build with
    sourceDirectory, scriptSourceDirectory, testSourceDirectory, outputDirectory,
    testOutputDirectory, finalName, defaultGoal, directory, plugins, pluginManagement }

def interpManagement (management : DependencyManagement) : m DependencyManagement := do
  let dependencies ← management.dependencies.mapM' (interpDependency interp)
  return { dependencies }

def interpProfile (profile : RawProfile) : m RawProfile := do
  let location := .other ("profile[" ++ profile.id.getD "?" ++ "]")
  let id ← profile.id.mapM (interp location)
  let dependencies ← profile.dependencies.mapM' (interpDependency interp)
  let dependencyManagement ← profile.dependencyManagement.mapM (interpManagement interp)
  let build ← profile.build.mapM (interpBuild interp)
  let repositories ← profile.repositories.mapM' (interpRepository interp)
  let pluginRepositories ← profile.pluginRepositories.mapM' (interpRepository interp)
  return { profile with
    id, dependencies, dependencyManagement, build, repositories, pluginRepositories }

def interpProperties (properties : Properties) : m Properties :=
  properties.entries.foldlM (fun done entry => do
    let value ← interp (.property entry.1) entry.2
    return done.insert entry.1 value) ∅

@[nospecialize]
def interpolatePom (pom : RawPom) : m RawPom := do
  let properties ← interpProperties interp pom.properties
  let groupId ← pom.groupId.mapM (interp (.pomField "groupId"))
  let version ← pom.version.mapM (interp (.pomField "version"))
  let name ← pom.name.mapM (interp (.pomField "name"))
  let description ← pom.description.mapM (interp (.pomField "description"))
  let url ← pom.url.mapM (interp (.pomField "url"))
  let inceptionYear ← pom.inceptionYear.mapM (interp (.pomField "inceptionYear"))
  let dependencies ← pom.dependencies.mapM' (interpDependency interp)
  let dependencyManagement ← pom.dependencyManagement.mapM (interpManagement interp)
  let build ← pom.build.mapM (interpBuild interp)
  let profiles ← pom.profiles.mapM' (interpProfile interp)
  let repositories ← pom.repositories.mapM' (interpRepository interp)
  let pluginRepositories ← pom.pluginRepositories.mapM' (interpRepository interp)
  return { pom with
    properties, groupId, version, name, description, url, inceptionYear, dependencies,
    dependencyManagement, build, profiles, repositories, pluginRepositories }

section Morphism

variable {n : Type → Type} [Monad n] (morphism : MonadMorphism m n)

@[simp]
theorem apply_interpDependency (dep : RawDependency) :
    morphism.apply (interpDependency interp dep) =
      interpDependency (morphism.apply <| interp · ·) dep := by
  simp [interpDependency]

@[simp]
theorem apply_interpRepository (repo : RawRepository) :
    morphism.apply (interpRepository interp repo) =
      interpRepository (morphism.apply <| interp · ·) repo := by
  simp [interpRepository]

mutual

@[simp]
theorem apply_interpXmlValue (location : InterpolationLocation) (xml : XmlValue) :
    morphism.apply (interpXmlValue interp location xml) =
      interpXmlValue (morphism.apply <| interp · ·) location xml := by
  cases xml with
  | mk attrs text children =>
    simp [interpXmlValue, apply_interpXmlGroups location children]

theorem apply_interpXmlGroups (location : InterpolationLocation)
    (groups : List (String × List XmlValue)) :
    morphism.apply (interpXmlGroups interp location groups) =
      interpXmlGroups (morphism.apply <| interp · ·) location groups := by
  match groups with
  | [] => exact morphism.apply_pure []
  | (name, values) :: groups =>
    simp [interpXmlGroups, apply_interpXmlValues location values,
      apply_interpXmlGroups location groups]

theorem apply_interpXmlValues (location : InterpolationLocation) (values : List XmlValue) :
    morphism.apply (interpXmlValues interp location values) =
      interpXmlValues (morphism.apply <| interp · ·) location values := by
  match values with
  | [] => exact morphism.apply_pure []
  | val :: values =>
    simp [interpXmlValues, apply_interpXmlValue location val, apply_interpXmlValues location values]

end

@[simp]
theorem apply_interpPluginExecution (location : InterpolationLocation) (exec : RawPluginExecution) :
    morphism.apply (interpPluginExecution interp location exec) =
      interpPluginExecution (morphism.apply <| interp · ·) location exec := by
  simp [interpPluginExecution]

@[simp]
theorem apply_interpPlugin (plugin : RawPlugin) : morphism.apply (interpPlugin interp plugin) =
      interpPlugin (morphism.apply <| interp · ·) plugin := by
  simp [interpPlugin]

@[simp]
theorem apply_interpBuild (build : RawBuild) : morphism.apply (interpBuild interp build) =
      interpBuild (morphism.apply <| interp · ·) build := by
  simp [interpBuild]

@[simp]
theorem apply_interpManagement (mgmt : DependencyManagement) :
    morphism.apply (interpManagement interp mgmt) =
      interpManagement (morphism.apply <| interp · ·) mgmt := by
  simp [interpManagement]

@[simp]
theorem apply_interpProfile (prof : RawProfile) : morphism.apply (interpProfile interp prof) =
      interpProfile (morphism.apply <| interp · ·) prof := by
  simp [interpProfile]

@[simp]
theorem apply_interpProperties (properties : Properties) :
    morphism.apply (interpProperties interp properties) =
      interpProperties (morphism.apply <| interp · ·) properties := by
  simp [interpProperties]

theorem apply_interpolatePom (pom : RawPom) : morphism.apply (interpolatePom interp pom) =
      interpolatePom (morphism.apply <| interp · ·) pom := by
  simp [interpolatePom]

end Morphism

end Barista.Pom
