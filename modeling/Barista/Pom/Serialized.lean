import Barista.Layout
import Barista.Pom.Traversal

/-!
# Serialized POMs

The bytes that the positional serializer writes for a POM: the fields of every record one
behind the other, in the order of their declaration.  A free-form element leaves out what it
does not have (attributes, text or children), and no byte says so.
-/

namespace Barista.Pom

namespace Serialized

open PrefixCodec (varint joined)

def attributes : PrefixCodec (List (String × String)) :=
  (PrefixCodec.string.pair PrefixCodec.string).list

def text : PrefixCodec (Option String) := PrefixCodec.string.option

mutual

def encodeXmlValue : XmlValue → Except String Bytes
  | ⟨attrs, content, children⟩ =>
    joined (if attrs.isEmpty then .ok [] else attributes.encode attrs)
      (joined (if content.isNone then .ok [] else text.encode content)
        (if children.isEmpty then .ok []
          else joined (varint.encode children.length) (encodeXmlGroups children)))

def encodeXmlGroups : List (String × List XmlValue) → Except String Bytes
  | [] => .ok []
  | (name, values) :: groups =>
    joined (joined (PrefixCodec.string.encode name)
        (joined (varint.encode values.length) (encodeXmlValues values)))
      (encodeXmlGroups groups)

def encodeXmlValues : List XmlValue → Except String Bytes
  | [] => .ok []
  | value :: values => joined (encodeXmlValue value) (encodeXmlValues values)

end

mutual

def xmlSkips : XmlValue → List Bool
  | ⟨attrs, content, children⟩ =>
    attrs.isEmpty :: content.isNone ::
      (if children.isEmpty then [true] else false :: xmlGroupSkips children)

def xmlGroupSkips : List (String × List XmlValue) → List Bool
  | [] => []
  | (_, values) :: groups => xmlValueSkips values ++ xmlGroupSkips groups

def xmlValueSkips : List XmlValue → List Bool
  | [] => []
  | value :: values => xmlSkips value ++ xmlValueSkips values

end

def xmlLayout : Layout XmlValue where
  encode := encodeXmlValue
  skips := xmlSkips

def xmlFields (inner : Layout XmlValue) : Layout XmlValue :=
  (((Layout.ofCodec attributes).skipping List.isEmpty).pair
    (((Layout.ofCodec text).skipping Option.isNone).pair
      (((Layout.ofCodec PrefixCodec.string).pair inner.list).list.skipping List.isEmpty))).comap
    fun xml => (xml.attributes, xml.text, xml.children)

theorem encodeXmlValues_eq (values : List XmlValue) :
    encodeXmlValues values = xmlLayout.encodeEach values := by
  induction values with
  | nil => rfl
  | cons val values ih =>
    rw [encodeXmlValues, ih]
    rfl

theorem encodeXmlGroups_eq (groups : List (String × List XmlValue)) : encodeXmlGroups groups =
      ((Layout.ofCodec PrefixCodec.string).pair xmlLayout.list).encodeEach groups := by
  induction groups with
  | nil => rfl
  | cons group groups ih =>
    rw [encodeXmlGroups, ih, encodeXmlValues_eq]
    rfl

theorem xmlValueSkips_eq (values : List XmlValue) :
    xmlValueSkips values = values.flatMap xmlSkips := by
  induction values with
  | nil => rfl
  | cons val values ih => rw [xmlValueSkips, ih, List.flatMap_cons]

theorem xmlGroupSkips_eq (groups : List (String × List XmlValue)) :
    xmlGroupSkips groups = groups.flatMap fun group => group.2.flatMap xmlSkips := by
  induction groups with
  | nil => rfl
  | cons group groups ih => rw [xmlGroupSkips, ih, xmlValueSkips_eq, List.flatMap_cons]

theorem xmlLayout_eq : xmlLayout = xmlFields xmlLayout := by
  have encode : ∀ xml, encodeXmlValue xml = (xmlFields xmlLayout).encode xml := by
    rintro ⟨attrs, content, children⟩
    rw [encodeXmlValue, encodeXmlGroups_eq]
    rfl
  have skips : ∀ xml, xmlSkips xml = (xmlFields xmlLayout).skips xml := by
    rintro ⟨attrs, content, children⟩
    rw [xmlSkips, xmlGroupSkips_eq]
    cases attrs <;> cases content <;> cases children <;>
      simp [xmlFields, Layout.comap, Layout.pair, Layout.skipping, Layout.ofCodec, Layout.list,
        Layout.each, xmlLayout]
  rw [xmlLayout]
  congr 1
  · exact funext encode
  · exact funext skips

theorem determines_xmlFields {inner : Layout XmlValue} {xml : XmlValue}
    (inside : ∀ group ∈ xml.children, ∀ val ∈ group.2, inner.Determines val) :
    (xmlFields inner).Determines xml := by
  have fieldsInjective : Function.Injective
      fun xml : XmlValue => (xml.attributes, xml.text, xml.children) := by
    rintro ⟨⟩ ⟨⟩ same
    simpa using same
  have onlyNil : ∀ {α : Type} (left right : List α),
      left.isEmpty → right.isEmpty → left = right := by
    intro α left right leftEmpty rightEmpty
    rw [List.isEmpty_iff.mp leftEmpty, List.isEmpty_iff.mp rightEmpty]
  have onlyNone : ∀ left right : Option String, left.isNone → right.isNone → left = right := by
    intro left right leftNone rightNone
    rw [Option.isNone_iff_eq_none.mp leftNone, Option.isNone_iff_eq_none.mp rightNone]
  apply Layout.Determines.comap fieldsInjective
  apply Layout.Determines.pair
  · exact .skipping onlyNil (Layout.determines_ofCodec _ _)
  apply Layout.Determines.pair
  · exact .skipping onlyNone (Layout.determines_ofCodec _ _)
  apply Layout.Determines.skipping onlyNil
  apply Layout.Determines.list
  intro group mem
  apply Layout.Determines.pair
  · exact Layout.determines_ofCodec _ _
  · exact .list (inside group mem)

mutual

theorem determines_xmlValue (xml : XmlValue) : xmlLayout.Determines xml := by
  cases xml with
  | mk attrs content children =>
    rw [xmlLayout_eq]
    exact determines_xmlFields (determines_xmlGroups children)

theorem determines_xmlGroups (groups : List (String × List XmlValue)) :
    ∀ group ∈ groups, ∀ val ∈ group.2, xmlLayout.Determines val := by
  rcases groups with _ | ⟨group, groups⟩
  · simp
  · cases group with
    | mk name values =>
      rw [List.forall_mem_cons]
      exact ⟨determines_xmlValues values, determines_xmlGroups groups⟩

theorem determines_xmlValues (values : List XmlValue) :
    ∀ val ∈ values, xmlLayout.Determines val := by
  rcases values with _ | ⟨val, values⟩
  · simp
  · rw [List.forall_mem_cons]
    exact ⟨determines_xmlValue val, determines_xmlValues values⟩

end

def xmlValue : Encoding XmlValue where
  toLayout := xmlLayout
  determines := determines_xmlValue

def string : Encoding String := .ofCodec PrefixCodec.string

def properties : Encoding Properties :=
  (string.pair string).list.comap IndexMap.entries (by rintro ⟨⟩ ⟨⟩ same; simpa using same)

def rawParent : Encoding RawParent := (string.pair (string.pair (string.pair string.option))).comap
    (fun parent => (parent.groupId, parent.artifactId, parent.version, parent.relativePath))
    (by rintro ⟨⟩ ⟨⟩ same; simpa using same)

def rawExclusion : Encoding RawExclusion :=
  (string.pair string).comap (fun exclusion => (exclusion.groupId, exclusion.artifactId))
    (by rintro ⟨⟩ ⟨⟩ same; simpa using same)

def rawDependency : Encoding RawDependency :=
  (string.pair (string.pair (string.option.pair (string.option.pair (string.option.pair
    (string.option.pair (string.option.pair (string.option.pair rawExclusion.list)))))))).comap
    (fun dep => (dep.groupId, dep.artifactId, dep.version, dep.scope, dep.classifier, dep.type,
      dep.systemPath, dep.optional, dep.exclusions))
    (by rintro ⟨⟩ ⟨⟩ same; simpa using same)

def dependencyManagement : Encoding DependencyManagement :=
  rawDependency.list.comap DependencyManagement.dependencies
    (by rintro ⟨⟩ ⟨⟩ same; simpa using same)

def rawResource : Encoding RawResource :=
  (string.option.pair (string.option.pair (string.option.pair
    (string.list.pair string.list)))).comap
    (fun resource => (resource.directory, resource.targetPath, resource.filtering,
      resource.includes, resource.excludes))
    (by rintro ⟨⟩ ⟨⟩ same; simpa using same)

def rawPluginExecution : Encoding RawPluginExecution :=
  (string.option.pair (string.option.pair (string.option.pair
    (string.list.pair xmlValue.option)))).comap
    (fun execution => (execution.id, execution.phase, execution.inherited, execution.goals,
      execution.configuration))
    (by rintro ⟨⟩ ⟨⟩ same; simpa using same)

def rawPlugin : Encoding RawPlugin :=
  (string.pair (string.pair (string.option.pair (string.option.pair (string.option.pair
    (xmlValue.option.pair (rawDependency.list.pair rawPluginExecution.list))))))).comap
    (fun plugin => (plugin.groupId, plugin.artifactId, plugin.version, plugin.inherited,
      plugin.extensions, plugin.configuration, plugin.dependencies, plugin.executions))
    (by rintro ⟨⟩ ⟨⟩ same; simpa using same)

def rawPluginManagement : Encoding RawPluginManagement :=
  rawPlugin.list.comap RawPluginManagement.plugins (by rintro ⟨⟩ ⟨⟩ same; simpa using same)

def rawBuild : Encoding RawBuild :=
  (string.option.pair (string.option.pair (string.option.pair (string.option.pair
    (string.option.pair (string.option.pair (string.option.pair (string.option.pair
    (string.list.pair (rawResource.list.pair (rawResource.list.pair
    (rawPlugin.list.pair rawPluginManagement.option)))))))))))).comap
    (fun build => (build.sourceDirectory, build.scriptSourceDirectory, build.testSourceDirectory,
      build.outputDirectory, build.testOutputDirectory, build.finalName, build.defaultGoal,
      build.directory, build.filters, build.resources, build.testResources, build.plugins,
      build.pluginManagement))
    (by rintro ⟨⟩ ⟨⟩ same; simpa using same)

def rawRepositoryPolicy : Encoding RawRepositoryPolicy :=
  (string.option.pair (string.option.pair string.option)).comap
    (fun policy => (policy.enabled, policy.updatePolicy, policy.checksumPolicy))
    (by rintro ⟨⟩ ⟨⟩ same; simpa using same)

def rawRepository : Encoding RawRepository :=
  (string.option.pair (string.option.pair (string.option.pair (string.option.pair
    (rawRepositoryPolicy.option.pair rawRepositoryPolicy.option))))).comap
    (fun repository => (repository.id, repository.name, repository.url, repository.layout,
      repository.releases, repository.snapshots))
    (by rintro ⟨⟩ ⟨⟩ same; simpa using same)

def rawActivationProperty : Encoding RawActivationProperty :=
  (string.option.pair string.option).comap (fun property => (property.name, property.value))
    (by rintro ⟨⟩ ⟨⟩ same; simpa using same)

def rawActivationFile : Encoding RawActivationFile :=
  (string.option.pair string.option).comap (fun file => (file.exists', file.missing))
    (by rintro ⟨⟩ ⟨⟩ same; simpa using same)

def rawActivation : Encoding RawActivation :=
  (string.option.pair (string.option.pair (xmlValue.option.pair
    (rawActivationProperty.option.pair rawActivationFile.option)))).comap
    (fun activation => (activation.activeByDefault, activation.jdk, activation.os,
      activation.property, activation.file))
    (by rintro ⟨⟩ ⟨⟩ same; simpa using same)

def rawProfile : Encoding RawProfile :=
  (string.option.pair (rawActivation.option.pair (properties.pair (rawDependency.list.pair
    (dependencyManagement.option.pair (string.list.pair (rawBuild.option.pair
    (rawRepository.list.pair rawRepository.list)))))))).comap
    (fun profile => (profile.id, profile.activation, profile.properties, profile.dependencies,
      profile.dependencyManagement, profile.modules, profile.build, profile.repositories,
      profile.pluginRepositories))
    (by rintro ⟨⟩ ⟨⟩ same; simpa using same)

def rawPom : Encoding RawPom :=
  (string.pair (rawParent.option.pair (string.option.pair (string.pair (string.option.pair
    (string.pair (string.option.pair (string.option.pair (string.option.pair
    (string.option.pair (properties.pair (dependencyManagement.option.pair
    (rawDependency.list.pair (string.list.pair (rawBuild.option.pair (rawProfile.list.pair
    (rawRepository.list.pair rawRepository.list))))))))))))))))).comap
    (fun pom => (pom.modelVersion, pom.parent, pom.groupId, pom.artifactId, pom.version,
      pom.packaging, pom.name, pom.description, pom.url, pom.inceptionYear, pom.properties,
      pom.dependencyManagement, pom.dependencies, pom.modules, pom.build, pom.profiles,
      pom.repositories, pom.pluginRepositories))
    (by rintro ⟨⟩ ⟨⟩ same; simpa using same)

instance : string.Gapless := inferInstanceAs (Encoding.ofCodec _).Gapless

instance : properties.Gapless := Encoding.Gapless.comap _ _

instance : rawParent.Gapless := Encoding.Gapless.comap _ _

instance : rawExclusion.Gapless := Encoding.Gapless.comap _ _

instance : rawDependency.Gapless := Encoding.Gapless.comap _ _

instance : dependencyManagement.Gapless := Encoding.Gapless.comap _ _

theorem dependencies_eq_of_encode_eq {left right : RawPom} {bytes : Bytes}
    (enc : rawPom.encode left = .ok bytes) (otherEncoded : rawPom.encode right = .ok bytes) :
    left.dependencies = right.dependencies := by
  -- the twelve fields in front of them
  iterate 12
    rcases Encoding.eq_of_encode_pair_eq enc otherEncoded with ⟨-, _, enc, otherEncoded⟩
  exact (Encoding.eq_of_encode_pair_eq enc otherEncoded).1

end Serialized

def RawPom.skips (pom : RawPom) : List Bool := Serialized.rawPom.skips pom

end Barista.Pom
