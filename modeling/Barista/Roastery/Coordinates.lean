import Mathlib
import Barista.Cache.Source

/-!
# Coordinates on the wire

The client names an artifact by a colon-separated text that the roastery parses; both lay out its
path on their own.
-/

namespace Barista.Roastery.Upstream

open List Cache

structure Coords where
  group : String
  artifact : String
  type : String
  classifier : Option String
  version : String
  deriving DecidableEq

inductive UpstreamError where
  | invalidCoords (reason : String)
  deriving DecidableEq

def isAllowedSegmentChar (char : Char) : Bool :=
  char.isAlphanum || char == '.' || char == '_' || char == '-'

variable (debug : Char → String)

def validateSegment (name value : String) : Except UpstreamError Unit :=
  if value = "" then .error (.invalidCoords (name ++ " segment was empty"))
  else
    match value.toList.find? (!isAllowedSegmentChar ·) with
    | some char =>
      .error (.invalidCoords (name ++ " segment contains illegal character " ++ debug char))
    | none => .ok ()

def components : List String → Except UpstreamError Coords
  | [group, artifact, version] => .ok ⟨group, artifact, "jar", none, version⟩
  | [group, artifact, type, version] => .ok ⟨group, artifact, type, none, version⟩
  | [group, artifact, type, classifier, version] =>
    .ok ⟨group, artifact, type, some classifier, version⟩
  | parts => .error (.invalidCoords
      ("expected 3, 4, or 5 colon-separated components, got " ++ toString parts.length))

def parse (raw : String) : Except UpstreamError Coords :=
  if raw = "" then .error (.invalidCoords "header was empty")
  else if raw.toList.any Text.isWhitespace then
    .error (.invalidCoords "coords must not contain whitespace")
  else do
    let coords ← components ((raw.toList.splitOn ':').map String.ofList)
    validateSegment debug "group" coords.group
    validateSegment debug "artifact" coords.artifact
    validateSegment debug "type" coords.type
    if let some classifier := coords.classifier then
      validateSegment debug "classifier" classifier
    validateSegment debug "version" coords.version
    return coords

def toMavenPath (coords : Coords) : String :=
  let suffix := match coords.classifier with
    | some classifier =>
      coords.artifact ++ "-" ++ coords.version ++ "-" ++ classifier ++ "." ++ coords.type
    | none => coords.artifact ++ "-" ++ coords.version ++ "." ++ coords.type
  Fetcher.groupPath coords.group ++ "/" ++ coords.artifact ++ "/" ++ coords.version ++ "/" ++ suffix

def named (key : IndexKey) : Coords :=
  ⟨key.coords.group, key.coords.artifact, key.type, key.classifier, key.version⟩

def IsSegment (text : String) : Prop :=
  text ≠ "" ∧ ∀ char ∈ text.toList, char.isAlphanum ∨ char ∈ ['.', '_', '-']

variable {debug} {text : String}

structure Clean (debug : Char → String) (text : String) : Prop where
  solid : text.toList.any Text.isWhitespace = false
  whole : text.toList.splitOnP (· == ':') = [text.toList]
  valid : ∀ name, validateSegment debug name text = .ok ()

theorem IsSegment.clean (segment : IsSegment text) : Clean debug text := by
  have allowed : ∀ char ∈ text.toList, isAllowedSegmentChar char = true := by
    simpa [isAllowedSegmentChar, or_assoc] using segment.2
  refine ⟨?_, ?_, fun name => ?_⟩
  · rw [any_eq_false]
    intro char mem
    have allowed := allowed char mem
    simp [isAllowedSegmentChar, Char.isAlphanum, Char.isAlpha, Char.isUpper, Char.isLower,
      Char.isDigit, UInt32.le_iff_toNat_le, Char.ext_iff, UInt32.ext_iff] at allowed
    simp [Text.isWhitespace]
    omega
  · apply splitOnP_eq_singleton
    intro char mem
    rw [beq_eq_false_iff_ne]
    rintro rfl
    exact absurd (allowed _ mem) (by decide)
  · have none : text.toList.find? (!isAllowedSegmentChar ·) = none := by
      simpa using allowed
    simp [validateSegment, segment.1, none]

/-- The roastery reads back what the client names, and looks for it where the client does. -/
theorem client_and_server_agree (debug : Char → String) (fetcher : Fetcher) (key : IndexKey)
    (segments : ∀ text ∈ [key.coords.group, key.coords.artifact, key.type, key.version] ++
      key.classifier.toList, IsSegment text) :
    parse debug (formatCoordsHeader key) = .ok (named key) ∧
      fetcher.urlForArtifact key.coords.group key.coords.artifact key.version key.classifier
        key.type = fetcher.base ++ "/" ++ toMavenPath (named key) := by
  rcases key with ⟨⟨group, artifact⟩, version, type, classifier⟩
  have clean : ∀ text ∈ [group, artifact, type, version] ++ classifier.toList, Clean debug text :=
    fun text mem => (segments text mem).clean
  simp only [forall_mem_append, forall_mem_cons] at clean
  rcases clean with ⟨⟨hgroup, hartifact, htype, hversion, -⟩, hclassifier⟩
  refine ⟨?_, ?_⟩
  · have split := @splitOnP_append_cons Char (· == ':')
    rcases hgroup with ⟨⟩
    rcases hartifact with ⟨⟩
    rcases htype with ⟨⟩
    rcases hversion with ⟨⟩
    cases classifier with
    | none =>
      rcases eq_or_ne type "jar" with rfl | other <;>
        simp [*, parse, formatCoordsHeader, Coords.display, splitOn, components, named,
          Text.isWhitespace, String.append_assoc, bind, Except.bind, pure, Except.pure]
    | some classifier =>
      rcases hclassifier classifier (by simp) with ⟨⟩
      simp [*, parse, formatCoordsHeader, Coords.display, splitOn, components, named,
        Text.isWhitespace, String.append_assoc, bind, Except.bind, pure, Except.pure]
  · cases classifier <;> simp [Fetcher.urlForArtifact, toMavenPath, named, String.append_assoc]

theorem client_and_server_agree_sources :
    let key : IndexKey := ⟨⟨"org.example", "core"⟩, "1.0", "jar", some "sources"⟩
    parse toString (formatCoordsHeader key) = .ok (named key) := by
  intro key
  refine (client_and_server_agree toString ⟨"", 60⟩ key ?_).1
  simp [IsSegment, key, Char.isAlphanum, Char.isAlpha, Char.isUpper, Char.isLower, Char.isDigit]

end Barista.Roastery.Upstream
