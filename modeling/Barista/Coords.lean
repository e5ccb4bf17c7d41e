import Mathlib.Tactic

/-!
# Maven coordinates

The resolution identity of an artifact, as a pair of group and artifact identifiers.
The order is the derived one: groups first, then artifacts, both by code points.
-/

namespace Barista

structure Coords where
  group : String
  artifact : String
  deriving DecidableEq

namespace Coords

inductive ParseError where
  | empty
  | tooFewComponents (count : ℕ)
  | tooManyComponents (count : ℕ)
  | emptyComponent (field : String)
  deriving DecidableEq

def new (group artifact : String) : Except ParseError Coords :=
  if group = "" then .error (.emptyComponent "group")
  else if artifact = "" then .error (.emptyComponent "artifact")
  else .ok ⟨group, artifact⟩

def display (coords : Coords) : String := coords.group ++ ":" ++ coords.artifact

def fromStr (text : String) : Except ParseError Coords :=
  if text = "" then .error .empty
  else
    match (text.toList.splitOn ':').map String.ofList with
    | [group, artifact] => new group artifact
    | parts =>
      if parts.length < 2 then .error (.tooFewComponents parts.length)
      else .error (.tooManyComponents parts.length)

instance : Ord Coords where
  compare := compareLex (compareOn group) (compareOn artifact)

instance : Std.TransOrd Coords :=
  inferInstanceAs (Std.TransCmp (compareLex (compareOn group) (compareOn artifact)))

instance : Std.LawfulEqOrd Coords where
  eq_of_compare {left right} equal := by
    rcases compareLex_eq_eq.mp equal with ⟨sameGroup, sameArtifact⟩
    have groupEq : left.group = right.group := Std.LawfulEqOrd.eq_of_compare sameGroup
    have artifactEq : left.artifact = right.artifact := Std.LawfulEqOrd.eq_of_compare sameArtifact
    cases left
    cases right
    simp_all

open List

variable {α : Type}

def components (text : String) : List String := (text.toList.splitOn ':').map String.ofList

def parseComponents (ofComponents : List String → Except ParseError α) (text : String) :
    Except ParseError α :=
  if text = "" then .error .empty else ofComponents (components text)

def checkNonempty (parts names : List String) (value : α) : Except ParseError α :=
  match (parts.zip names).find? (·.1 = "") with
  | some (_, field) => .error (.emptyComponent field)
  | none => .ok value

def miscounted (least : ℕ) (parts : List String) : Except ParseError α :=
  .error (if parts.length < least then .tooFewComponents parts.length
    else .tooManyComponents parts.length)

structure Gatc where
  group : String
  artifact : String
  packaging : String
  classifier : Option String
  deriving DecidableEq

def defaultPackaging : String := "jar"

namespace Gatc

def ofComponents (parts : List String) : Except ParseError Gatc :=
  match parts with
  | [group, artifact] =>
    checkNonempty parts ["group", "artifact"] ⟨group, artifact, defaultPackaging, none⟩
  | [group, artifact, packaging] =>
    checkNonempty parts ["group", "artifact", "packaging"] ⟨group, artifact, packaging, none⟩
  | [group, artifact, packaging, classifier] =>
    checkNonempty parts ["group", "artifact", "packaging", "classifier"]
      ⟨group, artifact, packaging, some classifier⟩
  | _ => miscounted 2 parts

def fromStr : String → Except ParseError Gatc := parseComponents ofComponents

def shown (gatc : Gatc) : List String :=
  match gatc.classifier with
  | none =>
    if gatc.packaging = defaultPackaging then [gatc.group, gatc.artifact]
    else [gatc.group, gatc.artifact, gatc.packaging]
  | some classifier => [gatc.group, gatc.artifact, gatc.packaging, classifier]

def display (gatc : Gatc) : String := ":".intercalate gatc.shown

end Gatc

structure Gatcv where
  gatc : Gatc
  version : String
  deriving DecidableEq

namespace Gatcv

def ofComponents (parts : List String) : Except ParseError Gatcv :=
  match parts with
  | [group, artifact, version] => checkNonempty parts ["group", "artifact", "version"]
      ⟨⟨group, artifact, defaultPackaging, none⟩, version⟩
  | [group, artifact, packaging, version] =>
    checkNonempty parts ["group", "artifact", "packaging", "version"]
      ⟨⟨group, artifact, packaging, none⟩, version⟩
  | [group, artifact, packaging, classifier, version] =>
    checkNonempty parts ["group", "artifact", "packaging", "classifier", "version"]
      ⟨⟨group, artifact, packaging, some classifier⟩, version⟩
  | _ => miscounted 3 parts

def fromStr : String → Except ParseError Gatcv := parseComponents ofComponents

def display (gatcv : Gatcv) : String := ":".intercalate (gatcv.gatc.shown ++ [gatcv.version])

end Gatcv

theorem checkNonempty_eq_ok {parts names : List String} {val out : α} :
    checkNonempty parts names val = .ok out ↔
      (∀ field ∈ parts.zip names, field.1 ≠ "") ∧ val = out := by
  rw [checkNonempty]
  split <;> grind [mem_of_find?_eq_some, find?_eq_none]

theorem notMem_of_mem_splitOn {sep : Char} {chars part : List Char}
    (mem : part ∈ chars.splitOn sep) : sep ∉ part := by
  induction chars generalizing part with
  | nil => simp_all
  | cons char chars ih =>
    rw [splitOn_cons_eq_if_modifyHead] at mem
    cases parts : chars.splitOn sep <;> grind [modifyHead_cons, splitOn_ne_nil]

theorem components_intercalate {parts : List String} {text : String}
    (among : parts ⊆ components text) (nonempty : parts ≠ []) :
    components (":".intercalate parts) = parts := by
  have apart : ∀ chars ∈ parts.map String.toList, ':' ∉ chars := by
    intro chars mem
    rcases mem_map.mp mem with ⟨part, listed, rfl⟩
    rcases mem_map.mp (among listed) with ⟨chars, split, rfl⟩
    rw [String.toList_ofList]
    exact notMem_of_mem_splitOn split
  have split := splitOn_intercalate ':' apart (by simpa using nonempty)
  rw [components, String.toList_intercalate]
  simp [split, Function.comp_def]

structure RoundTrips (fromStr : String → Except ParseError α) (display : α → String) : Prop where
  parses : ∀ {text value}, fromStr text = .ok value → fromStr (display value) = .ok value
  distinct : ∀ {left right first second}, fromStr left = .ok first → fromStr right = .ok second →
    display first = display second → first = second

theorem RoundTrips.of_shown {ofComponents : List String → Except ParseError α}
    {shown : α → List String} (kept : ∀ {parts val}, ofComponents parts = .ok val →
      shown val ⊆ parts ∧ 1 < (shown val).length ∧ ofComponents (shown val) = .ok val) :
    RoundTrips (parseComponents ofComponents) fun value => ":".intercalate (shown value) := by
  have parses {text : String} {val : α} (parsed : parseComponents ofComponents text = .ok val) :
      parseComponents ofComponents (":".intercalate (shown val)) = .ok val := by
    rw [parseComponents] at parsed
    split_ifs at parsed
    rcases kept parsed with ⟨among, several, again⟩
    have split := components_intercalate among (by rintro none; simp [none] at several)
    rw [parseComponents, split, if_neg, again]
    intro empty
    rw [← split, empty] at several
    simp [components] at several
  refine ⟨parses, ?_⟩
  intro left right first second leftParsed rightParsed same
  have again := parses leftParsed
  rw [same, parses rightParsed] at again
  exact (Except.ok.inj again).symm

def ofComponents : List String → Except ParseError Coords
  | [group, artifact] => new group artifact
  | parts => miscounted 2 parts

theorem fromStr_eq : fromStr = parseComponents ofComponents := by
  funext text
  rw [fromStr, parseComponents]
  congr 1
  simp only [components]
  rcases (text.toList.splitOn ':').map String.ofList with _ | ⟨_, _ | ⟨_, _ | _⟩⟩ <;> rfl

/-- Printing drops the default packaging, and the reader puts it back. -/
theorem coordinates_round_trip : RoundTrips fromStr display ∧
    RoundTrips Gatc.fromStr Gatc.display ∧ RoundTrips Gatcv.fromStr Gatcv.display := by
  refine ⟨fromStr_eq ▸ @RoundTrips.of_shown _ ofComponents
    (fun coords => [coords.group, coords.artifact]) ?_,
    .of_shown ?_, .of_shown ?_⟩
  · intro parts coords parsed
    unfold ofComponents at parsed
    split at parsed
    · have made := parsed
      rw [new] at made
      split_ifs at made
      cases made
      simpa [ofComponents] using parsed
    · cases parsed
  · intro parts gatc parsed
    unfold Gatc.ofComponents at parsed
    split at parsed
    iterate 3
      rcases checkNonempty_eq_ok.mp parsed with ⟨full, rfl⟩
      rw [Gatc.shown]
      split_ifs <;> simp_all [Gatc.ofComponents, checkNonempty_eq_ok]
    · cases parsed
  · intro parts gatcv parsed
    unfold Gatcv.ofComponents at parsed
    split at parsed
    iterate 3
      rcases checkNonempty_eq_ok.mp parsed with ⟨full, rfl⟩
      rw [Gatc.shown]
      split_ifs <;> simp_all [Gatcv.ofComponents, checkNonempty_eq_ok]
    · cases parsed

end Coords

end Barista
