import Barista.Pom.Reports
import Barista.Resolver.SessionTransparency

/-!
# The POM pipeline of the walker

The walker reads a part of each dependency, and it calls the pipeline of `barista-pom` with a
resolver that knows some POMs.
-/

namespace Barista.Resolver

def RawExclusion.ofPom (exclusion : Pom.RawExclusion) : RawExclusion :=
  ⟨exclusion.groupId, exclusion.artifactId⟩

def RawDependency.ofPom (dep : Pom.RawDependency) : RawDependency where
  groupId := dep.groupId
  artifactId := dep.artifactId
  version := dep.version
  scope := dep.scope
  classifier := dep.classifier
  type := dep.type
  optional := dep.optional
  exclusions := dep.exclusions.map RawExclusion.ofPom

def RawParent.ofPom (parent : Pom.RawParent) : RawParent :=
  ⟨parent.groupId, parent.artifactId, parent.version⟩

def ResolveError.ofPom (display : Pom.ResolveError → String) : Pom.ResolveError → ResolveError
  | .effective (.parentResolution coords _) => .parentResolution coords
  | .bomImportResolution coords _ => .bomImportResolution coords
  | error => .other (display error)

def pomPipeline (env : String → Option String) (pathExists : String → String → Bool)
    (display : Pom.ResolveError → String) :
    PomPipeline Pom.RawPom Pom.ResolvedPom Pom.ActivationContext where
  parent := fun pom => pom.parent.map RawParent.ofPom
  dependencies := fun resolved => resolved.pom.dependencies.map RawDependency.ofPom
  resolvePom := fun raw resolver context =>
    ((Pom.resolvePom env pathExists raw context).eval fun parent =>
      resolver (RawParent.ofPom parent)).mapError (ResolveError.ofPom display)

def plainPomPipeline : PomPipeline Pom.RawPom Pom.ResolvedPom Pom.ActivationContext :=
  pomPipeline (fun _ => none) (fun _ _ => false) (fun _ => "")

def leafSource : MetadataSource Pom.RawPom where
  fetchPom := fun coords version =>
    .ok ({ groupId := some coords.group, artifactId := coords.artifact, version := some version },
      .fixture)
  fetchMetadata := fun coords => .error (.metadataNotFound coords.display)
  fetchSnapshotInfo := fun coords _ => .error (.metadataNotFound coords.display)

/-!
# Prefetched parents and imports

A POM is resolved with the help of a table that holds its ancestors.  When the pipeline asks
for an artifact outside the table, this one is fetched with its own ancestors, and the
pipeline runs again.  The outcome is that of the pipeline with everything at hand, if the
rounds suffice.
-/

open Function Option Dialogue
open Pom (RawPom ResolvedPom)
open RawParent (ofPom)

section Pure

variable {RawPom ResolvedPom Activation : Type}

def RawParent.display (parent : RawParent) : String :=
  parent.groupId ++ ":" ++ parent.artifactId ++ ":" ++ parent.version

def fetched (source : MetadataSource RawPom)
    (session : Option (OreqSession RawPom ResolvedPom)) : Chain RawPom := fun parent =>
  match Coords.new parent.groupId parent.artifactId with
  | .error _ => none
  | .ok coords => (rawAnswer source session ⟨coords, parent.version⟩).toOption

section Table

variable (parentOf : RawPom → Option RawParent) (answers : Chain RawPom)

def prefetchTable : ℕ → Chain RawPom → Option RawParent → Option (Chain RawPom)
  | 0, chain, _ => some chain
  | _ + 1, chain, none => some chain
  | remaining + 1, chain, some parent =>
    if (chain parent).isSome then some chain
    else (answers parent).bind fun pom =>
      prefetchTable remaining (update chain parent (some pom)) (parentOf pom)

def ancestors (pom : RawPom) : Option (Chain RawPom) :=
  prefetchTable parentOf answers Pom.maxChainDepth (fun _ => none) (parentOf pom)

def growChain (chain : Chain RawPom) (missing : RawParent) (pom : RawPom) : Chain RawPom :=
  fun parent => ((ancestors parentOf answers pom).bind fun extra => extra parent).or
    (update chain missing (some pom) parent)

def fetchTable (chain : Chain RawPom) (missing : String) : Option (Chain RawPom) :=
  (parseGav missing).bind fun gav => (answers gav).bind fun pom =>
    (ancestors parentOf answers pom).map fun extra parent =>
      (extra parent).or (update chain gav (some pom) parent)

variable {parentOf answers}

theorem consistent_prefetchTable {remaining : ℕ} {chain table : Chain RawPom}
    {cur : Option RawParent} (consistent : Dialogue.Consistent answers chain)
    (filled : prefetchTable parentOf answers remaining chain cur = some table) :
    Dialogue.Consistent answers table := by
  induction remaining generalizing chain cur with
  | zero =>
    cases filled
    exact consistent
  | succ remaining ih =>
    rcases cur with _ | parent
    · cases filled
      exact consistent
    · rw [prefetchTable] at filled
      split_ifs at filled
      · cases filled
        exact consistent
      · rcases bind_eq_some_iff.mp filled with ⟨pom, answered, filled⟩
        refine ih ?_ filled
        intro other found known
        by_cases same : other = parent
        · subst same
          rw [update_self] at known
          rw [answered, known]
        · rw [update_of_ne same] at known
          exact consistent other found known

theorem consistent_ancestors {pom : RawPom} {extra : Chain RawPom}
    (found : ancestors parentOf answers pom = some extra) : Dialogue.Consistent answers extra :=
  consistent_prefetchTable (fun _ _ known => by cases known) found

theorem grows_growChain : Dialogue.Grows answers (fun pom => ancestors parentOf answers pom = none)
      (growChain parentOf answers) := by
  have lookup : ∀ {chain : Chain RawPom} {missing : RawParent} {pom : RawPom} {other : RawParent}
      {kept : RawPom}, answers other = some kept →
      update chain missing (some pom) other = some kept →
      growChain parentOf answers chain missing pom other = some kept := by
    intro chain missing pom other kept answered known
    unfold growChain
    rw [known]
    rcases extra : (ancestors parentOf answers pom).bind fun extra => extra other with _ | fromExtra
    · rfl
    · rcases bind_eq_some_iff.mp extra with ⟨table, found, known'⟩
      have agrees := consistent_ancestors found other fromExtra known'
      rw [answered] at agrees
      rw [some_or, agrees]
  refine ⟨?_, ?_, ?_⟩
  · intro chain missing pom consistent answered _ other found known
    unfold growChain at known
    rcases or_eq_some_iff.mp known with extra | ⟨-, updated⟩
    · rcases bind_eq_some_iff.mp extra with ⟨table, hasTable, known'⟩
      exact consistent_ancestors hasTable other found known'
    · by_cases same : other = missing
      · subst same
        rw [update_self] at updated
        rw [answered, updated]
      · rw [update_of_ne same] at updated
        exact consistent other found updated
  · intro chain missing pom _ answered _
    exact lookup answered (update_self _ _ _)
  · intro chain missing pom other kept consistent answered _ known
    have answered' := consistent other kept known
    refine lookup answered' ?_
    by_cases same : other = missing
    · subst same
      rw [update_self, ← answered, answered']
    · rw [update_of_ne same, known]

theorem fetchTable_eq_some {chain next : Chain RawPom} {text : String} {missing : RawParent}
    (readable : parseGav text = some missing) :
    fetchTable parentOf answers chain text = some next ↔
      ∃ pom, answers missing = some pom ∧ ¬ ancestors parentOf answers pom = none ∧
        next = growChain parentOf answers chain missing pom := by
  unfold fetchTable growChain
  rw [readable, bind_some, bind_eq_some_iff]
  constructor
  · rintro ⟨pom, answered, found⟩
    rcases map_eq_some_iff.mp found with ⟨extra, hasExtra, rfl⟩
    exact ⟨pom, answered, by simp [hasExtra], by simp [hasExtra]⟩
  · rintro ⟨pom, answered, usable, rfl⟩
    rcases ne_none_iff_exists'.mp usable with ⟨extra, hasExtra⟩
    exact ⟨pom, answered, by simp [hasExtra]⟩

end Table

theorem split_at_colon {pre : List Char} (rest : List Char) (absent : ':' ∉ pre) :
    (pre ++ ':' :: rest).takeWhile (· != ':') = pre ∧
      (pre ++ ':' :: rest).dropWhile (· != ':') = ':' :: rest := by
  induction pre with
  | nil => simp
  | cons char pre ih =>
    rcases not_or.mp (List.mem_cons.not.mp absent) with ⟨other, absent⟩
    have differs : (char != ':') = true := by simpa using Ne.symm other
    rcases ih absent with ⟨taken, dropped⟩
    simp [differs, taken, dropped]

theorem parseGav_display {parent : RawParent} (group : ':' ∉ parent.groupId.toList)
    (artifact : ':' ∉ parent.artifactId.toList) :
    parseGav parent.display =
      if parent.groupId = "" ∨ parent.artifactId = "" ∨ parent.version = "" then none
      else some parent := by
  rcases parent with ⟨groupId, artifactId, ver⟩
  have chars : (RawParent.display ⟨groupId, artifactId, ver⟩).toList =
      groupId.toList ++ ':' :: (artifactId.toList ++ ':' :: ver.toList) := by
    simp [RawParent.display, String.toList_append]
  rcases split_at_colon (artifactId.toList ++ ':' :: ver.toList) group with
    ⟨takesGroup, dropsGroup⟩
  rcases split_at_colon ver.toList artifact with ⟨takesArtifact, dropsArtifact⟩
  unfold parseGav
  simp only [chars, takesGroup, dropsGroup, takesArtifact, dropsArtifact, String.toList_eq_nil_iff,
    String.ofList_toList]

structure Readable (parent : RawParent) : Prop where
  group : ':' ∉ parent.groupId.toList
  artifact : ':' ∉ parent.artifactId.toList
  version : parent.version ≠ ""

instance (parent : RawParent) : Decidable (Readable parent) :=
  decidable_of_iff (':' ∉ parent.groupId.toList ∧ ':' ∉ parent.artifactId.toList ∧
      parent.version ≠ "")
    ⟨fun parts => ⟨parts.1, parts.2.1, parts.2.2⟩, fun readable =>
      ⟨readable.group, readable.artifact, readable.version⟩⟩

variable {source : MetadataSource RawPom}
  {pipe : PomPipeline RawPom ResolvedPom Activation} {act : Activation}
  {start session : Option (OreqSession RawPom ResolvedPom)}

theorem toOption_mapError {ε δ α : Type} (wrap : ε → δ) (out : Except ε α) :
    (out.mapError wrap).toOption = out.toOption := by
  cases out <;> rfl

theorem returns_fetchParent (same : SameRaw source start session) (parent : RawParent) :
    Returns (SameRaw source) session (fetched source start parent)
      ((fetchParent source parent.groupId parent.artifactId parent.version).run session) := by
  unfold fetched fetchParent
  rcases Coords.new parent.groupId parent.artifactId with _ | coords
  · exact Returns.error _
  · dsimp only
    rw [same ⟨coords, parent.version⟩, ← toOption_mapError fun err =>
      WalkError.parentChainResolution coords.display parent.version (.source err)]
    exact Returns.of_answered (answered_fetchPomViaSession _ coords parent.version)

theorem returns_prefetchFrom (same : SameRaw source start session) (remaining : ℕ)
    (chain : Chain RawPom) (cur : Option RawParent) :
    Returns (SameRaw source) session
      (prefetchTable pipe.parent (fetched source start) remaining chain cur)
      ((prefetchFrom pipe source remaining chain cur).run session) := by
  induction remaining generalizing session chain cur with
  | zero => exact Returns.ok chain (equivalence_sameRaw.refl session)
  | succ remaining ih =>
    rcases cur with _ | parent
    · exact Returns.ok chain (equivalence_sameRaw.refl session)
    · rw [prefetchFrom, prefetchTable]
      split_ifs
      · exact Returns.ok chain (equivalence_sameRaw.refl session)
      · refine Returns.bind equivalence_sameRaw (returns_fetchParent same parent) ?_
        intro pom sess' same'
        exact ih (equivalence_sameRaw.trans same same') _ _

theorem returns_prefetchParentChain (pipe : PomPipeline RawPom ResolvedPom Activation)
    (same : SameRaw source start session) (pom : RawPom) :
    Returns (SameRaw source) session (ancestors pipe.parent (fetched source start) pom)
      ((prefetchParentChain pipe source pom).run session) :=
  returns_prefetchFrom same _ _ _

theorem returns_fetchMissing (same : SameRaw source start session) (coords : Coords)
    (ver : String) (chain : Chain RawPom) (missing : String) :
    Returns (SameRaw source) session (fetchTable pipe.parent (fetched source start) chain missing)
      ((fetchMissing pipe source coords ver chain missing).run session) := by
  unfold fetchMissing fetchTable
  rcases parseGav missing with _ | gav
  · exact Returns.error _
  · refine Returns.bind equivalence_sameRaw (returns_fetchParent same gav) ?_
    intro pom sess' same'
    rw [map_eq_bind]
    refine Returns.bind equivalence_sameRaw
      (returns_prefetchParentChain pipe (equivalence_sameRaw.trans same same') pom) ?_
    intro extra session'' _
    exact Returns.ok _ (equivalence_sameRaw.refl session'')

end Pure

section Pom

variable {env : String → Option String} {pathExists : String → String → Bool}
  {display : Pom.ResolveError → String} {source : MetadataSource RawPom}
  {start session : Option (OreqSession RawPom ResolvedPom)}
  {context : Pom.ActivationContext}

def notPrefetched (parent : RawParent) : String :=
  "parent " ++ parent.groupId ++ ":" ++ parent.artifactId ++ ":" ++ parent.version ++
    " not in prefetched chain"

section Rounds

variable (env pathExists context) (raw : RawPom)

abbrev resolvedFrom (table : Chain RawPom) : Except Pom.ResolveError ResolvedPom :=
  (Pom.resolvePom env pathExists raw context).eval (tableReply ofPom notPrefetched table)

abbrev retried (source : MetadataSource RawPom)
    (session : Option (OreqSession RawPom ResolvedPom)) :
    ℕ → Chain RawPom → Option ResolvedPom :=
  retry ofPom notPrefetched Pom.ResolveError.missing
    (fetchTable (fun pom => pom.parent.map ofPom) (fetched source session))
    (Pom.resolvePom env pathExists raw context)

end Rounds

theorem tableReply_eq (chain : Chain RawPom) : tableReply ofPom notPrefetched chain = fun parent =>
      mapParentResolver chain (ofPom parent) := by
  funext parent
  unfold tableReply mapParentResolver
  cases chain (ofPom parent) <;> rfl

variable (raw : RawPom)

theorem resolvePom_pomPipeline (chain : Chain RawPom) :
    (pomPipeline env pathExists display).resolvePom raw (mapParentResolver chain) context =
      (resolvedFrom env pathExists context raw chain).mapError (ResolveError.ofPom display) := by
  rw [resolvedFrom, tableReply_eq]
  rfl

theorem returns_resolveRounds (same : SameRaw source start session) (coords : Coords)
    (ver : String) (raw : RawPom) (rounds : ℕ) (chain : Chain RawPom) :
    Returns (SameRaw source) session (retried env pathExists context raw source start rounds chain)
      ((resolveRounds (pomPipeline env pathExists display) source context coords ver raw
        rounds chain).run session) := by
  induction rounds generalizing session chain with
  | zero => exact Returns.error _
  | succ rounds ih =>
    have again : ∀ missing, Returns (SameRaw source) session
        ((fetchTable (pomPipeline env pathExists display).parent (fetched source start) chain
          missing).bind (retried env pathExists context raw source start rounds))
        ((do
          let chain ← fetchMissing (pomPipeline env pathExists display) source coords ver chain
            missing
          resolveRounds (pomPipeline env pathExists display) source context coords ver raw
            rounds chain).run session) := by
      intro missing
      refine Returns.bind equivalence_sameRaw (returns_fetchMissing same coords ver chain
        missing) ?_
      intro chain' sess' same'
      exact ih (equivalence_sameRaw.trans same same') chain'
    rw [resolveRounds, resolvePom_pomPipeline, retried, retry, resolvedFrom]
    cases (Pom.resolvePom env pathExists raw context).eval
        (tableReply ofPom notPrefetched chain) with
    | ok res => exact Returns.ok res (equivalence_sameRaw.refl session)
    | error failure =>
      cases failure with
      | effective err =>
        cases err with
        | parentResolution missing reason => exact again missing
        | chainTooDeep max | circularParent coords | unresolvedPlaceholder placeholder loc =>
          exact Returns.error _
      | bomImportResolution missing reason => exact again missing
      | bomImportCycle coords | bomImportTooDeep max | unresolvedDepMgtVersion coords
      | unresolvedDependencyVersion coords | invalidActivation detail => exact Returns.error _

theorem collectFrom_ne_ok {answers : Chain RawPom} {depth : ℕ} {chain : Chain RawPom}
    {cur : Option Pom.RawParent}
    (orphan : prefetchTable (fun pom => pom.parent.map ofPom) answers depth chain
      (cur.map ofPom) = none)
    (remaining : ℕ) (seen : List Pom.Gav) (collected : List RawPom) :
    (Pom.collectFrom remaining seen cur).eval
      (tableReply ofPom notPrefetched answers) ≠ .ok collected := by
  induction depth generalizing chain cur remaining seen collected with
  | zero => cases orphan
  | succ depth ih =>
    rcases cur with _ | parent
    · cases orphan
    · rw [map_some, prefetchTable] at orphan
      split_ifs at orphan
      cases remaining with
      | zero =>
        intro succeeded
        cases succeeded
      | succ remaining =>
        rw [Pom.collectFrom]
        split_ifs
        · intro succeeded
          cases succeeded
        · intro succeeded
          rw [eval_bind, eval_request, tableReply] at succeeded
          rcases answered : answers (ofPom parent) with _ | pom
          · rw [answered] at succeeded
            cases succeeded
          · rw [answered] at succeeded orphan
            have collects : (Pom.collectFrom remaining (parent.gav :: seen) pom.parent >>=
                fun rest => pure (pom :: rest)).eval (tableReply ofPom notPrefetched answers) =
                .ok collected := succeeded
            rw [eval_bind] at collects
            rcases bind_eq_ok.mp collects with ⟨rest, further, -⟩
            exact ih orphan remaining _ rest further

section Missed

variable (env pathExists source session context)

def prefetchedAncestors (pom : RawPom) : Option (Chain RawPom) :=
  ancestors (fun pom => pom.parent.map ofPom) (fetched source session) pom

def missedPoms : List RawParent :=
  missed ofPom (fetched source session)
    (growChain (fun pom => pom.parent.map ofPom) (fetched source session))
    ((prefetchedAncestors source session raw).getD fun _ => none)
    (Pom.resolvePom env pathExists raw context)

end Missed

theorem reports_resolvePom (answers : Chain RawPom) (raw : RawPom) :
    Dialogue.Reports ofPom notPrefetched answers
      (fun pom => ancestors (fun pom => pom.parent.map ofPom) answers pom = none)
      Pom.ResolveError.missing RawParent.display (Pom.resolvePom env pathExists raw context) := by
  have named : ∀ parent, RawParent.display (ofPom parent) = parent.gav.display :=
    fun _ => rfl
  refine Pom.reports_resolvePom named ?_ raw context
  intro pom orphan remaining seen collected
  exact collectFrom_ne_ok orphan remaining seen collected

theorem eval_resolvePom_ne_ok {answers : Chain RawPom} {raw : RawPom}
    (orphan : ancestors (fun pom => pom.parent.map ofPom) answers raw = none)
    (res : ResolvedPom) : resolvedFrom env pathExists context raw answers ≠ .ok res := by
  intro succeeded
  rw [resolvedFrom, Pom.resolvePom, eval_bind] at succeeded
  rcases bind_eq_ok.mp succeeded with ⟨prep, prepares, -⟩
  rw [Pom.preparePom, eval_bind] at prepares
  rcases bind_eq_ok.mp prepares with ⟨eff, builds, -⟩
  rw [eval_mapError_eq_ok, Pom.buildEffective, eval_bind] at builds
  rcases bind_eq_ok.mp builds with ⟨chain, collected, -⟩
  exact collectFrom_ne_ok orphan _ _ chain collected

theorem pomPipeline_eq_ok {chain : Chain RawPom} {raw : RawPom} {res : ResolvedPom} :
    (pomPipeline env pathExists display).resolvePom raw (mapParentResolver chain) context =
        .ok res ↔
      resolvedFrom env pathExists context raw chain = .ok res := by
  rw [resolvePom_pomPipeline]
  cases resolvedFrom env pathExists context raw chain <;> simp [Except.mapError]

theorem fetchTable_readable {chain next : Chain RawPom} {missing : RawParent}
    {parentOf : RawPom → Option RawParent} (readable : Readable missing) :
    fetchTable parentOf (fetched source session) chain missing.display = some next ↔
      ∃ pom, fetched source session missing = some pom ∧
        ¬ ancestors parentOf (fetched source session) pom = none ∧
        next = growChain parentOf (fetched source session) chain missing pom := by
  have parsed := parseGav_display readable.group readable.artifact
  by_cases incomplete : missing.groupId = "" ∨ missing.artifactId = ""
  · have nothing : fetched source session missing = none := by
      unfold fetched Coords.new
      rcases incomplete with empty | empty
      · simp [empty]
      · by_cases group : missing.groupId = "" <;> simp [group, empty]
    have unparsed : parseGav missing.display = none := by
      rw [parsed, if_pos (incomplete.imp_right .inl)]
    simp [fetchTable, unparsed, nothing]
  · rcases not_or.mp incomplete with ⟨group, artifact⟩
    refine fetchTable_eq_some ?_
    rw [parsed, if_neg (by simp [group, artifact, readable.version])]

theorem returns_resolveChildPom (coords : Coords) (ver : String) :
    Returns (SameRaw source) session ((prefetchedAncestors source session raw).bind
        (retried env pathExists context raw source session maxParentPrefetchRounds))
      ((resolveChildPom (pomPipeline env pathExists display) source context coords ver
        raw).run session) := by
  have prefetches : Returns (SameRaw source) session (prefetchedAncestors source session raw)
      ((prefetchParentChain (pomPipeline env pathExists display) source raw).run session) :=
    returns_prefetchParentChain (pomPipeline env pathExists display)
      (equivalence_sameRaw.refl session) raw
  refine Returns.bind equivalence_sameRaw prefetches ?_
  intro chain sess' same
  exact returns_resolveRounds same coords ver raw _ chain

theorem rounds_iff
    (readable : ∀ missed ∈ missedPoms env pathExists source session context raw, Readable missed)
    (res : ResolvedPom) : (prefetchedAncestors source session raw).bind
        (retried env pathExists context raw source session maxParentPrefetchRounds) = some res ↔
      resolvedFrom env pathExists context raw (fetched source session) = .ok res ∧
        (missedPoms env pathExists source session context raw).length <
          maxParentPrefetchRounds := by
  unfold missedPoms at readable ⊢
  rcases found : prefetchedAncestors source session raw with _ | chain
  · have stuck : resolvedFrom env pathExists context raw (fetched source session) ≠ .ok res :=
      eval_resolvePom_ne_ok found res
    simp [stuck]
  · rw [found, getD_some] at readable
    rw [bind_some, getD_some]
    exact retry_eq_some grows_growChain (reports_resolvePom _ raw)
      (fun chain missing _ readable next => fetchTable_readable readable)
      (consistent_ancestors found) readable res

end Pom

/-- Prefetching is equivalent to resolving with everything at hand, as long as fewer than 64
POMs are missed on the way and the pipeline names these readably. -/
theorem prefetch_equivalent (env : String → Option String) (pathExists : String → String → Bool)
    (display : Pom.ResolveError → String) (source : MetadataSource RawPom)
    (session : Option (OreqSession RawPom ResolvedPom)) (context : Pom.ActivationContext)
    (raw : RawPom) (coords : Coords) (version : String)
    (readable : ∀ missed ∈ missedPoms env pathExists source session context raw, Readable missed)
    (resolved : ResolvedPom) :
    (∃ session', (resolveChildPom (pomPipeline env pathExists display) source context coords version
        raw).run session = .ok (resolved, session')) ↔
      (pomPipeline env pathExists display).resolvePom raw
          (mapParentResolver (fetched source session)) context = .ok resolved ∧
        (missedPoms env pathExists source session context raw).length <
          maxParentPrefetchRounds := by
  rw [(returns_resolveChildPom raw coords version).exists_ok_iff, pomPipeline_eq_ok]
  exact rounds_iff raw readable resolved

def importingMany (count : ℕ) : RawPom :=
  { artifactId := "app"
    dependencyManagement := some
      { dependencies := (List.range count).map fun number =>
          { groupId := "org", artifactId := "bom", version := some (toString number)
            scope := some "import", type := some "pom" } } }

theorem missedPoms_importingMany :
    missedPoms (fun _ => none) (fun _ _ => false) leafSource none {} (importingMany 64) =
      (List.range 64).map fun num => ⟨"org", "bom", toString num⟩ := by
  decide +kernel

/-- With 64 imports everything can be had, and still the rounds do not suffice. -/
theorem prefetch_gives_up : (plainPomPipeline.resolvePom (importingMany 64)
      (mapParentResolver (fetched leafSource (none : Option (OreqSession _ ResolvedPom))))
      {}).isOk = true ∧
    ∀ resolved session', (resolveChildPom plainPomPipeline leafSource {} ⟨"org", "app"⟩ "1"
      (importingMany 64)).run none ≠ .ok (resolved, session') := by
  constructor
  · decide +kernel
  · intro resolved session' ran
    have readable : ∀ missed ∈ missedPoms (fun _ => none) (fun _ _ => false) leafSource none {}
        (importingMany 64), Readable missed := by
      rw [missedPoms_importingMany]
      decide
    have expected := (returns_resolveChildPom _ _ _).exists_ok_iff.mp ⟨session', ran⟩
    have rounds := ((rounds_iff _ readable resolved).mp expected).2
    rw [missedPoms_importingMany, List.length_map, List.length_range] at rounds
    exact absurd rounds (by decide)

theorem prefetch_equivalent_two :
    (missedPoms (fun _ => none) (fun _ _ => false) leafSource none {} (importingMany 2)).length =
      2 ∧
    ∃ resolved session', (resolveChildPom plainPomPipeline leafSource {} ⟨"org", "app"⟩ "1"
      (importingMany 2)).run none = .ok (resolved, session') := by
  have direct : (plainPomPipeline.resolvePom (importingMany 2)
      (mapParentResolver (fetched leafSource (none : Option (OreqSession _ ResolvedPom))))
      {}).isOk = true := by
    decide
  cases ran : plainPomPipeline.resolvePom (importingMany 2)
      (mapParentResolver (fetched leafSource (none : Option (OreqSession _ ResolvedPom)))) {} with
  | error error =>
    rw [ran] at direct
    cases direct
  | ok resolved =>
    refine ⟨by decide, resolved, ?_⟩
    exact (prefetch_equivalent _ _ _ _ _ _ _ _ _ (by decide) resolved).mpr ⟨ran, by decide⟩

end Barista.Resolver
