import Barista.Pom.Management
import Barista.Retry

/-!
# The artifact that a failed resolution names

A POM that the resolver does not have ends the resolution at once, and the error names its
coordinates.  All other errors come from the POMs themselves.
-/

namespace Barista.Pom

open ResolveError
open Dialogue (Reports)

def EffectiveError.missing : EffectiveError → Option String
  | parentResolution coords _ => some coords
  | _ => none

def ResolveError.missing : ResolveError → Option String
  | effective error => error.missing
  | bomImportResolution coords _ => some coords
  | _ => none

section Unnamed

variable {env lookup : String → Option String} {pathExists : String → String → Bool}
  {ctx : ActivationContext}

variable {loc : InterpolationLocation} {err : EffectiveError}

theorem unresolved_of_substitute {piece : Piece}
    (failed : (substitute lookup loc piece).value = .error err) :
    ∃ placeholder, err = .unresolvedPlaceholder placeholder loc := by
  cases piece with
  | char char => cases failed
  | placeholder key =>
    rw [substitute] at failed
    rcases found : lookup (String.ofList key) with _ | _
    · simp only [found] at failed
      split_ifs at failed
      · cases failed
        exact ⟨_, rfl⟩
      · cases failed
    · rw [found] at failed
      cases failed

theorem unresolved_of_interpRounds {rounds : ℕ} {text : List Char}
    (failed : (interpRounds lookup loc rounds text).value = .error err) :
    ∃ placeholder, err = .unresolvedPlaceholder placeholder loc := by
  induction rounds generalizing text with
  | zero =>
    cases failed
    exact ⟨_, rfl⟩
  | succ rounds ih =>
    rw [interpRounds, Interp.value_bind] at failed
    rcases bind_eq_error.mp failed with passed | ⟨⟨next, fired⟩, -, failed⟩
    · rw [pass, Interp.value_bind, Interp.value_mapM'] at passed
      rcases bind_eq_error.mp passed with parts | ⟨parts, -, passed⟩
      · rcases mapM'_eq_error parts with ⟨piece, -, failed⟩
        exact unresolved_of_substitute failed
      · cases passed
    · dsimp only at failed
      split_ifs at failed
      · cases failed
      · cases failed
      · cases failed
        exact ⟨_, rfl⟩
      · exact ih failed

theorem unresolved_of_settleText {text : String}
    (failed : settleText lookup loc text = .error err) :
    ∃ placeholder, err = .unresolvedPlaceholder placeholder loc := by
  rw [settleText, interp] at failed
  split_ifs at failed
  · cases failed
  · rw [Interp.value_bind] at failed
    rcases bind_eq_error.mp failed with ran | ⟨chars, -, failed⟩
    · exact unresolved_of_interpRounds ran
    · cases failed

def settlePlaceholder (lookup : String → Option String) (location : InterpolationLocation)
    (text : String) : Except (String × InterpolationLocation) String :=
  (settleText lookup location text).mapError fun error =>
    match error with
    | .unresolvedPlaceholder placeholder location => (placeholder, location)
    | _ => ("", location)

theorem mapError_settlePlaceholder (loc : InterpolationLocation) (text : String) :
    (settlePlaceholder lookup loc text).mapError
        (fun unknown => EffectiveError.unresolvedPlaceholder unknown.1 unknown.2) =
      settleText lookup loc text := by
  unfold settlePlaceholder
  rcases ran : settleText lookup loc text with _ | _
  · rcases unresolved_of_settleText ran with ⟨placeholder, rfl⟩
    rfl
  · rfl

theorem missing_of_finishEffective {chain : List RawPom} {merged : RawPom}
    (failed : finishEffective env chain merged = .error err) : err.missing = none := by
  have val := apply_interpolatePom (interp (lookupIn env merged)) Interp.valueMorphism merged
  have renamed := apply_interpolatePom (settlePlaceholder (lookupIn env merged))
    (MonadMorphism.mapError fun unknown => EffectiveError.unresolvedPlaceholder unknown.1 unknown.2)
    merged
  simp only [MonadMorphism.mapError, mapError_settlePlaceholder] at renamed
  have same : (interpolatePom (interp (lookupIn env merged)) merged).value =
      interpolatePom (settleText (lookupIn env merged)) merged := val
  rw [← renamed] at same
  unfold finishEffective at failed
  rcases ran : interpolatePom (interp (lookupIn env merged)) merged with error' | ⟨settled, log⟩
  · rw [ran] at failed same
    cases failed
    rcases inner : interpolatePom (settlePlaceholder (lookupIn env merged)) merged with _ | _
    · rw [inner] at same
      cases same
      rfl
    · rw [inner] at same
      cases same
  · rw [ran] at failed
    cases failed

variable {err : ResolveError} {pom : RawPom}

theorem missing_of_jdkMatches {spec actual : String}
    (failed : jdkMatches spec actual = .error err) :
    err.missing = none := by
  unfold jdkMatches at failed
  dsimp only at failed
  split at failed
  · cases failed
  · split at failed
    · cases failed
    · split at failed
      · unfold jdkRangeMatches at failed
        dsimp only at failed
        split_ifs at failed <;> cases failed <;> rfl
      · cases failed

theorem missing_of_profileOutcome {prof : RawProfile}
    (failed : profileOutcome pathExists ctx prof = .error err) : err.missing = none := by
  unfold profileOutcome at failed
  dsimp only at failed
  split_ifs at failed
  unfold evaluateActivation at failed
  rcases given : prof.activation with _ | _
  · rw [given] at failed
    cases failed
  · simp only [given] at failed
    split_ifs at failed
    rcases bind_eq_error.mp failed with agreed | ⟨agreed, -, failed⟩
    · unfold evaluateActivators at agreed
      dsimp only at agreed
      split at agreed
      · cases agreed
      · cases agreed
      · rcases bind_eq_error.mp agreed with jdk | ⟨jdk, -, agreed⟩
        · exact missing_of_jdkMatches jdk
        · cases agreed
    · cases failed

theorem missing_of_applyProfiles (failed : applyProfiles pathExists pom ctx = .error err) :
    err.missing = none := by
  rcases bind_eq_error.mp failed with statuses | ⟨statuses, -, failed⟩
  · rcases bind_eq_error.mp statuses with outcomes | ⟨outcomes, -, failed⟩
    · rcases mapM'_eq_error outcomes with ⟨prof, -, failed⟩
      exact missing_of_profileOutcome failed
    · cases failed
  · cases failed

theorem missing_of_applyDependencyManagement (failed : applyDependencyManagement pom = .error err) :
    err.missing = none := by
  rcases bind_eq_error.mp failed with deps | ⟨deps, -, failed⟩
  · rcases mapM'_eq_error deps with ⟨dep, -, failed⟩
    unfold manageDependency at failed
    dsimp only at failed
    split_ifs at failed
    cases failed
    rfl
  · cases failed

end Unnamed

section Reports

variable {K : Type} {key : RawParent → K} {absent : K → String} {answers : K → Option RawPom}
  {unusable : RawPom → Prop} {name : K → String} {env : String → Option String}
  {pathExists : String → String → Bool}
  (named : ∀ parent, name (key parent) = parent.gav.display)
  (orphaned : ∀ pom, unusable pom → ∀ remaining seen chain,
    (collectFrom remaining seen pom.parent).eval (Dialogue.tableReply key absent answers) ≠
      .ok chain)

include named orphaned

theorem reports_collectFrom (remaining : ℕ) (seen : List Gav) (cur : Option RawParent) :
    Reports key absent answers unusable EffectiveError.missing name
      (collectFrom remaining seen cur) := by
  induction remaining generalizing seen cur with
  | zero =>
    rcases cur with _ | _
    · trivial
    · rfl
  | succ remaining ih =>
    rcases cur with _ | parent
    · trivial
    · rw [collectFrom]
      split_ifs with circular
      · rfl
      · refine ⟨fun reason => ⟨_, rfl, congrArg some (named parent).symm⟩, ?_⟩
        intro pom
        refine ⟨(ih _ _).bind fun _ => trivial, ?_⟩
        intro bad chain succeeded
        have collects : (collectFrom remaining (parent.gav :: seen) pom.parent >>= fun rest =>
            pure (pom :: rest)).eval (Dialogue.tableReply key absent answers) = .ok chain :=
          succeeded
        rw [Dialogue.eval_bind] at collects
        rcases bind_eq_ok.mp collects with ⟨rest, collected, -⟩
        exact orphaned pom bad _ _ rest collected

theorem reports_buildEffective (root : RawPom) :
    Reports key absent answers unusable EffectiveError.missing name (buildEffective env root) :=
  (reports_collectFrom named orphaned _ _ _).bind fun _ =>
    .ofExcept fun _ => missing_of_finishEffective

theorem reports_mapError_buildEffective (root : RawPom) :
    Reports key absent answers unusable missing name
      ((buildEffective env root).mapError effective) := by
  have same : ∀ err, missing (.effective err) = err.missing := fun _ => rfl
  exact (reports_buildEffective named orphaned root).mapError same

theorem reports_effectiveBom (gav : Gav) : Reports key absent answers unusable missing name
      (effectiveBom env gav) := by
  refine ⟨fun reason => ⟨_, rfl, congrArg some (named gav.toParent).symm⟩, ?_⟩
  intro pom
  change Reports key absent answers unusable missing name
      ((buildEffective env pom).mapError effective) ∧
    (unusable pom → ∀ eff, ((buildEffective env pom).mapError effective).eval
      (Dialogue.tableReply key absent answers) ≠ .ok eff)
  refine ⟨reports_mapError_buildEffective named orphaned pom, ?_⟩
  intro bad eff succeeded
  rw [Dialogue.eval_mapError_eq_ok, buildEffective, Dialogue.eval_bind] at succeeded
  rcases bind_eq_ok.mp succeeded with ⟨chain, collected, -⟩
  exact orphaned pom bad _ _ chain collected

theorem reports_expandImports
    {expand : RawPom → ImportState → Resolution ResolveError (RawPom × ImportState)}
    (expands : ∀ pom st, Reports key absent answers unusable missing name
      (expand pom st)) (deps : List RawDependency) (st : ImportState) :
    Reports key absent answers unusable missing name (expandImports env expand deps st) := by
  induction deps generalizing st with
  | nil => trivial
  | cons dep deps ih =>
    rw [expandImports]
    dsimp only
    split_ifs
    · rfl
    · rfl
    · refine (reports_effectiveBom named orphaned _).bind fun eff => ?_
      refine (expands _ _).bind fun expanded => ?_
      exact (ih _).bind fun _ => trivial

theorem reports_expandBomImports (remaining : ℕ) (pom : RawPom) (st : ImportState) :
    Reports key absent answers unusable missing name (expandBomImports env remaining pom st) := by
  induction remaining generalizing pom st with
  | zero => rfl
  | succ remaining ih =>
    rw [expandBomImports]
    rcases pom.dependencyManagement with _ | _
    · trivial
    · exact (reports_expandImports named orphaned ih _ _).bind fun _ => trivial

theorem reports_resolvePom (root : RawPom) (ctx : ActivationContext) :
    Reports key absent answers unusable missing name (resolvePom env pathExists root ctx) := by
  have prepares : Reports key absent answers unusable missing name
      (preparePom env pathExists root ctx) := by
    refine (reports_mapError_buildEffective named orphaned root).bind fun eff => ?_
    refine (reports_expandBomImports named orphaned _ _ _).bind fun expanded => ?_
    refine (Reports.ofExcept fun _ => missing_of_applyProfiles).bind fun spliced => ?_
    dsimp only
    split_ifs
    · trivial
    · exact (reports_mapError_buildEffective named orphaned _).bind fun _ => trivial
  refine prepares.bind fun prep => ?_
  exact (Reports.ofExcept fun _ => missing_of_applyDependencyManagement).bind
    fun _ => trivial

end Reports

end Barista.Pom
