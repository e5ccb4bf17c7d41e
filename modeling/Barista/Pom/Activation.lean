import Barista.Pom.Management

/-!
# The active profiles

A profile is chosen by its id or by its activators.  The profiles that are active by default
count only if none is chosen.
-/

namespace Barista.Pom

open List

section Law

variable (pathExists : String → String → Bool) (context : ActivationContext)

def RawActivation.HasActivator (activation : RawActivation) : Prop :=
  ¬(activation.jdk.isNone ∧ activation.os.isNone ∧ activation.property.isNone ∧
    activation.file.isNone)

def RawActivation.Matches (activation : RawActivation) : Prop :=
  (∀ spec ∈ activation.jdk, ∃ actual ∈ context.jdkVersion, jdkMatches spec actual = .ok true) ∧
    (∀ os ∈ activation.os, osMatches os context) ∧
    (∀ property ∈ activation.property, propertyMatches property context) ∧
    ∀ file ∈ activation.file, fileMatches pathExists file context

/-- The ids switch the profile on or off, which an empty id does not. -/
def RawProfile.Switched (profile : RawProfile) (ids : List String) : Prop :=
  ∃ id ∈ profile.id, id ≠ "" ∧ id ∈ ids

def RawProfile.Chosen (profile : RawProfile) : Prop :=
  ¬profile.Switched context.inactiveProfileIds ∧ (profile.Switched context.activeProfileIds ∨
    ∃ activation ∈ profile.activation, activation.HasActivator ∧
      activation.Matches pathExists context)

def RawProfile.Active (profiles : List RawProfile) (profile : RawProfile) : Prop :=
  profile.Chosen pathExists context ∨ ¬profile.Switched context.inactiveProfileIds ∧
    (∃ activation ∈ profile.activation,
      ¬activation.HasActivator ∧ activation.activeByDefault = some "true") ∧
    ∀ other ∈ profiles, ¬other.Chosen pathExists context

end Law

variable {pathExists : String → String → Bool} {ctx : ActivationContext}

theorem switched_iff (profile : RawProfile) (ids : List String) :
    profile.id.getD "" ≠ "" ∧ profile.id.getD "" ∈ ids ↔ profile.Switched ids := by
  unfold RawProfile.Switched
  rcases profile.id with _ | _ <;> simp

theorem evaluateActivators_eq_ok {activation : RawActivation} (wellFormed : ∀ spec ∈ activation.jdk,
      ∀ actual ∈ ctx.jdkVersion, ∃ matched, jdkMatches spec actual = .ok matched) :
    ∃ matched, evaluateActivators pathExists activation ctx = .ok matched ∧
      (matched = true ↔ activation.Matches pathExists ctx) := by
  unfold evaluateActivators RawActivation.Matches
  rcases declared : activation.jdk with _ | spec
  · exact ⟨_, rfl, by simp [Option.all_eq_true, and_assoc]⟩
  · rcases version : ctx.jdkVersion with _ | actual
    · exact ⟨_, rfl, by simp⟩
    · rcases wellFormed spec declared actual version with ⟨matched, found⟩
      refine ⟨_, by dsimp only; rw [found]; rfl, ?_⟩
      simp [found, Option.all_eq_true, and_assoc]

theorem profileOutcome_eq_ok {profile : RawProfile}
    (wellFormed : ∀ activation ∈ profile.activation, ∀ spec ∈ activation.jdk,
      ∀ actual ∈ ctx.jdkVersion, ∃ matched, jdkMatches spec actual = .ok matched) :
    ∃ outcome, profileOutcome pathExists ctx profile = .ok outcome ∧
      (outcome = .active ↔ profile.Chosen pathExists ctx) ∧
      (¬profile.Chosen pathExists ctx → (outcome = .defaultCandidate ↔
        ¬profile.Switched ctx.inactiveProfileIds ∧ ∃ activation ∈ profile.activation,
          ¬activation.HasActivator ∧ activation.activeByDefault = some "true")) := by
  unfold profileOutcome RawProfile.Chosen
  have offIff := switched_iff profile ctx.inactiveProfileIds
  have onIff := switched_iff profile ctx.activeProfileIds
  by_cases off : profile.Switched ctx.inactiveProfileIds
  · exact ⟨.inactive, if_pos (offIff.mpr off), by simp [off]⟩
  by_cases on : profile.Switched ctx.activeProfileIds
  · exact ⟨.active, by rw [if_neg (mt offIff.mp off), if_pos (onIff.mpr on)], by simp [off, on]⟩
  rw [if_neg (mt offIff.mp off), if_neg (mt onIff.mp on), evaluateActivation]
  cases configured : profile.activation with
  | none => exact ⟨.unconfigured, rfl, by simp [on]⟩
  | some activation =>
    by_cases activators : activation.HasActivator
    · rcases evaluateActivators_eq_ok (wellFormed activation configured) with ⟨matched, found, iff⟩
      refine ⟨if matched then .active else .inactive, ?_, ?_⟩
      · dsimp only
        rw [if_neg activators, found]
        rfl
      · cases matched <;> simp_all
    · refine ⟨if activation.activeByDefault = some "true" then .defaultCandidate else .unconfigured,
        ?_, ?_⟩
      · exact if_pos (not_not.mp activators)
      · split_ifs with byDefault <;> simp [off, on, activators, byDefault]

theorem spliceProfiles_map (pom : RawPom) (active : RawProfile → Bool) :
    (spliceProfiles pom (pom.profiles.map active)).1 =
      { (pom.profiles.filter active).foldl spliceProfile pom with
        profiles := pom.profiles.filter fun profile => !active profile } := by
  rw [spliceProfiles_fst, activeProfiles, ← map_prod_left_eq_zip, filter_map, map_map, filter_map,
    map_map]
  exact congrArg₂ (fun active inactive =>
    { active.foldl spliceProfile pom with profiles := inactive }) (map_id _) (map_id _)

open Classical in
/-- The active profiles are spliced in their order, and the others remain. -/
theorem profiles_activated (pathExists : String → String → Bool) (ctx : ActivationContext)
    (pom : RawPom)
    (wellFormed : ∀ profile ∈ pom.profiles, ∀ activation ∈ profile.activation,
      ∀ spec ∈ activation.jdk,
      ∀ actual ∈ ctx.jdkVersion, ∃ matched, jdkMatches spec actual = .ok matched) :
    profileStatuses pathExists ctx pom.profiles =
      .ok (pom.profiles.map fun profile => decide (profile.Active pathExists ctx pom.profiles)) ∧
    (applyProfiles pathExists pom ctx).map Prod.fst = .ok
      { (pom.profiles.filter fun profile => profile.Active pathExists ctx pom.profiles).foldl
          spliceProfile pom with
        profiles := pom.profiles.filter fun profile =>
          !decide (profile.Active pathExists ctx pom.profiles) } := by
  have statuses : profileStatuses pathExists ctx pom.profiles = .ok (pom.profiles.map fun profile =>
      decide (profile.Active pathExists ctx pom.profiles)) := by
    have : Nonempty ActivationOutcome := ⟨.active⟩
    choose! outcome found using fun profile mem =>
      @profileOutcome_eq_ok pathExists ctx profile (wellFormed profile mem)
    have outcomes : pom.profiles.mapM' (profileOutcome pathExists ctx) =
        .ok (pom.profiles.map outcome) := by
      rw [mapM'_eq_ok, forall₂_map_right_iff, forall₂_same]
      exact fun profile mem => (found profile mem).1
    have noneChosen : (pom.profiles.map outcome).any (· = .active) = false ↔
        ∀ profile ∈ pom.profiles, ¬profile.Chosen pathExists ctx := by
      simp only [any_map, any_eq_false, Function.comp_apply, decide_eq_true_eq]
      exact forall₂_congr fun profile mem => not_congr (found profile mem).2.1
    rw [profileStatuses, outcomes]
    refine congrArg Except.ok ?_
    rw [map_map]
    apply map_congr_left
    intro profile mem
    rcases found profile mem with ⟨-, active, byDefault⟩
    rw [Bool.eq_iff_iff]
    simp only [Function.comp_apply, Bool.or_eq_true, Bool.and_eq_true, Bool.not_eq_true',
      decide_eq_true_eq, noneChosen, active]
    unfold RawProfile.Active
    by_cases here : profile.Chosen pathExists ctx
    · simp [here]
    · rw [byDefault here, and_assoc]
  refine ⟨statuses, ?_⟩
  rw [applyProfiles, statuses]
  exact congrArg Except.ok (spliceProfiles_map pom _)

def profileNamed (id : String) : RawProfile :=
  { id := some id, activation := some { activeByDefault := some "true" } }

def threeProfiles : List RawProfile :=
  [profileNamed "dev", { id := some "ci" }, profileNamed ""]

/-- The switched profile is active, and so the profiles that are active by default are not; the
empty id switches nothing. -/
theorem profiles_activated_switched :
    let context : ActivationContext := { activeProfileIds := ["ci", ""] }
    ({ id := some "ci" } : RawProfile).Active (fun _ _ => false) context threeProfiles ∧
      ¬(profileNamed "dev").Active (fun _ _ => false) context threeProfiles ∧
        ¬(profileNamed "").Active (fun _ _ => false) context threeProfiles := by
  intro context
  have statuses := (profiles_activated (fun _ _ => false) context { profiles := threeProfiles }
    (by simp [threeProfiles, profileNamed])).1
  have computed : profileStatuses (fun _ _ => false) context threeProfiles =
      .ok [false, true, false] := by
    decide
  have same : [false, true, false] = [_, _, _] := Except.ok.inj (computed.symm.trans statuses)
  simp only [cons.injEq, true_eq_decide_iff, false_eq_decide_iff] at same
  exact ⟨same.2.1, same.1, same.2.2.1⟩

/-- A profile with an empty id is not switched off by a context that lists the empty id. -/
theorem empty_id_not_switched : (∃ id ∈ (profileNamed "").id, id ∈ [""]) ∧
    profileStatuses (fun _ _ => false) { inactiveProfileIds := [""] } [profileNamed ""] =
      .ok [true] :=
  ⟨⟨"", rfl, mem_cons_self⟩, by decide⟩

end Barista.Pom
