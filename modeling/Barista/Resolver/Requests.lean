import Barista.Lockstep
import Barista.Resolver.Walker

/-!
# Judgements on requests

Version requirements and effective POMs are resolved by programs that are put together from
a few requests to the session: the pinned version, the version list and the raw POM.  A
compositional judgement that holds of these requests therefore holds of the programs.
-/

namespace Barista.Resolver

section Requests

variable {RawPom ResolvedPom : Type} (src : MetadataSource RawPom) (coords : Coords)

theorem run_fetchMetadataViaSession_none (repoId : String) :
    (fetchMetadataViaSession src repoId coords : Fetch RawPom ResolvedPom _).run none =
      match src.fetchMetadata coords with
      | .error err => .error (.metadata err)
      | .ok (metadata, _) => .ok (metadata, none) := by
  cases ans : src.fetchMetadata coords <;>
    simp [fetchMetadataViaSession, ans, liftSource] <;> rfl

theorem run_fetchMetadataViaSession_some (repoId : String) (sess : OreqSession RawPom ResolvedPom) :
    (fetchMetadataViaSession src repoId coords).run (some sess) =
      match sess.metadataCache ⟨repoId, coords⟩ with
      | some metadata =>
        .ok (metadata, some (sess.lookupMetadata ⟨repoId, coords⟩).2)
      | none =>
        match src.fetchMetadata coords with
        | .error err => .error (.metadata err)
        | .ok (metadata, origin) =>
          .ok (metadata, some (sess.depositMetadata ⟨repoId, coords⟩ metadata origin)) := by
  rcases cached : sess.metadataCache ⟨repoId, coords⟩ with _ | _
  · cases ans : src.fetchMetadata coords <;>
      simp [fetchMetadataViaSession, OreqSession.lookupMetadata, cached, ans, liftSource] <;> rfl
  · simp [fetchMetadataViaSession, OreqSession.lookupMetadata, cached]
    rfl

theorem run_fetchPomViaSession_none (wrap : MetadataError → WalkError) (ver : String) :
    (fetchPomViaSession src wrap coords ver : Fetch RawPom ResolvedPom _).run none =
      match src.fetchPom coords ver with
      | .error err => .error (wrap err)
      | .ok (pom, _) => .ok (pom, none) := by
  cases ans : src.fetchPom coords ver <;>
    simp [fetchPomViaSession, ans, liftSource] <;> rfl

theorem run_fetchPomViaSession_some (wrap : MetadataError → WalkError) (ver : String)
    (sess : OreqSession RawPom ResolvedPom) :
    (fetchPomViaSession src wrap coords ver).run (some sess) =
      match sess.rawPomCache ⟨coords, ver⟩ with
      | some pom => .ok (pom, some (sess.lookupParentPom ⟨coords, ver⟩).2)
      | none =>
        match src.fetchPom coords ver with
        | .error err => .error (wrap err)
        | .ok (pom, _) => .ok (pom, some (sess.depositParentPom ⟨coords, ver⟩ pom)) := by
  rcases cached : sess.rawPomCache ⟨coords, ver⟩ with _ | _
  · cases ans : src.fetchPom coords ver <;>
      simp [fetchPomViaSession, OreqSession.lookupParentPom, cached, ans, liftSource] <;> rfl
  · simp [fetchPomViaSession, OreqSession.lookupParentPom, cached]
    rfl

end Requests

variable {RawPom ResolvedPom Activation : Type} {src : MetadataSource RawPom}
  {judges : (α : Type) → Fetch RawPom ResolvedPom α → Prop} (rules : Compositional judges)

include rules

theorem judges_liftSource {α : Type} (wrap : MetadataError → WalkError)
    (ans : Except MetadataError α) : judges α (liftSource wrap ans) := by
  rcases ans with _ | _
  · exact rules.throw _
  · exact rules.pure _

section Versions

variable (pins : ∀ coords, judges _ (frozenPin coords)) (skips : judges _ recordFrozenSkip)

include pins skips

theorem judges_pinned {α : Type} (coords : Coords) {select : Option String → Option String}
    {ans : String → α} {rest : Fetch RawPom ResolvedPom α} (goesOn : judges α rest) :
    judges α (do
      match select (← frozenPin coords) with
      | some pin =>
        recordFrozenSkip
        return ans pin
      | none => rest) := by
  apply rules.bind (pins coords)
  intro pin
  rcases select pin with _ | _
  · exact goesOn
  · apply rules.bind skips
    intro _
    exact rules.pure _

variable (lists : ∀ repoId coords, judges _ (fetchMetadataViaSession src repoId coords))
  (lower : String → String)

include lists

theorem judges_resolveSpec (repoId : String) (coords : Coords) (spec : VersionSpec) :
    judges _ (resolveSpec lower src repoId coords spec) := by
  cases spec with
  | soft ver => exact judges_pinned rules pins skips coords (rules.pure _)
  | hard intervals =>
    apply judges_pinned rules pins skips coords
    apply rules.bind (lists repoId coords)
    intro metadata
    dsimp only
    split
    · exact rules.pure _
    · exact rules.throw _
  | latest | release =>
    apply judges_pinned rules pins skips coords
    apply rules.bind (lists repoId coords)
    intro metadata
    split
    · exact rules.pure _
    · exact rules.throw _

omit pins skips lists in
theorem judges_resolveSnapshotFetchVersion (ver : String) (coords : Coords) (dep : RawDependency) :
    judges _ (resolveSnapshotFetchVersion lower src ver coords dep) := by
  unfold resolveSnapshotFetchVersion
  split
  · exact rules.pure _
  · split
    · dsimp only
      split
      · exact rules.pure _
      · exact rules.throw _
    · exact rules.pure _
    · exact rules.throw _

theorem judges_resolveVersion (opts : WalkOptions RawPom ResolvedPom Activation)
    (coords : Coords) (dep : RawDependency) :
    judges _ (resolveVersion lower src opts coords dep) := by
  unfold resolveVersion
  split
  · exact rules.throw _
  · split
    · exact rules.throw _
    · apply rules.bind (judges_resolveSpec rules pins skips lists lower opts.repoId coords _)
      intro res
      apply rules.bind (judges_resolveSnapshotFetchVersion rules lower _ coords dep)
      intro fetch
      exact rules.pure _

end Versions

section Poms

variable (poms : ∀ wrap coords ver, judges _ (fetchPomViaSession src wrap coords ver))
  (pipe : PomPipeline RawPom ResolvedPom Activation) (act : Activation)

include poms

theorem judges_fetchParent (group artifact ver : String) :
    judges _ (fetchParent src group artifact ver) := by
  unfold fetchParent
  split
  · exact rules.throw _
  · exact poms _ _ _

theorem judges_prefetchFrom (remaining : ℕ) (chain : Chain RawPom) (cur : Option RawParent) :
    judges _ (prefetchFrom pipe src remaining chain cur) := by
  induction remaining generalizing chain cur with
  | zero => exact rules.pure _
  | succ remaining ih =>
    rcases cur with _ | _
    · exact rules.pure _
    · rw [prefetchFrom]
      split
      · exact rules.pure _
      · apply rules.bind (judges_fetchParent rules poms _ _ _)
        intro pom
        exact ih _ _

theorem judges_prefetchParentChain (pom : RawPom) : judges _ (prefetchParentChain pipe src pom) :=
  judges_prefetchFrom rules poms pipe _ _ _

variable (coords : Coords)

theorem judges_fetchMissing (ver : String) (chain : Chain RawPom) (missing : String) :
    judges _ (fetchMissing pipe src coords ver chain missing) := by
  rw [fetchMissing]
  split
  · exact rules.throw _
  · apply rules.bind (judges_fetchParent rules poms _ _ _)
    intro pom
    apply rules.bind (judges_prefetchParentChain rules poms pipe pom)
    intro extra
    exact rules.pure _

theorem judges_resolveRounds (ver : String) (raw : RawPom) (rounds : ℕ) (chain : Chain RawPom) :
    judges _ (resolveRounds pipe src act coords ver raw rounds chain) := by
  induction rounds generalizing chain with
  | zero => exact rules.throw _
  | succ rounds ih =>
    rw [resolveRounds]
    split
    · exact rules.pure _
    · exact rules.bind (judges_fetchMissing rules poms pipe coords ver chain _) ih
    · exact rules.bind (judges_fetchMissing rules poms pipe coords ver chain _) ih
    · exact rules.throw _

theorem judges_resolveChildPom (ver : String) (raw : RawPom) :
    judges _ (resolveChildPom pipe src act coords ver raw) := by
  apply rules.bind (judges_prefetchParentChain rules poms pipe raw)
  intro chain
  exact judges_resolveRounds rules poms pipe act coords ver raw _ chain

end Poms

end Barista.Resolver
