import Barista.Resolver.Requests

/-!
# Sessions are transparent

A session answers from what it has fetched before. As long as its tables agree with the source, a
walk with a session gives the graph of a walk without one.
-/

namespace Barista.Resolver

section Sessions

variable {RawPom ResolvedPom Activation : Type}

variable (source : MetadataSource RawPom)
  (pipe : PomPipeline RawPom ResolvedPom Activation) (activation : Activation)
  (session : Option (OreqSession RawPom ResolvedPom))

def listAnswer (key : MetadataKey) : Except MetadataError GaMetadata :=
  match session.bind fun session => session.metadataCache key with
  | some metadata => .ok metadata
  | none => (source.fetchMetadata key.coords).map Prod.fst

variable (key : PomKey)

def rawAnswer : Except MetadataError RawPom :=
  match session.bind fun session => session.rawPomCache key with
  | some pom => .ok pom
  | none => (source.fetchPom key.coords key.version).map Prod.fst

def resolveFresh : Fetch RawPom ResolvedPom ResolvedPom := do
  let raw ← fetchPomViaSession source .metadata key.coords key.version
  resolveChildPom pipe source activation key.coords key.version raw

def effectiveAnswer : Except WalkError ResolvedPom :=
  match session.bind fun session => session.resolvedPomCache key with
  | some resolved => .ok resolved
  | none => ((resolveFresh source pipe activation key).run session).map Prod.fst

variable {source pipe activation session} {left right : Option (OreqSession RawPom ResolvedPom)}

def SameRaw (source : MetadataSource RawPom)
    (left right : Option (OreqSession RawPom ResolvedPom)) : Prop :=
  ∀ key, rawAnswer source left key = rawAnswer source right key

theorem equivalence_sameRaw :
    Equivalence (SameRaw source : Option (OreqSession RawPom ResolvedPom) → _ → Prop) where
  refl := fun _ _ => rfl
  symm := fun same key => (same key).symm
  trans := fun first second key => (first key).trans (second key)

structure SameRest (source : MetadataSource RawPom)
    (left right : Option (OreqSession RawPom ResolvedPom)) : Prop where
  pins : ∀ coords, (left.bind fun session => session.frozenPin coords) =
    right.bind fun session => session.frozenPin coords
  lists : ∀ key, listAnswer source left key = listAnswer source right key
  resolved : ∀ key, (left.bind fun session => session.resolvedPomCache key) =
    right.bind fun session => session.resolvedPomCache key

theorem SameRest.refl : SameRest source session session :=
  ⟨fun _ => rfl, fun _ => rfl, fun _ => rfl⟩

theorem sameRaw_depositParentPom {session : OreqSession RawPom ResolvedPom} {key : PomKey}
    {pom : RawPom} (ans : rawAnswer source (some session) key = .ok pom) :
    SameRaw source (some session) (some (session.depositParentPom key pom)) := by
  intro other
  by_cases same : other = key
  · subst same
    rw [ans]
    simp [rawAnswer, OreqSession.depositParentPom]
  · simp [rawAnswer, OreqSession.depositParentPom, Function.update_of_ne same]

section Poms

variable (wrap : MetadataError → WalkError) (coords : Coords) (ver : String)

theorem answered_fetchPomViaSession : Answered (SameRaw source) session
      ((rawAnswer source session ⟨coords, ver⟩).mapError wrap)
      ((fetchPomViaSession source wrap coords ver).run session) := by
  rcases session with _ | session
  · rw [run_fetchPomViaSession_none, rawAnswer]
    rcases source.fetchPom coords ver with _ | ans
    · exact Answered.error _
    · exact Answered.ok ans.1 fun _ => rfl
  · rw [run_fetchPomViaSession_some]
    rcases cached : session.rawPomCache ⟨coords, ver⟩ with _ | pom
    · rcases ans : source.fetchPom coords ver with _ | pair
      · simp only [rawAnswer, Option.bind_some, cached, ans]
        exact Answered.error _
      · have answered : rawAnswer source (some session) ⟨coords, ver⟩ = .ok pair.1 := by
          simp [rawAnswer, cached, ans, Except.map]
        rw [answered]
        exact Answered.ok pair.1 (sameRaw_depositParentPom answered)
    · simp only [rawAnswer, Option.bind_some, cached]
      refine Answered.ok pom fun key => ?_
      simp [rawAnswer, OreqSession.lookupParentPom, cached]

theorem steady_fetchPomViaSession : Steady (SameRaw source)
      (fetchPomViaSession source wrap coords ver : Fetch RawPom ResolvedPom _) := by
  refine Steady.of_answered equivalence_sameRaw ?_ fun session =>
    answered_fetchPomViaSession wrap coords ver
  intro left right same
  rw [same ⟨coords, ver⟩]

theorem keeps_fetchPomViaSession : Keeps (SameRest source left)
      (fetchPomViaSession source wrap coords ver : Fetch RawPom ResolvedPom _) := by
  intro session pom sess' rest ret
  rcases session with _ | session
  · rw [run_fetchPomViaSession_none] at ret
    rcases ans : source.fetchPom coords ver with _ | _ <;> rw [ans] at ret
    · cases ret
    · cases ret
      exact rest
  · rw [run_fetchPomViaSession_some] at ret
    rcases cached : session.rawPomCache ⟨coords, ver⟩ with _ | _
    · rw [cached] at ret
      rcases ans : source.fetchPom coords ver with _ | _ <;> simp only [ans] at ret
      · cases ret
      · cases ret
        exact ⟨rest.pins, rest.lists, rest.resolved⟩
    · simp only [cached, OreqSession.lookupParentPom] at ret
      cases ret
      exact ⟨rest.pins, rest.lists, rest.resolved⟩

end Poms

theorem steady_resolveFresh :
    Steady (SameRaw source) (resolveFresh source pipe activation key) := by
  apply (steady_fetchPomViaSession _ _ _).bind
  intro raw
  exact judges_resolveChildPom (compositional_steady _) steady_fetchPomViaSession pipe
    activation _ _ raw

theorem keeps_resolveFresh :
    Keeps (SameRest source left) (resolveFresh source pipe activation key) := by
  apply (keeps_fetchPomViaSession _ _ _).bind
  intro raw
  exact judges_resolveChildPom (compositional_keeps _) keeps_fetchPomViaSession pipe
    activation _ _ raw

theorem map_run_resolveFresh (same : SameRaw source left right) (key : PomKey) :
    ((resolveFresh source pipe activation key).run left).map Prod.fst =
      ((resolveFresh source pipe activation key).run right).map Prod.fst := by
  have steady : Steady (SameRaw source) (resolveFresh source pipe activation key) :=
    steady_resolveFresh key
  have ran := steady.lockstep left right same
  generalize (resolveFresh source pipe activation key).run left = leftResult at ran ⊢
  generalize (resolveFresh source pipe activation key).run right = rightResult at ran ⊢
  cases ran with
  | ok val related => rfl
  | error err => rfl

structure Agrees (source : MetadataSource RawPom)
    (pipeline : PomPipeline RawPom ResolvedPom Activation) (activation : Activation)
    (left right : Option (OreqSession RawPom ResolvedPom)) : Prop where
  pins : ∀ coords, (left.bind fun session => session.frozenPin coords) =
    right.bind fun session => session.frozenPin coords
  lists : ∀ key, listAnswer source left key = listAnswer source right key
  raw : SameRaw source left right
  effective : ∀ key, effectiveAnswer source pipeline activation left key =
    effectiveAnswer source pipeline activation right key

theorem equivalence_agrees : Equivalence (Agrees source pipe activation) where
  refl := fun _ => ⟨fun _ => rfl, fun _ => rfl, fun _ => rfl, fun _ => rfl⟩
  symm := fun agrees =>
    ⟨fun coords => (agrees.pins coords).symm, fun key => (agrees.lists key).symm,
      equivalence_sameRaw.symm agrees.raw, fun key => (agrees.effective key).symm⟩
  trans := fun first second =>
    ⟨fun coords => (first.pins coords).trans (second.pins coords),
      fun key => (first.lists key).trans (second.lists key),
      equivalence_sameRaw.trans first.raw second.raw,
      fun key => (first.effective key).trans (second.effective key)⟩

theorem SameRest.agrees (rest : SameRest source left right) (raw : SameRaw source left right) :
    Agrees source pipe activation left right := by
  refine ⟨rest.pins, rest.lists, raw, ?_⟩
  intro key
  rw [effectiveAnswer, effectiveAnswer, rest.resolved key, map_run_resolveFresh raw key]

variable (coords : Coords)

theorem steady_agrees_frozenPin : Steady (Agrees source pipe activation) (frozenPin coords) := by
  apply Steady.read
  intro left right agrees
  exact agrees.pins coords

theorem steady_agrees_recordFrozenSkip :
    Steady (Agrees source pipe activation) recordFrozenSkip := by
  have skipped : ∀ session, Agrees source pipe activation session
      (session.map OreqSession.recordFrozenSkip) := by
    intro session
    rcases session with _ | _
    · exact equivalence_agrees.refl none
    · exact SameRest.agrees ⟨fun _ => rfl, fun _ => rfl, fun _ => rfl⟩ fun _ => rfl
  apply Steady.modify
  · intro left right agrees
    exact equivalence_agrees.trans (equivalence_agrees.symm (skipped left))
      (equivalence_agrees.trans agrees (skipped right))
  · intro left right agrees
    exact equivalence_agrees.trans agrees (skipped right)

theorem agrees_depositMetadata {session : OreqSession RawPom ResolvedPom} {key : MetadataKey}
    {metadata : GaMetadata} (origin : FetchOrigin)
    (ans : listAnswer source (some session) key = .ok metadata) :
    Agrees source pipe activation (some session)
      (some (session.depositMetadata key metadata origin)) := by
  refine SameRest.agrees ⟨?_, ?_, ?_⟩ ?_
  · intro coords
    simp [OreqSession.frozenPin]
  · intro other
    by_cases same : other = key
    · subst same
      rw [ans]
      simp [listAnswer]
    · simp [listAnswer, Function.update_of_ne same]
  · intro other
    simp
  · intro other
    simp [rawAnswer]

theorem answered_fetchMetadataViaSession (repoId : String) (coords : Coords) :
    Answered (Agrees source pipe activation) session
      ((listAnswer source session ⟨repoId, coords⟩).mapError .metadata)
      ((fetchMetadataViaSession source repoId coords).run session) := by
  rcases session with _ | session
  · rw [run_fetchMetadataViaSession_none, listAnswer]
    rcases source.fetchMetadata coords with _ | ans
    · exact Answered.error _
    · exact Answered.ok ans.1 (equivalence_agrees.refl none)
  · rw [run_fetchMetadataViaSession_some]
    rcases cached : session.metadataCache ⟨repoId, coords⟩ with _ | metadata
    · rcases ans : source.fetchMetadata coords with _ | pair
      · simp only [listAnswer, Option.bind_some, cached, ans]
        exact Answered.error _
      · have answered : listAnswer source (some session) ⟨repoId, coords⟩ = .ok pair.1 := by
          simp [listAnswer, cached, ans, Except.map]
        rw [answered]
        exact Answered.ok pair.1 (agrees_depositMetadata pair.2 answered)
    · simp only [listAnswer, Option.bind_some, cached, OreqSession.lookupMetadata]
      exact Answered.ok metadata
        (SameRest.agrees ⟨fun _ => rfl, fun _ => rfl, fun _ => rfl⟩ fun _ => rfl)

theorem steady_agrees_fetchMetadataViaSession (repoId : String) (coords : Coords) :
    Steady (Agrees source pipe activation) (fetchMetadataViaSession source repoId coords) := by
  refine Steady.of_answered equivalence_agrees ?_ fun session =>
    answered_fetchMetadataViaSession repoId coords
  intro left right agrees
  rw [agrees.lists ⟨repoId, coords⟩]

theorem steady_agrees_resolveVersion (lower : String → String)
    (opts : WalkOptions RawPom ResolvedPom Activation) (coords : Coords) (dep : RawDependency) :
    Steady (Agrees source pipe activation) (resolveVersion lower source opts coords dep) :=
  judges_resolveVersion (compositional_steady _) steady_agrees_frozenPin
    steady_agrees_recordFrozenSkip steady_agrees_fetchMetadataViaSession lower opts coords dep

variable (ver : String)

theorem run_fetchResolvedChild_none :
    (fetchResolvedChild pipe source activation coords ver).run none =
      (resolveFresh source pipe activation ⟨coords, ver⟩).run none := by
  rw [resolveFresh, StateT.run_bind, run_fetchPomViaSession_none]
  rcases ans : source.fetchPom coords ver with _ | _
  · simp [fetchResolvedChild, ans, liftSource]
    rfl
  · simp [fetchResolvedChild, ans, liftSource]
    rfl

theorem run_fetchResolvedChild_some (session : OreqSession RawPom ResolvedPom) :
    (fetchResolvedChild pipe source activation coords ver).run (some session) =
      match session.resolvedPomCache ⟨coords, ver⟩ with
      | some res =>
        .ok (res, some ((session.lookupEffectivePom ⟨coords, ver⟩).2.lookupParentPom
          ⟨coords, ver⟩).2)
      | none =>
        match (resolveFresh source pipe activation ⟨coords, ver⟩).run (some session) with
        | .error err => .error err
        | .ok (res, sess') =>
          .ok (res, sess'.map fun sess' =>
            sess'.depositEffectivePom ⟨coords, ver⟩ res) := by
  rcases cached : session.resolvedPomCache ⟨coords, ver⟩ with _ | _
  · have looked : session.lookupEffectivePom ⟨coords, ver⟩ = (none, session) := by
      simp [OreqSession.lookupEffectivePom, cached]
    rw [resolveFresh, StateT.run_bind]
    simp only [fetchResolvedChild, StateT.run_bind, StateT.run_get, pure_bind, looked]
    rcases (fetchPomViaSession source .metadata coords ver).run (some session) with _ | fetched
    · rfl
    · change ((resolveChildPom pipe source activation coords ver fetched.1).run
        fetched.2 >>= _) = match
        (resolveChildPom pipe source activation coords ver fetched.1).run fetched.2 with
        | .error err => _
        | .ok (res, sess') => _
      rcases (resolveChildPom pipe source activation coords ver fetched.1).run fetched.2 with _ | _
      · rfl
      · rfl
  · simp [fetchResolvedChild, OreqSession.lookupEffectivePom, cached]
    rfl

theorem answered_resolveFresh : Answered (fun session sess' => SameRest source session sess' ∧
        SameRaw source session sess') session
      (((resolveFresh source pipe activation key).run session).map Prod.fst)
      ((resolveFresh source pipe activation key).run session) := by
  rcases ran : (resolveFresh source pipe activation key).run session with err | pair
  · exact Answered.error err
  · refine Answered.ok pair.1 ⟨?_, ?_⟩
    · exact keeps_resolveFresh key session pair.1 pair.2 SameRest.refl ran
    · exact (steady_resolveFresh key).keeps session session pair.1 pair.2
        (equivalence_sameRaw.refl session) ran

theorem agrees_depositEffectivePom {key : PomKey} {res : ResolvedPom}
    (rest : SameRest source left right) (raw : SameRaw source left right)
    (ans : effectiveAnswer source pipe activation left key = .ok res) :
    Agrees source pipe activation left
      (right.map fun session => session.depositEffectivePom key res) := by
  rcases right with _ | session
  · exact rest.agrees raw
  · refine ⟨rest.pins, rest.lists, raw, ?_⟩
    intro other
    by_cases same : other = key
    · subst same
      rw [ans]
      simp [effectiveAnswer, OreqSession.depositEffectivePom]
    · have sameRaw : SameRaw source left (some (session.depositEffectivePom key res)) := raw
      rw [effectiveAnswer, effectiveAnswer, map_run_resolveFresh sameRaw other, rest.resolved other]
      simp [OreqSession.depositEffectivePom, Function.update_of_ne same]

theorem answered_fetchResolvedChild : Answered (Agrees source pipe activation) session
      (effectiveAnswer source pipe activation session ⟨coords, ver⟩)
      ((fetchResolvedChild pipe source activation coords ver).run session) := by
  have fresh : Answered _ session _
      ((resolveFresh source pipe activation ⟨coords, ver⟩).run session) :=
    answered_resolveFresh ⟨coords, ver⟩
  rcases session with _ | session
  · rw [run_fetchResolvedChild_none]
    change Answered _ none (Except.map Prod.fst
      ((resolveFresh source pipe activation ⟨coords, ver⟩).run none)) _
    generalize (resolveFresh source pipe activation ⟨coords, ver⟩).run none = ran at fresh ⊢
    rcases ran with err | pair
    · exact Answered.error err
    · rcases pair with ⟨res, sess'⟩
      cases fresh with
      | ok _ same => exact Answered.ok res (same.1.agrees same.2)
  · rw [run_fetchResolvedChild_some]
    rcases cached : session.resolvedPomCache ⟨coords, ver⟩ with _ | res
    · have ans : effectiveAnswer source pipe activation (some session)
          ⟨coords, ver⟩ = Except.map Prod.fst
            ((resolveFresh source pipe activation ⟨coords, ver⟩).run (some session)) := by
        simp [effectiveAnswer, cached]
      generalize (resolveFresh source pipe activation ⟨coords, ver⟩).run
        (some session) = ran at fresh ans ⊢
      rw [ans]
      rcases ran with err | pair
      · exact Answered.error err
      · rcases pair with ⟨res, sess'⟩
        cases fresh with
        | ok _ same =>
          exact Answered.ok res (agrees_depositEffectivePom same.1 same.2 ans)
    · simp only [effectiveAnswer, Option.bind_some, cached, OreqSession.lookupEffectivePom,
        OreqSession.lookupParentPom]
      refine Answered.ok res (SameRest.agrees ⟨?_, ?_, ?_⟩ ?_)
      all_goals
        intro key
        split <;> rfl

theorem steady_agrees_fetchResolvedChild : Steady (Agrees source pipe activation)
      (fetchResolvedChild pipe source activation coords ver) := by
  refine Steady.of_answered equivalence_agrees ?_ fun session =>
    answered_fetchResolvedChild coords ver
  intro left right agrees
  exact agrees.effective ⟨coords, ver⟩

end Sessions

variable {RawPom ResolvedPom Activation : Type}

inductive SameEnd {ε α : Type} (related : α → α → Prop) : Except ε α → Except ε α → Prop
  | ok {left right : α} : related left right → SameEnd related (.ok left) (.ok right)
  | error (error : ε) : SameEnd related (.error error) (.error error)

structure SameReport (left right : ResolvedGraph) : Prop where
  resolved : left.resolved = right.resolved
  winners : left.winners = right.winners
  warnings : left.warnings = right.warnings
  audit : left.audit = right.audit
  skipperStats : left.skipperStats = right.skipperStats

variable {lower : String → String} {pipe : PomPipeline RawPom ResolvedPom Activation}
  {source : MetadataSource RawPom} {opts : WalkOptions RawPom ResolvedPom Activation}

section Steps

variable {left right : Option (OreqSession RawPom ResolvedPom)}
  {item : WorkItem} {coords : Coords} (st : WalkState RawPom ResolvedPom)

theorem agrees_fresh (act : Activation) : Agrees source pipe act (some {}) none := by
  apply SameRest.agrees
  · exact ⟨fun _ => rfl, fun _ => rfl, fun _ => rfl⟩
  · intro key
    rfl

variable (pipe source opts) in
inductive Aligned : WalkState RawPom ResolvedPom → WalkState RawPom ResolvedPom → Prop
  | intro (state : WalkState RawPom ResolvedPom)
      {left right : Option (OreqSession RawPom ResolvedPom)} :
      Agrees source pipe opts.activation left right →
        Aligned { state with session := left } { state with session := right }

variable {held without : WalkState RawPom ResolvedPom}

theorem Aligned.sameReport (aligned : Aligned pipe source opts held without) :
    SameReport held.finish without.finish := by
  cases aligned with
  | intro st agrees => exact ⟨rfl, rfl, rfl, rfl, rfl⟩

theorem Aligned.queue (aligned : Aligned pipe source opts held without) :
    held.queue = without.queue := by
  cases aligned with
  | intro st agrees => rfl

section Aligned

variable (agrees : Agrees source pipe opts.activation left right)

include agrees

theorem aligned_expand (scope : Scope) (ver fetch : String) : SameEnd (Aligned pipe source opts)
      (expand pipe source opts { st with session := left } item coords scope ver fetch)
      (expand pipe source opts { st with session := right } item coords scope ver fetch) := by
  unfold expand
  by_cases system : scope = .system
  · rw [if_pos system, if_pos system]
    apply SameEnd.ok
    exact Aligned.intro ((st.addWinner (item.record coords scope ver)).recordVisit coords
      item.exclusions true) agrees
  · rw [if_neg system, if_neg system]
    have steady : Steady (Agrees source pipe opts.activation)
        (fetchResolvedChild pipe source opts.activation coords fetch) :=
      steady_agrees_fetchResolvedChild coords fetch
    have fetched := steady.lockstep left right agrees
    simp only [WalkState.addWinner]
    generalize (fetchResolvedChild pipe source opts.activation coords fetch).run
      left = leftResult at fetched ⊢
    generalize (fetchResolvedChild pipe source opts.activation coords fetch).run
      right = rightResult at fetched ⊢
    cases fetched with
    | error err => exact SameEnd.error err
    | ok res agrees' =>
      apply SameEnd.ok
      let children := (visitedDeps (pipe.dependencies res)).map (item.child coords scope)
      let entered := st.addWinner (item.record coords scope ver)
      exact Aligned.intro ({ entered with queue := entered.queue ++ children }.recordVisit
        coords item.exclusions children.isEmpty) agrees'

theorem aligned_nearestWins (scope : Scope) (ver fetch : String) :
    SameEnd (Aligned pipe source opts)
      (nearestWins pipe source opts { st with session := left } item coords scope ver fetch)
      (nearestWins pipe source opts { st with session := right } item coords scope ver fetch) := by
  simp only [nearestWins]
  rcases st.winners[coords]? with _ | existing
  · exact aligned_expand st agrees scope ver fetch
  · dsimp only
    split_ifs with loses
    · apply SameEnd.ok
      exact Aligned.intro (st.addLoser coords ver item.depth) agrees
    · exact aligned_expand (st.addLoser coords existing.version existing.depth) agrees scope
        ver fetch

theorem aligned_visit : SameEnd (Aligned pipe source opts)
      (visit lower pipe source opts { st with session := left } item coords)
      (visit lower pipe source opts { st with session := right } item coords) := by
  simp only [visit]
  rcases item.effectiveScope with _ | scope
  · exact SameEnd.ok (Aligned.intro st agrees)
  · dsimp only
    split_ifs with stripped
    · exact SameEnd.ok (Aligned.intro st agrees)
    · have steady : Steady (Agrees source pipe opts.activation)
          (resolveVersion lower source opts coords item.dep) :=
        steady_agrees_resolveVersion lower opts coords item.dep
      have res := steady.lockstep left right agrees
      generalize (resolveVersion lower source opts coords item.dep).run left = leftResult at res ⊢
      generalize (resolveVersion lower source opts coords item.dep).run right = rightResult at res ⊢
      cases res with
      | error err => exact SameEnd.error err
      | ok ans agrees' =>
        exact aligned_nearestWins { st with warnings := st.warnings ++ ans.2.2 }
          agrees' scope ans.1 ans.2.1

theorem aligned_processItem : SameEnd (Aligned pipe source opts)
      (processItem lower pipe source opts { st with session := left } item)
      (processItem lower pipe source opts { st with session := right } item) := by
  simp only [processItem]
  rcases Coords.new item.dep.groupId item.dep.artifactId with _ | coords
  · exact SameEnd.error _
  · dsimp only
    split_ifs with excluded
    · exact SameEnd.ok (Aligned.intro st agrees)
    · generalize st.skipper.decide coords item.depth (ExclusionSet.fromRaw item.exclusions)
        st.winners = decided
      rcases decided with ⟨decision, skipper⟩
      cases decision with
      | walk => exact aligned_visit { st with skipper } agrees
      | skip reason =>
        apply SameEnd.ok
        dsimp only [WalkState.addSkipped]
        split_ifs with known
        · exact Aligned.intro ({ st with skipper }.addLoser coords _ item.depth) agrees
        · exact Aligned.intro { st with skipper } agrees

end Aligned

theorem Aligned.step (aligned : Aligned pipe source opts held without) (item : WorkItem)
    (rest : List WorkItem) :
    SameEnd (Aligned pipe source opts)
      (processItem lower pipe source opts { held with queue := rest } item)
      (processItem lower pipe source opts { without with queue := rest } item) := by
  cases aligned with
  | intro st agrees => exact aligned_processItem { st with queue := rest } agrees

end Steps

section Runs

variable (lower pipe source opts)

theorem aligned_runQueue (steps : ℕ) {held without : WalkState RawPom ResolvedPom}
    (aligned : Aligned pipe source opts held without) :
    Option.Rel (SameEnd (Aligned pipe source opts)) (runQueue lower pipe source opts steps held)
      (runQueue lower pipe source opts steps without) := by
  induction steps generalizing held without with
  | zero =>
    cases pending : without.queue with
    | nil =>
      rw [runQueue_of_nil 0 pending, runQueue_of_nil 0 (aligned.queue.trans pending)]
      exact Option.Rel.some (SameEnd.ok aligned)
    | cons item rest =>
      rw [runQueue_zero_of_cons pending, runQueue_zero_of_cons (aligned.queue.trans pending)]
      exact Option.Rel.none
  | succ steps ih =>
    cases pending : without.queue with
    | nil =>
      rw [runQueue_of_nil _ pending, runQueue_of_nil _ (aligned.queue.trans pending)]
      exact Option.Rel.some (SameEnd.ok aligned)
    | cons item rest =>
      rw [runQueue_succ_of_cons steps pending,
        runQueue_succ_of_cons steps (aligned.queue.trans pending)]
      have processed : SameEnd (Aligned pipe source opts)
          (processItem lower pipe source opts { held with queue := rest } item) _ :=
        aligned.step item rest
      generalize processItem lower pipe source opts { held with queue := rest }
        item = leftResult at processed ⊢
      generalize processItem lower pipe source opts { without with queue := rest }
        item = rightResult at processed ⊢
      cases processed with
      | error err => exact Option.Rel.some (SameEnd.error err)
      | ok aligned' => exact ih aligned'

theorem runQueue_oreq (sess : Option (OreqSession RawPom ResolvedPom)) (steps : ℕ)
    (st : WalkState RawPom ResolvedPom) :
    runQueue lower pipe source { opts with oreq := sess } steps st =
      runQueue lower pipe source opts steps st := by
  have sameStep : processItem lower pipe source { opts with oreq := sess } =
      processItem lower pipe source opts := rfl
  exact runQueue_congr sameStep steps st

/-- A walk with a fresh session and a walk without a session both need the same number of steps.
They fail with the same error or report the same. -/
theorem session_transparent (root : ResolvedPom) (steps : ℕ) : Option.Rel (SameEnd SameReport)
      (walk lower pipe source { opts with oreq := some {} } steps root)
      (walk lower pipe source { opts with oreq := none } steps root) := by
  have aligned : Aligned pipe source opts
      ((WalkState.new opts.enableSkipper (some {})).enqueueDirectDeps (pipe.dependencies root))
      ((WalkState.new opts.enableSkipper none).enqueueDirectDeps (pipe.dependencies root)) :=
    Aligned.intro ((WalkState.new opts.enableSkipper none).enqueueDirectDeps
      (pipe.dependencies root)) (agrees_fresh opts.activation)
  have ran := aligned_runQueue lower pipe source opts steps aligned
  simp only [walk, runQueue_oreq]
  revert ran
  generalize runQueue lower pipe source opts steps _ = leftResult
  generalize runQueue lower pipe source opts steps _ = rightResult
  intro ran
  cases ran with
  | none => exact Option.Rel.none
  | some ended =>
    cases ended with
    | error error => exact Option.Rel.some (SameEnd.error error)
    | ok aligned' => exact Option.Rel.some (SameEnd.ok aligned'.sameReport)

end Runs

end Barista.Resolver
