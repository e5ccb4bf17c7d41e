import Barista.Resolver.Explained

/-!
# The skipper is transparent

The walk that skips runs beside the one that does not: it has the same winners, and its session
lags behind by what it did not fetch.
-/

namespace Barista.Resolver

section Lagging

open Function
open Option (Rel)

variable {RawPom ResolvedPom Activation : Type} (source : MetadataSource RawPom)

structure Behind (left right : OreqSession RawPom ResolvedPom) : Prop where
  pins : left.frozenPins = right.frozenPins
  raw : left.rawPomCache = right.rawPomCache
  resolved : left.resolvedPomCache = right.resolvedPomCache
  known : ∀ key metadata, left.metadataCache key = some metadata →
    right.metadataCache key = some metadata
  fetched : ∀ key metadata, right.metadataCache key = some metadata →
    left.metadataCache key = some metadata ∨
      ∃ origin, source.fetchMetadata key.coords = .ok (metadata, origin)

def Lags :
    Option (OreqSession RawPom ResolvedPom) → Option (OreqSession RawPom ResolvedPom) → Prop :=
  Rel (Behind source)

variable {src : MetadataSource RawPom}

theorem Behind.refl (sess : OreqSession RawPom ResolvedPom) : Behind src sess sess where
  pins := rfl
  raw := rfl
  resolved := rfl
  known := fun _ _ found => found
  fetched := fun _ _ found => Or.inl found

theorem Lags.refl (sess : Option (OreqSession RawPom ResolvedPom)) : Lags src sess sess := by
  rcases sess with _ | sess
  · exact Rel.none
  · exact Rel.some (Behind.refl sess)

variable {left right : OreqSession RawPom ResolvedPom}

section Metadata

variable (behind : Behind src left right)

include behind

theorem Behind.stats (leftStats rightStats : OreqStats) :
    Behind src { left with stats := leftStats } { right with stats := rightStats } where
  pins := behind.pins
  raw := behind.raw
  resolved := behind.resolved
  known := behind.known
  fetched := behind.fetched

theorem Behind.frozenPin (coords : Coords) : left.frozenPin coords = right.frozenPin coords := by
  rw [OreqSession.frozenPin, OreqSession.frozenPin, behind.pins]

theorem Behind.depositMetadata_right {key : MetadataKey}
    {metadata : GaMetadata} {origin : FetchOrigin} (missing : right.metadataCache key = none)
    (ans : src.fetchMetadata key.coords = .ok (metadata, origin)) :
    Behind src left (right.depositMetadata key metadata origin) := by
  refine ⟨by simp [behind.pins], by simp [behind.raw], by simp [behind.resolved], ?_, ?_⟩
  · intro key' metadata' found
    rw [OreqSession.metadataCache_depositMetadata]
    have found' := behind.known key' metadata' found
    have differs : key' ≠ key := by
      rintro rfl
      rw [missing] at found'
      contradiction
    rwa [update_of_ne differs]
  · intro key' metadata' found
    rw [OreqSession.metadataCache_depositMetadata] at found
    by_cases same : key' = key
    · subst same
      rw [update_self, Option.some.injEq] at found
      rw [← found]
      exact Or.inr ⟨origin, ans⟩
    · rw [update_of_ne same] at found
      exact behind.fetched key' metadata' found

theorem Behind.depositMetadata_left {key : MetadataKey}
    {metadata : GaMetadata} (origin : FetchOrigin)
    (found : right.metadataCache key = some metadata) :
    Behind src (left.depositMetadata key metadata origin) right := by
  refine ⟨by simp [behind.pins], by simp [behind.raw], by simp [behind.resolved], ?_, ?_⟩
  · intro key' metadata' found'
    rw [OreqSession.metadataCache_depositMetadata] at found'
    by_cases same : key' = key
    · subst same
      rw [update_self] at found'
      rwa [← found']
    · rw [update_of_ne same] at found'
      exact behind.known key' metadata' found'
  · intro key' metadata' found'
    rw [OreqSession.metadataCache_depositMetadata]
    by_cases same : key' = key
    · subst same
      left
      rw [update_self, ← found, found']
    · rw [update_of_ne same]
      exact behind.fetched key' metadata' found'

end Metadata

section Requests

variable (src) (repoId : String) (coords : Coords)

variable {src}

theorem Behind.lookupMetadata (behind : Behind src left right) (key : MetadataKey) :
    Behind src (left.lookupMetadata key).2 right ∧
      Behind src left (right.lookupMetadata key).2 := by
  constructor
  · rw [OreqSession.lookupMetadata]
    split
    · exact behind.stats _ right.stats
    · exact behind
  · rw [OreqSession.lookupMetadata]
    split
    · exact behind.stats left.stats _
    · exact behind

theorem lockstep_fetchMetadataViaSession : Lockstep (Lags src)
      (fetchMetadataViaSession src repoId coords : Fetch RawPom ResolvedPom _) := by
  intro leftState rightState lags
  cases lags with
  | none =>
    rw [run_fetchMetadataViaSession_none]
    rcases src.fetchMetadata coords with _ | ans
    · exact Outcome.error _
    · exact Outcome.ok ans.1 Rel.none
  | @some left right behind =>
    rw [run_fetchMetadataViaSession_some, run_fetchMetadataViaSession_some]
    rcases leftCached : left.metadataCache ⟨repoId, coords⟩ with _ | metadata
    · rcases rightCached : right.metadataCache ⟨repoId, coords⟩ with _ | metadata
      · dsimp only
        rcases ans : src.fetchMetadata coords with _ | pair
        · exact Outcome.error _
        · refine Outcome.ok pair.1 (Rel.some ?_)
          exact (behind.depositMetadata_right rightCached ans).depositMetadata_left pair.2 (by simp)
      · rcases behind.fetched _ _ rightCached with known | ⟨origin, ans⟩
        · rw [leftCached] at known
          contradiction
        · dsimp only at ans ⊢
          rw [ans]
          exact Outcome.ok metadata (Rel.some
            ((behind.lookupMetadata _).2.depositMetadata_left origin (by
              simp [OreqSession.lookupMetadata, rightCached])))
    · rw [behind.known _ _ leftCached]
      exact Outcome.ok metadata
        (Rel.some ((behind.lookupMetadata _).1.lookupMetadata ⟨repoId, coords⟩).2)

theorem keeps_fetchMetadataViaSession (leftState : Option (OreqSession RawPom ResolvedPom)) :
    Keeps (Lags src leftState) (fetchMetadataViaSession src repoId coords) := by
  intro rightState metadata rightState' lags ret
  cases lags with
  | none =>
    rw [run_fetchMetadataViaSession_none] at ret
    rcases ans : src.fetchMetadata coords with _ | _ <;> rw [ans] at ret
    · cases ret
    · cases ret
      exact Rel.none
  | @some left right behind =>
    rw [run_fetchMetadataViaSession_some] at ret
    rcases rightCached : right.metadataCache ⟨repoId, coords⟩ with _ | _ <;> rw [rightCached] at ret
    · dsimp only at ret
      rcases ans : src.fetchMetadata coords with _ | _ <;> rw [ans] at ret
      · cases ret
      · cases ret
        exact Rel.some (behind.depositMetadata_right rightCached ans)
    · cases ret
      exact Rel.some (behind.lookupMetadata _).2

theorem steady_fetchMetadataViaSession : Steady (Lags src)
      (fetchMetadataViaSession src repoId coords : Fetch RawPom ResolvedPom _) :=
  ⟨lockstep_fetchMetadataViaSession repoId coords, keeps_fetchMetadataViaSession repoId coords⟩

theorem steady_frozenPin : Steady (Lags src) (frozenPin coords : Fetch RawPom ResolvedPom _) := by
  apply Steady.read
  intro left right lags
  cases lags with
  | none => rfl
  | some behind => exact behind.frozenPin coords

theorem steady_recordFrozenSkip :
    Steady (Lags src) (recordFrozenSkip : Fetch RawPom ResolvedPom _) := by
  apply Steady.modify
  all_goals
    intro left right lags
    cases lags with
    | none => exact Rel.none
    | some behind => exact Rel.some (behind.stats _ _)

variable (lower : String → String)

theorem steady_resolveVersion (opts : WalkOptions RawPom ResolvedPom Activation)
    (dep : RawDependency) :
    Steady (Lags src) (resolveVersion lower src opts coords dep) :=
  judges_resolveVersion (compositional_steady _) steady_frozenPin steady_recordFrozenSkip
    steady_fetchMetadataViaSession lower opts coords dep

section Poms

variable (behind : Behind src left right) (key : PomKey)

include behind key

theorem Behind.lookupParentPom : (left.lookupParentPom key).1 = (right.lookupParentPom key).1 ∧
      Behind src (left.lookupParentPom key).2 (right.lookupParentPom key).2 := by
  have same := congrFun behind.raw key
  rw [OreqSession.lookupParentPom, OreqSession.lookupParentPom]
  rcases cached : right.rawPomCache key with _ | _ <;> rw [cached] at same
  · rw [same]
    exact ⟨rfl, behind⟩
  · rw [same]
    exact ⟨rfl, behind.stats _ _⟩

theorem Behind.lookupEffectivePom :
    (left.lookupEffectivePom key).1 = (right.lookupEffectivePom key).1 ∧
      Behind src (left.lookupEffectivePom key).2 (right.lookupEffectivePom key).2 := by
  have same := congrFun behind.resolved key
  rw [OreqSession.lookupEffectivePom, OreqSession.lookupEffectivePom]
  rcases cached : right.resolvedPomCache key with _ | _ <;> rw [cached] at same
  · rw [same]
    exact ⟨rfl, behind⟩
  · rw [same]
    exact ⟨rfl, behind.stats _ _⟩

theorem Behind.depositParentPom (pom : RawPom) :
    Behind src (left.depositParentPom key pom) (right.depositParentPom key pom) := by
  refine ⟨behind.pins, ?_, behind.resolved, behind.known, behind.fetched⟩
  exact congrArg (fun cache => update cache key (some pom)) behind.raw

theorem Behind.depositEffectivePom (res : ResolvedPom) :
    Behind src (left.depositEffectivePom key res) (right.depositEffectivePom key res) := by
  refine ⟨behind.pins, behind.raw, ?_, behind.known, behind.fetched⟩
  exact congrArg (fun cache => update cache key (some res)) behind.resolved

end Poms

theorem lockstep_session {α : Type} {without : Fetch RawPom ResolvedPom α}
    {inside : OreqSession RawPom ResolvedPom → Fetch RawPom ResolvedPom α}
    (outside : Lockstep (Lags src) without) (related : ∀ left right, Behind src left right →
      Outcome (Lags src) ((inside left).run (some left)) ((inside right).run (some right))) :
    Lockstep (Lags src) (do
      match ← get with
      | none => without
      | some sess => inside sess) := by
  intro leftState rightState lags
  cases lags with
  | none => exact outside none none Rel.none
  | some behind => exact related _ _ behind

theorem lockstep_fetchPomViaSession (wrap : MetadataError → WalkError) (version : String) :
    Lockstep (Lags src)
      (fetchPomViaSession src wrap coords version : Fetch RawPom ResolvedPom _) := by
  apply lockstep_session
  · apply (judges_liftSource (compositional_lockstep _) wrap _).bind
    intro ans
    exact Lockstep.pure _
  · intro left right behind
    have looked := behind.lookupParentPom { coords, version }
    generalize left.lookupParentPom { coords, version } = leftLooked at looked ⊢
    generalize right.lookupParentPom { coords, version } = rightLooked at looked ⊢
    rcases leftLooked with ⟨found, left'⟩
    rcases rightLooked with ⟨found', right'⟩
    rcases looked with ⟨rfl, behind'⟩
    rcases found with _ | pom
    · rcases src.fetchPom coords version with _ | ans
      · exact Outcome.error _
      · exact Outcome.ok ans.1 (Rel.some (behind'.depositParentPom _ ans.1))
    · exact Outcome.ok pom (Rel.some behind')

variable (pipe : PomPipeline RawPom ResolvedPom Activation) (act : Activation)

theorem lockstep_resolveChildPom (ver : String) (raw : RawPom) :
    Lockstep (Lags src) (resolveChildPom pipe src act coords ver raw) :=
  judges_resolveChildPom (compositional_lockstep _)
    (fun wrap coords ver => lockstep_fetchPomViaSession coords wrap ver)
    pipe act coords ver raw

theorem lockstep_fetchResolvedChild (version : String) :
    Lockstep (Lags src) (fetchResolvedChild pipe src act coords version) := by
  have deposit : ∀ (key : PomKey) (res : ResolvedPom), Lockstep (Lags src)
      (modify fun sess => sess.map fun sess =>
        sess.depositEffectivePom key res : Fetch RawPom ResolvedPom Unit) := by
    intro key res
    apply Lockstep.modify
    intro left right lags
    cases lags with
    | none => exact Rel.none
    | some behind => exact Rel.some (behind.depositEffectivePom key res)
  apply lockstep_session
  · apply (judges_liftSource (compositional_lockstep _) _ _).bind
    intro ans
    exact lockstep_resolveChildPom coords pipe act version ans.1
  · intro left right behind
    have looked := behind.lookupEffectivePom { coords, version }
    generalize left.lookupEffectivePom { coords, version } = leftLooked at looked ⊢
    generalize right.lookupEffectivePom { coords, version } = rightLooked at looked ⊢
    rcases leftLooked with ⟨found, left'⟩
    rcases rightLooked with ⟨found', right'⟩
    rcases looked with ⟨rfl, behind'⟩
    cases found with
    | some res =>
      exact Outcome.ok res (Rel.some (behind'.lookupParentPom _).2)
    | none =>
      have fresh : Lockstep (Lags src) (do
          let raw ← fetchPomViaSession src .metadata coords version
          let res ← resolveChildPom pipe src act coords version raw
          modify fun sess => sess.map fun sess =>
            sess.depositEffectivePom { coords, version } res
          return res) := by
        apply (lockstep_fetchPomViaSession coords _ version).bind
        intro raw
        apply (lockstep_resolveChildPom coords pipe act version raw).bind
        intro res
        apply (deposit _ res).bind
        intro _
        exact Lockstep.pure _
      exact fresh _ _ (Rel.some behind)

end Requests

end Lagging

variable {RawPom ResolvedPom Activation : Type}

structure Beside (source : MetadataSource RawPom)
    (skipping plain : WalkState RawPom ResolvedPom) : Prop where
  queue : skipping.queue = plain.queue
  winners : skipping.winners = plain.winners
  order : skipping.order = plain.order
  session : Lags source skipping.session plain.session
  disabled : plain.skipper.enabled = false
  leaves : ∀ coords ∈ skipping.skipper.knownLeaves, coords ∈ skipping.winners

variable {lower : String → String}
  {pipe : PomPipeline RawPom ResolvedPom Activation} {src : MetadataSource RawPom}
  {item : WorkItem} {coords : Coords}
  {skipping plain plain' : WalkState RawPom ResolvedPom}
  {opts : WalkOptions RawPom ResolvedPom Activation}

section Beside

variable (beside : Beside src skipping plain)

include beside

theorem Beside.addWinner (dep : ResolvedDep) :
    Beside src (skipping.addWinner dep) (plain.addWinner dep) where
  queue := beside.queue
  winners := by rw [WalkState.addWinner, WalkState.addWinner, beside.winners]
  order := by rw [WalkState.addWinner, WalkState.addWinner, beside.winners, beside.order]
  session := beside.session
  disabled := beside.disabled
  leaves := by
    intro coords leaf
    rw [WalkState.addWinner, Std.ExtTreeMap.mem_insert]
    exact Or.inr (beside.leaves coords leaf)

theorem Beside.recordVisit
    (exclusions : List RawExclusion) (wasLeaf : Bool) (wins : coords ∈ skipping.winners) :
    Beside src (skipping.recordVisit coords exclusions wasLeaf)
      (plain.recordVisit coords exclusions wasLeaf) where
  queue := beside.queue
  winners := beside.winners
  order := beside.order
  session := beside.session
  disabled := (SkipperState.enabled_recordVisit wasLeaf).trans beside.disabled
  leaves := by
    intro coords' leaf
    rcases SkipperState.mem_knownLeaves_recordVisit leaf with rfl | old
    · exact wins
    · exact beside.leaves coords' old

theorem Beside.resolved
    {left right : Option (OreqSession RawPom ResolvedPom)} (lags : Lags src left right)
    (leftWarnings rightWarnings : List SpecWarning) :
    Beside src { skipping with session := left, warnings := leftWarnings }
      { plain with session := right, warnings := rightWarnings } :=
  ⟨beside.queue, beside.winners, beside.order, lags, beside.disabled, beside.leaves⟩

theorem Beside.addSkipped (coords : Coords)
    (item : WorkItem) : Beside src (skipping.addSkipped coords item) plain := by
  rw [WalkState.addSkipped]
  split
  · exact ⟨beside.queue, beside.winners, beside.order, beside.session, beside.disabled,
      beside.leaves⟩
  · exact beside

theorem Beside.decided (coords : Coords) (depth : ℕ) (pathExclusions : ExclusionSet) : Beside src
      { skipping with
        skipper := (skipping.skipper.decide coords depth pathExclusions skipping.winners).2 }
      { plain with skipper := plain.skipper.countWalk } where
  queue := beside.queue
  winners := beside.winners
  order := beside.order
  session := beside.session
  disabled := beside.disabled
  leaves := by
    intro coords' leaf
    rw [SkipperState.knownLeaves_decide] at leaf
    exact beside.leaves coords' leaf

theorem beside_expand {scope : Scope} {ver fetch : String}
    (ret : expand pipe src opts plain item coords scope ver fetch = .ok plain') :
    ∃ skipping', expand pipe src opts skipping item coords scope ver
        fetch = .ok skipping' ∧ Beside src skipping' plain' := by
  have entered := beside.addWinner (item.record coords scope ver)
  have wins : coords ∈ (skipping.addWinner (item.record coords scope ver)).winners := by
    rw [WalkState.addWinner, Std.ExtTreeMap.mem_insert]
    exact Or.inl (Std.LawfulEqOrd.compare_eq_iff_eq.mpr rfl)
  unfold expand at ret ⊢
  by_cases system : scope = .system
  · rw [if_pos system] at ret ⊢
    cases ret
    exact ⟨_, rfl, entered.recordVisit item.exclusions true wins⟩
  · rw [if_neg system] at ret ⊢
    have fetched := lockstep_fetchResolvedChild coords pipe opts.activation fetch
      _ _ entered.session
    dsimp only at ret ⊢
    generalize (fetchResolvedChild pipe src opts.activation coords fetch).run
      (plain.addWinner (item.record coords scope ver)).session = right at fetched ret
    generalize (fetchResolvedChild pipe src opts.activation coords fetch).run
      (skipping.addWinner (item.record coords scope ver)).session = left at fetched ⊢
    cases fetched with
    | error err => cases ret
    | ok res lags =>
      cases ret
      refine ⟨_, rfl, Beside.recordVisit ?_ item.exclusions _ wins⟩
      exact ⟨by rw [entered.queue], entered.winners, entered.order, lags, entered.disabled,
        entered.leaves⟩

theorem beside_nearestWins {scope : Scope} {ver fetch : String}
    (ret : nearestWins pipe src opts plain item coords scope ver fetch = .ok plain') :
    ∃ skipping', nearestWins pipe src opts skipping item coords scope ver
        fetch = .ok skipping' ∧ Beside src skipping' plain' := by
  unfold nearestWins at ret ⊢
  rw [beside.winners]
  rcases found : plain.winners[coords]? with _ | existing <;> rw [found] at ret
  · exact beside_expand beside ret
  · dsimp only at ret ⊢
    by_cases loses : existing.depth ≤ item.depth
    · rw [if_pos loses] at ret ⊢
      cases ret
      exact ⟨_, rfl, beside.queue, beside.winners, beside.order, beside.session,
        beside.disabled, beside.leaves⟩
    · rw [if_neg loses] at ret ⊢
      have lost : Beside src (skipping.addLoser coords existing.version existing.depth)
          (plain.addLoser coords existing.version existing.depth) :=
        ⟨beside.queue, beside.winners, beside.order, beside.session, beside.disabled, beside.leaves⟩
      exact beside_expand lost ret

theorem beside_visit (ret : visit lower pipe src opts plain item coords = .ok plain') :
    ∃ skipping', visit lower pipe src opts skipping item coords =
        .ok skipping' ∧ Beside src skipping' plain' := by
  unfold visit at ret ⊢
  rcases hasScope : item.effectiveScope with _ | _ <;> rw [hasScope] at ret
  · cases ret
    exact ⟨_, rfl, beside⟩
  · dsimp only at ret ⊢
    split at ret
    case isTrue stripped =>
      rw [if_pos stripped]
      cases ret
      exact ⟨_, rfl, beside⟩
    case isFalse kept =>
      rw [if_neg kept]
      have res := (steady_resolveVersion coords lower opts item.dep).lockstep _ _ beside.session
      generalize (resolveVersion lower src opts coords item.dep).run plain.session =
        right at res ret
      generalize (resolveVersion lower src opts coords item.dep).run
        skipping.session = left at res ⊢
      cases res with
      | error err => cases ret
      | ok ans lags =>
        exact beside_nearestWins (beside.resolved lags _ _) ret

theorem beside_visit_left_out {win : ResolvedDep}
    (found : plain.winners[coords]? = some win) (nearer : win.depth ≤ item.depth)
    (ret : visit lower pipe src opts plain item coords = .ok plain') :
    Beside src skipping plain' := by
  unfold visit at ret
  rcases hasScope : item.effectiveScope with _ | scope <;> rw [hasScope] at ret
  · cases ret
    exact beside
  · dsimp only at ret
    split at ret
    · cases ret
      exact beside
    · have steady : Steady (Lags src) (resolveVersion lower src opts coords item.dep) :=
        steady_resolveVersion coords lower opts item.dep
      have kept := steady.keeps skipping.session plain.session
      generalize (resolveVersion lower src opts coords item.dep).run plain.session =
        right at kept ret
      rcases right with _ | ans
      · cases ret
      · have lags := kept ans.1 ans.2 beside.session rfl
        let asked : WalkState RawPom ResolvedPom :=
          { plain with session := ans.2, warnings := plain.warnings ++ ans.1.2.2 }
        have foundAsked : asked.winners[coords]? = some win := found
        have loses : nearestWins pipe src opts asked item coords scope ans.1.1
            ans.1.2.1 = .ok (asked.addLoser coords ans.1.1 item.depth) :=
          nearestWins_of_le foundAsked nearer scope ans.1.1 ans.1.2.1
        cases loses.symm.trans ret
        exact ⟨beside.queue, beside.winners, beside.order, lags, beside.disabled, beside.leaves⟩

section Skips

variable
  (layered : ∀ (coords : Coords) (win : ResolvedDep), plain.winners[coords]? = some win →
    win.depth ≤ item.depth)

include layered

theorem Beside.winner_of_skip {pathExclusions : ExclusionSet} {reason : SkipReason}
    (skips : (skipping.skipper.decide coords item.depth pathExclusions skipping.winners).1 =
      .skip reason) :
    ∃ win, plain.winners[coords]? = some win ∧ win.depth ≤ item.depth := by
  rcases SkipperState.of_decide_skip skips with leaf | ⟨win, found, shallower⟩
  · have wins := beside.leaves coords leaf
    rw [beside.winners, Std.ExtTreeMap.mem_iff_isSome_getElem?, Option.isSome_iff_exists] at wins
    rcases wins with ⟨win, found⟩
    exact ⟨win, found, layered coords win found⟩
  · rw [beside.winners] at found
    exact ⟨win, found, shallower.le⟩

theorem beside_processItem (ret : processItem lower pipe src opts plain item = .ok plain') :
    ∃ skipping', processItem lower pipe src opts skipping item = .ok skipping' ∧
      Beside src skipping' plain' := by
  unfold processItem at ret ⊢
  rcases identity : Coords.new item.dep.groupId item.dep.artifactId with _ | coords
  · rw [identity] at ret
    cases ret
  · rw [identity] at ret
    dsimp only at ret ⊢
    split at ret
    case isTrue excluded =>
      rw [if_pos excluded]
      cases ret
      exact ⟨_, rfl, beside⟩
    case isFalse included =>
      rw [if_neg included]
      rw [SkipperState.decide_of_disabled beside.disabled] at ret
      have decided := beside.decided coords item.depth (ExclusionSet.fromRaw item.exclusions)
      cases decision : (skipping.skipper.decide coords item.depth
          (ExclusionSet.fromRaw item.exclusions) skipping.winners).1 with
      | walk => exact beside_visit decided ret
      | skip reason =>
        rcases beside.winner_of_skip layered decision with ⟨win, found, nearer⟩
        have leftOut := beside_visit_left_out decided found nearer ret
        exact ⟨_, rfl, leftOut.addSkipped coords item⟩

end Skips

end Beside

section Runs

variable (lower pipe src opts)

theorem beside_runQueue {steps : ℕ} {skipping plain plain' : WalkState RawPom ResolvedPom}
    (beside : Beside src skipping plain) (layered : Layered plain.winners plain.queue)
    (ret : runQueue lower pipe src opts steps plain = some (.ok plain')) :
    ∃ skipping', runQueue lower pipe src opts steps skipping =
        some (.ok skipping') ∧ Beside src skipping' plain' := by
  induction steps generalizing skipping plain with
  | zero =>
    rcases pending : plain.queue with _ | _
    · rw [runQueue_of_nil 0 pending] at ret
      cases ret
      exact ⟨skipping, runQueue_of_nil 0 (beside.queue.trans pending), beside⟩
    · rw [runQueue_zero_of_cons pending] at ret
      cases ret
  | succ steps ih =>
    rcases pending : plain.queue with _ | ⟨item, rest⟩
    · rw [runQueue_of_nil _ pending] at ret
      cases ret
      exact ⟨skipping, runQueue_of_nil _ (beside.queue.trans pending), beside⟩
    · rw [pending] at layered
      rw [runQueue_succ_of_cons _ pending] at ret
      rw [runQueue_succ_of_cons _ (beside.queue.trans pending)]
      have popped : Beside src { skipping with queue := rest } { plain with queue := rest } :=
        ⟨rfl, beside.winners, beside.order, beside.session, beside.disabled, beside.leaves⟩
      cases processed : processItem lower pipe src opts { plain with queue := rest } item with
      | error err =>
        rw [processed] at ret
        cases ret
      | ok next =>
        rw [processed] at ret
        have below : ∀ (coords : Coords) (win : ResolvedDep),
            plain.winners[coords]? = some win → win.depth ≤ item.depth :=
          fun coords win found =>
            layered.below coords win found item List.mem_cons_self
        rcases beside_processItem popped below processed with
          ⟨skippingNext, skippingProcessed, besideNext⟩
        rw [skippingProcessed]
        have layeredPopped : Layered ({ plain with queue := rest } :
            WalkState RawPom ResolvedPom).winners (item :: rest) := layered
        exact ih besideNext (layeredPopped.step processed) ret

theorem runQueue_enableSkipper (enabled : Bool) (steps : ℕ) (st : WalkState RawPom ResolvedPom) :
    runQueue lower pipe src { opts with enableSkipper := enabled } steps st =
      runQueue lower pipe src opts steps st := by
  have sameStep : processItem lower pipe src { opts with enableSkipper := enabled } =
      processItem lower pipe src opts := rfl
  exact runQueue_congr sameStep steps st

theorem beside_initial (sess : Option (OreqSession RawPom ResolvedPom))
    (deps : List RawDependency) :
    Beside src ((WalkState.new true sess).enqueueDirectDeps deps)
      ((WalkState.new false sess).enqueueDirectDeps deps) where
  queue := rfl
  winners := rfl
  order := rfl
  session := Lags.refl sess
  disabled := rfl
  leaves := by
    intro coords leaf
    cases leaf

/-- If the walk without the skipper returns a graph, the walk with it returns one with the
same winners and the same resolved list. -/
theorem skipper_transparent (root : ResolvedPom) (graph : ResolvedGraph)
    (returned : WalkReturns lower pipe src { opts with enableSkipper := false } root (.ok graph)) :
    ∃ graph', WalkReturns lower pipe src { opts with enableSkipper := true } root (.ok graph') ∧
      graph'.winners = graph.winners ∧ graph'.resolved = graph.resolved := by
  rcases returned with ⟨steps, walked⟩
  rw [walk, runQueue_enableSkipper] at walked
  rcases Option.map_eq_some_iff.mp walked with ⟨result, ran, finished⟩
  rcases result with _ | plain
  · cases finished
  · have graphEq : plain.finish = graph := Except.ok.inj finished
    rcases beside_runQueue lower pipe src opts
      (beside_initial src opts.oreq (pipe.dependencies root))
      (layered_direct _) ran with ⟨skipping, skippingRan, beside⟩
    refine ⟨skipping.finish, ⟨steps, ?_⟩, ?_, ?_⟩
    · rw [walk, runQueue_enableSkipper]
      dsimp only
      rw [skippingRan]
      rfl
    · rw [← graphEq]
      exact beside.winners
    · rw [← graphEq, WalkState.finish, WalkState.finish, beside.winners, beside.order]

end Runs

theorem skipper_transparent_diamond : ∃ graph graph',
      graph.resolved.map (fun dep => (dep.coords.artifact, dep.version)) =
        [("a", "1.0"), ("b", "1.0"), ("c", "1.0")] ∧
      WalkReturns Version.asciiLowercase plainPipeline diamondSource
        { activation := (), enableSkipper := false } diamondRoot (.ok graph) ∧
      WalkReturns Version.asciiLowercase plainPipeline diamondSource
        { activation := (), enableSkipper := true } diamondRoot (.ok graph') ∧
      graph'.winners = graph.winners ∧ graph'.resolved = graph.resolved := by
  rcases walkReturns_diamond with ⟨graph, listed, returned⟩
  rcases skipper_transparent Version.asciiLowercase plainPipeline diamondSource
    { activation := () } diamondRoot graph returned with
    ⟨graph', returned', winners, order⟩
  exact ⟨graph, graph', listed, returned, returned', winners, order⟩

end Barista.Resolver
