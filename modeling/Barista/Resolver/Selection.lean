import Barista.Resolver.Completeness

/-!
# The version that a requirement selects

A pin of the session goes before everything but a range that does not contain it.  Without a pin, a
range selects the last of its greatest published versions, and `RELEASE` the last version that does
not end in `-SNAPSHOT`.  Neither is what the order and the snapshot test of versions would select:
the order is not transitive, and the snapshot test does not distinguish cases.
-/

namespace Barista

open List

section Maximum

variable {α : Type} {cmp : α → α → Ordering} {list : List α} {best other : α}

/-- An element that no element exceeds. -/
def Top (cmp : α → α → Ordering) (list : List α) (best : α) : Prop :=
  best ∈ list ∧ ∀ other ∈ list, cmp other best ≠ .gt

namespace Resolver

theorem maxBy_concat (cmp : α → α → Ordering) (list : List α) (last : α) :
    maxBy cmp (list ++ [last]) =
      some ((maxBy cmp list).elim last fun best => if cmp best last = .gt then best else last) := by
  cases list <;> simp [maxBy]

theorem mem_of_maxBy (found : maxBy cmp list = some best) : best ∈ list := by
  induction list using List.reverseRecOn generalizing best with
  | nil => cases found
  | append_singleton front last ih =>
    rw [maxBy_concat, Option.some.injEq] at found
    rcases prior : maxBy cmp front with _ | _
    · simp_all
    · grind

/-- The maximum is an element that no element exceeds, in whatever order the elements are compared,
exactly if there is such an element and those that do not fall below one are such elements too. -/
theorem top_maxBy_iff [DecidableEq α] :
    (∀ order, order.Perm list → ∀ best, maxBy cmp order = some best → Top cmp list best) ↔
      (list ≠ [] → ∃ best, Top cmp list best) ∧
        ∀ best other, Top cmp list best → other ∈ list → cmp best other ≠ .gt →
          Top cmp list other := by
  constructor
  · intro selects
    refine ⟨?_, ?_⟩
    · intro ne
      rcases exists_cons_of_ne_nil ne with ⟨first, rest, rfl⟩
      exact ⟨_, selects _ (.refl _) _ rfl⟩
    · intro best other top mem above
      by_cases same : other = best
      · exact same ▸ top
      · -- The two elements come last.
        have inner := perm_cons_erase ((mem_erase_of_ne same).mpr mem)
        have perm : ((list.erase best).erase other ++ [best] ++ [other]).Perm list := by
          rw [append_assoc]
          exact (perm_append_comm.trans (inner.symm.cons best)).trans (perm_cons_erase top.1).symm
        refine selects _ perm other ?_
        rw [maxBy_concat, maxBy_concat]
        rcases prior : maxBy cmp ((list.erase best).erase other) with _ | first
        · simp [above]
        · have below := top.2 first (perm.subset (by simp [mem_of_maxBy prior]))
          simp [below, above]
  · rintro ⟨exists_top, closed⟩ order perm best found
    have reached : ∀ front back, order = front ++ back → ∀ best, maxBy cmp front = some best →
        (∃ top ∈ front, Top cmp list top) → Top cmp list best := by
      intro front
      induction front using List.reverseRecOn with
      | nil => simp [maxBy]
      | append_singleton front last ih =>
        intro back split best found among
        have inside : ∀ elem ∈ front ++ [last], elem ∈ list := fun elem mem =>
          perm.subset (split ▸ mem_append_left _ mem)
        rw [maxBy_concat, Option.some.injEq] at found
        rcases prior : maxBy cmp front with _ | first
        · have empty : front = [] := by cases front <;> simp_all [maxBy]
          simp_all
        · have there := inside first (mem_append_left _ (mem_of_maxBy prior))
          simp only [prior, Option.elim_some] at found
          rcases among with ⟨top, mem, isTop⟩
          have split' : order = front ++ (last :: back) := by simp [split]
          rcases mem_append.mp mem with old | new
          · have best' := ih (last :: back) split' first prior ⟨top, old, isTop⟩
            split_ifs at found with exceeds
            · exact found ▸ best'
            · exact found ▸ closed first last best' (inside last (by simp)) exceeds
          · rw [mem_singleton.mp new] at isTop
            rw [if_neg (isTop.2 first there)] at found
            exact found ▸ isTop
    have ne : list ≠ [] := by
      rintro rfl
      simp [perm.eq_nil, maxBy] at found
    rcases exists_top ne with ⟨top, isTop⟩
    exact reached order [] (by simp) best found ⟨top, perm.mem_iff.mpr isTop.1, isTop⟩

end Resolver

end Maximum

namespace Resolver

section Requirements

variable {RawPom ResolvedPom : Type} (lower : String → String)

/-- A source that lists the same versions of everything. -/
def publishing (pom : Except MetadataError (RawPom × FetchOrigin)) (versions : List String) :
    MetadataSource RawPom where
  fetchPom := fun _ _ => pom
  fetchMetadata := fun coords => .ok ({ coords, versions }, .fixture)
  fetchSnapshotInfo := fun coords _ => .error (.metadataNotFound coords.display)

def compareTexts (left right : String) : Ordering :=
  (Version.parse lower left).cmp (Version.parse lower right)

variable (ResolvedPom) in
/-- A session without a pin for the package, and the versions that it is told. -/
structure Listing (source : MetadataSource RawPom) (repoId : String) (coords : Coords)
    (versions : List String) where
  session : Option (OreqSession RawPom ResolvedPom)
  unpinned : (session.bind fun session => session.frozenPin coords) = none
  metadata : GaMetadata
  after : Option (OreqSession RawPom ResolvedPom)
  listed : (fetchMetadataViaSession source repoId coords).run session = .ok (metadata, after)
  versions : metadata.versions = versions

variable {source : MetadataSource RawPom} {repoId : String} {coords : Coords}
  {versions : List String}

/-- The version that a requirement is resolved to. -/
def Listing.selects (listing : Listing ResolvedPom source repoId coords versions)
    (spec : VersionSpec) : Option String :=
  ((resolveSpec lower source repoId coords spec).run listing.session).toOption.map (·.1.1)

variable (ResolvedPom) in
def Listing.ofSource (pom : Except MetadataError (RawPom × FetchOrigin)) (repoId : String)
    (coords : Coords) (versions : List String) :
    Listing ResolvedPom (publishing pom versions) repoId coords versions where
  session := none
  unpinned := rfl
  metadata := { coords, versions }
  after := none
  listed := rfl
  versions := rfl

variable (RawPom ResolvedPom) in
/-- A source that has no POM. -/
def Listing.silent (versions : List String) :
    Listing ResolvedPom (publishing (.error (.metadataNotFound "") :
      Except MetadataError (RawPom × FetchOrigin)) versions) "" ⟨"", ""⟩ versions :=
  .ofSource ResolvedPom _ _ _ _

namespace Listing

variable (listing : Listing ResolvedPom source repoId coords versions)

theorem run_listed : (fetchMetadataViaSession source repoId coords).run listing.session =
    pure (listing.metadata, listing.after) :=
  listing.listed

theorem selects_hard (intervals : List Interval) : listing.selects lower (.hard intervals) =
      maxBy (compareTexts lower) (versions.filter (intervalContains lower intervals)) := by
  simp only [selects, resolveSpec, frozenPin, StateT.run_bind, StateT.run_get, pure_bind,
    StateT.run_pure, listing.unpinned, Option.filter_none, listing.run_listed, listing.versions]
  change _ = maxBy (fun left right =>
    (Version.parse lower left).cmp (Version.parse lower right)) _
  cases maxBy _ (versions.filter (intervalContains lower intervals)) <;> rfl

theorem selects_release : listing.selects lower .release =
      versions.reverse.find? fun ver => !Text.endsWith ver "-SNAPSHOT" := by
  simp only [selects, resolveSpec, frozenPin, StateT.run_bind, StateT.run_get, pure_bind,
    StateT.run_pure, listing.unpinned, listing.run_listed, listing.versions]
  cases versions.reverse.find? fun ver => !Text.endsWith ver "-SNAPSHOT" <;> rfl

end Listing

/-- A range selects a published version that no other one in the range exceeds, in whatever order
they are listed, exactly if there is such a version, and a version that does not fall below one is
one. -/
theorem range_selects_greatest_iff (intervals : List Interval) (published : List String) :
    (∀ (source : MetadataSource RawPom) (repoId : String) (coords : Coords) (versions : List String)
      (listing : Listing ResolvedPom source repoId coords versions), versions.Perm published →
        ∀ ver, listing.selects lower (.hard intervals) = some ver →
          ver ∈ published ∧ intervalContains lower intervals ver = true ∧
            ∀ other ∈ published, intervalContains lower intervals other = true →
              compareTexts lower other ver ≠ .gt) ↔
      (published.filter (intervalContains lower intervals) ≠ [] →
        ∃ best, Top (compareTexts lower)
          (published.filter (intervalContains lower intervals)) best) ∧
      ∀ best other, Top (compareTexts lower)
          (published.filter (intervalContains lower intervals)) best →
        other ∈ published.filter (intervalContains lower intervals) →
        compareTexts lower best other ≠ .gt → Top (compareTexts lower)
            (published.filter (intervalContains lower intervals)) other := by
  have top_iff : ∀ ver, Top (compareTexts lower)
      (published.filter (intervalContains lower intervals)) ver ↔
        ver ∈ published ∧ intervalContains lower intervals ver = true ∧
          ∀ other ∈ published, intervalContains lower intervals other = true →
            compareTexts lower other ver ≠ .gt := by
    intro ver
    simp only [Top, mem_filter, and_assoc, and_imp]
  rw [← top_maxBy_iff]
  simp only [← top_iff]
  constructor
  · intro selects order perm best found
    let versions := order ++ published.filter fun ver =>
      !intervalContains lower intervals ver
    have inRange : versions.filter (intervalContains lower intervals) = order := by
      have inside : order.filter (intervalContains lower intervals) = order :=
        filter_eq_self.mpr fun ver member =>
          (mem_filter.mp (perm.subset member)).2
      simp [versions, inside, filter_filter]
    refine selects _ _ _ versions (.silent RawPom ResolvedPom versions) ?_ best ?_
    · exact (perm.append_right _).trans (filter_append_perm _ _)
    · rw [Listing.selects_hard, inRange, found]
  · intro selects source repoId coords versions listing perm ver found
    rw [listing.selects_hard] at found
    exact selects _ (perm.filter _) ver found

/-- The versions `1`, `1-x` and `1-0.beta` are in a cycle, and the last one is selected. -/
theorem range_selects_exceeded :
    (Listing.silent (List RawDependency) (List RawDependency) ["1", "1-x", "1-0.beta"]).selects
      Version.asciiLowercase (.hard [⟨.unbounded, .unbounded⟩]) = some "1-0.beta" ∧
    compareTexts Version.asciiLowercase "1" "1-0.beta" = .gt := by
  decide +kernel

/-- The last version that is not a snapshot by its own account. -/
def lastRelease (versions : List String) : Option String :=
  versions.reverse.find? fun version => !(Version.parse lower version).isSnapshot

theorem isSnapshot_of_endsWith {ver : String} (ends : Text.endsWith ver "-SNAPSHOT" = true) :
    (Version.parse lower ver).isSnapshot = true := by
  rw [Text.endsWith, isSuffixOf_iff_suffix] at ends
  rw [Version.isSnapshot, isSuffixOf_iff_suffix]
  exact ends.map Char.toLower

theorem find?_eq_find?_iff {α : Type} {weak strong : α → Bool} {list : List α}
    (implies : ∀ elem, strong elem = true → weak elem = true) :
    list.find? weak = list.find? strong ↔ ∀ front elem back, list = front ++ elem :: back →
      weak elem = true → strong elem = false → ∃ other ∈ front, strong other = true := by
  induction list with
  | nil => simp
  | cons first rest ih =>
    rcases strict : strong first with _ | _
    · rw [find?_cons_of_neg (p := strong) (by simp [strict])]
      rcases lax : weak first with _ | _
      · rw [find?_cons_of_neg (by simp [lax]), ih]
        constructor
        · intro found front elem back split accepted refused
          rcases front with _ | ⟨_, front⟩
          · grind
          · have split' : rest = front ++ elem :: back := by simpa using (List.cons.inj split).2
            rcases found front elem back split' accepted refused with ⟨later, mem, good⟩
            exact ⟨later, mem_cons_of_mem _ mem, good⟩
        · intro found front elem back split accepted refused
          rcases found (first :: front) elem back (by simp [split]) accepted refused with
            ⟨later, mem, good⟩
          rcases mem_cons.mp mem with rfl | mem
          · simp [strict] at good
          · exact ⟨later, mem, good⟩
      · -- The first element is found on one side only.
        rw [find?_cons_of_pos lax]
        constructor
        · intro same
          have := find?_some same.symm
          simp [strict] at this
        · intro found
          simpa using found [] first rest rfl lax strict
    · rw [find?_cons_of_pos strict, find?_cons_of_pos (implies first strict)]
      refine iff_of_true rfl fun front elem back split accepted refused => ?_
      rcases front with _ | ⟨other, _⟩
      · grind
      · exact ⟨other, mem_cons_self, (List.cons.inj split).1 ▸ strict⟩

/-- `RELEASE` is the last version that is not a snapshot exactly if no version after the last
release is a snapshot that is not written in capitals. -/
theorem release_selects_last_release_iff (versions : List String) :
    (∀ (source : MetadataSource RawPom) (repoId : String) (coords : Coords)
      (listing : Listing ResolvedPom source repoId coords versions),
        listing.selects lower .release = lastRelease lower versions) ↔
      ∀ before ver after, versions = before ++ ver :: after →
        (Version.parse lower ver).isSnapshot = true →
        Text.endsWith ver "-SNAPSHOT" = false →
          ∃ later ∈ after, (Version.parse lower later).isSnapshot = false := by
  have all_iff : (∀ (source : MetadataSource RawPom) (repoId : String) (coords : Coords)
      (listing : Listing ResolvedPom source repoId coords versions),
        listing.selects lower .release = lastRelease lower versions) ↔
      versions.reverse.find? (fun ver => !Text.endsWith ver "-SNAPSHOT") =
        lastRelease lower versions := by
    constructor
    · intro selects
      rw [← (Listing.silent RawPom ResolvedPom versions).selects_release lower]
      exact selects _ _ _ _
    · intro same source repoId coords listing
      rw [listing.selects_release, same]
  rw [all_iff, lastRelease, find?_eq_find?_iff]
  · constructor
    · intro found before ver after split snapshot ends
      rcases found after.reverse ver before.reverse (by simp [split]) (by simp [ends])
        (by simp [snapshot]) with ⟨later, member, release⟩
      exact ⟨later, mem_reverse.mp member, by simpa using release⟩
    · intro found front ver back split ends snapshot
      have split' : versions = back.reverse ++ ver :: front.reverse := by
        rw [← versions.reverse_reverse, split]
        simp
      rcases found _ _ _ split' (by simpa using snapshot) (by simpa using ends) with
        ⟨later, member, release⟩
      exact ⟨later, mem_reverse.mp member, by simpa using release⟩
  · intro ver release
    by_contra ends
    simp [isSnapshot_of_endsWith lower (by simpa using ends)] at release

/-- A snapshot in lower-case letters is taken for a release. -/
theorem release_selects_lower_case_snapshot :
    (Listing.silent (List RawDependency) (List RawDependency) ["1.0", "2.0-snapshot"]).selects
      Version.asciiLowercase .release = some "2.0-snapshot" ∧
    lastRelease Version.asciiLowercase ["1.0", "2.0-snapshot"] = some "1.0" := by
  decide

end Requirements

section Pins

variable {RawPom ResolvedPom Activation : Type} {lower : String → String}
  {source : MetadataSource RawPom} {repoId pin ver : String} {coords : Coords}
  {spec : VersionSpec} {warnings : List SpecWarning} {text : String} {intervals : List Interval}
  {session after : Option (OreqSession RawPom ResolvedPom)}

theorem eq_pin_of_resolveSpec (res : (resolveSpec lower source repoId coords spec).run session =
      .ok ((ver, warnings), after))
    (pinned : (session.bind fun session => session.frozenPin coords) = some pin)
    (within : ∀ intervals, spec = .hard intervals → intervalContains lower intervals pin = true ∨
        ∀ ver, intervalContains lower intervals ver = false) : ver = pin := by
  cases spec with
  | hard intervals =>
    simp only [resolveSpec, frozenPin, StateT.run_bind, StateT.run_get, pure_bind, StateT.run_pure,
      pinned, Option.filter_some] at res
    rcases within intervals rfl with inside | empty
    · rw [if_pos inside] at res
      cases res
      rfl
    · rw [if_neg (by simp [empty])] at res
      rcases run_bind_eq_ok.mp res with ⟨metadata, between, -, res⟩
      have nothing : metadata.versions.filter (intervalContains lower intervals) = [] := by
        simp [empty]
      rw [nothing] at res
      cases res
  | soft _ | latest | release =>
    simp only [resolveSpec, frozenPin, StateT.run_bind, StateT.run_get, pure_bind, StateT.run_pure,
      pinned] at res
    cases res
    rfl

def pinnedDep (text : String) : RawDependency :=
  { groupId := "org.example", artifactId := "core", version := some text, scope := some "system" }

def pinnedOptions (pin : String) : WalkOptions (List RawDependency) (List RawDependency) Unit :=
  { activation := (), enableSkipper := false,
    oreq := some { frozenPins := some fun _ => some pin } }

def pinnedSource (version : String) : MetadataSource (List RawDependency) :=
  publishing (.ok ([], .fixture)) [version]

theorem resolveVersion_pinnedDep (parsed : VersionSpec.parse lower text = .ok (.hard intervals))
    (outside : intervalContains lower intervals pin = false)
    (inside : intervalContains lower intervals ver = true) :
    ∃ after, (resolveVersion lower (pinnedSource ver) (pinnedOptions pin)
      ⟨"org.example", "core"⟩ (pinnedDep text)).run (pinnedOptions pin).oreq =
        .ok ((ver, ver, []), after) := by
  have nonblank : Text.trim text ≠ "" := by
    intro blank
    simp [VersionSpec.parse, blank] at parsed
  simp [resolveVersion, pinnedDep, nonblank, parsed, resolveSpec, frozenPin, outside, inside,
    pinnedOptions, OreqSession.frozenPin, Option.filter, fetchMetadataViaSession, maxBy,
    OreqSession.lookupMetadata, pinnedSource, publishing, liftSource, resolveSnapshotFetchVersion]
  exact ⟨_, rfl⟩

theorem scope_pinnedDep (text : String) : Scope.parse (pinnedDep text).scope = .system :=
  (by decide : Scope.parse (some "system") = .system)

theorem new_pinnedDep (text : String) : Coords.new (WorkItem.direct (pinnedDep text)).dep.groupId
      (WorkItem.direct (pinnedDep text)).dep.artifactId = .ok ⟨"org.example", "core"⟩ :=
  (by decide : Coords.new "org.example" "core" = .ok ⟨"org.example", "core"⟩)

theorem effectiveScope_pinnedDep (text : String) :
    (WorkItem.direct (pinnedDep text)).effectiveScope = some .system := by
  simp [WorkItem.effectiveScope, WorkItem.direct, scope_pinnedDep]

variable {after : Option (OreqSession (List RawDependency) (List RawDependency))}

theorem processItem_pinnedDep (st : WalkState (List RawDependency) (List RawDependency))
    (res : (resolveVersion lower (pinnedSource ver) (pinnedOptions pin) ⟨"org.example", "core"⟩
      (pinnedDep text)).run st.session = .ok ((ver, ver, []), after))
    (fresh : st.winners[(⟨"org.example", "core"⟩ : Coords)]? = none)
    (off : st.skipper.enabled = false) :
    ∃ st', processItem lower plainPipeline (pinnedSource ver) (pinnedOptions pin) st
        (WorkItem.direct (pinnedDep text)) = .ok st' ∧ st'.queue = st.queue := by
  have kept : parseBool (WorkItem.direct (pinnedDep text)).dep.optional = false := rfl
  have included : matchesAnyExclusion ⟨"org.example", "core"⟩
      (WorkItem.direct (pinnedDep text)).exclusions = false := rfl
  rw [processItem, new_pinnedDep]
  simp only [included, Bool.false_eq_true, if_false, SkipperState.decide_of_disabled off, visit,
    effectiveScope_pinnedDep, kept, Bool.false_and]
  rw [show (WorkItem.direct (pinnedDep text)).dep = pinnedDep text from rfl, res]
  simp only [nearestWins, fresh]
  exact ⟨_, rfl, rfl⟩

theorem walkReturns_pinnedDep
    (res : (resolveVersion lower (pinnedSource ver) (pinnedOptions pin) ⟨"org.example", "core"⟩
      (pinnedDep text)).run (pinnedOptions pin).oreq = .ok ((ver, ver, []), after)) :
    ∃ graph, WalkReturns lower plainPipeline (pinnedSource ver) (pinnedOptions pin)
      [pinnedDep text] (.ok graph) := by
  have pending : ((WalkState.new (pinnedOptions pin).enableSkipper
      (pinnedOptions pin).oreq).enqueueDirectDeps
        (plainPipeline.dependencies [pinnedDep text])).queue =
        [WorkItem.direct (pinnedDep text)] := by
    simp [WalkState.enqueueDirectDeps, WalkState.new, plainPipeline, visitedDeps, scope_pinnedDep]
  rcases processItem_pinnedDep (WalkState.new (pinnedOptions pin).enableSkipper
    (pinnedOptions pin).oreq) res Std.ExtTreeMap.getElem?_empty rfl with
    ⟨st', processed, ended⟩
  refine ⟨st'.finish, 1, ?_⟩
  rw [walk, runQueue_succ_of_cons 0 pending]
  split
  case h_1 err failed => cases processed.symm.trans failed
  case h_2 other ret =>
    obtain rfl := Except.ok.inj (processed.symm.trans ret)
    rw [runQueue_of_nil 0 ended]
    rfl

/-- A pinned package gets its pin, whatever requirement wins, exactly if the requirement is not a
range that has versions and not the pin. -/
theorem pin_obeyed_iff (lower : String → String) (text pin : String) :
    (∀ (RawPom ResolvedPom Activation : Type)
      (pipeline : PomPipeline RawPom ResolvedPom Activation) (source : MetadataSource RawPom)
      (opts : WalkOptions RawPom ResolvedPom Activation) (root : ResolvedPom)
      (graph : ResolvedGraph) (edge : Coords → RawDependency),
      WalkReturns lower pipeline source opts root (.ok graph) →
      Mediated lower pipeline source opts edge root graph →
      ∀ winner ∈ graph.resolved, (edge winner.coords).version = some text →
        (opts.oreq.bind fun session => session.frozenPin winner.coords) = some pin →
          winner.version = pin) ↔
      ∀ intervals, VersionSpec.parse lower text = .ok (.hard intervals) →
        intervalContains lower intervals pin = true ∨
          ∀ ver, intervalContains lower intervals ver = false := by
  constructor
  · intro obeyed intervals parsed
    by_contra escapes
    push Not at escapes
    rcases escapes with ⟨outside, ver, inside⟩
    rcases resolveVersion_pinnedDep parsed (by simpa using outside) (by simpa using inside) with
      ⟨after, resolved⟩
    rcases walkReturns_pinnedDep resolved with ⟨graph, returned⟩
    rcases mediated_of_walkReturns returned with ⟨edge, mediated⟩
    have declares : ∀ winner ∈ graph.resolved,
        winner.scope = .system ∧ edge winner.coords = pinnedDep text := by
      intro winner listed
      refine mediated.induction_on (motive := fun winner =>
        winner.scope = .system ∧ edge winner.coords = pinnedDep text) ?_ ?_ listed
      · intro dep winner visited _ won
        obtain rfl : dep = pinnedDep text := by
          simpa [plainPipeline, visitedDeps, scope_pinnedDep] using visited
        exact ⟨Option.some.inj (won.scope.symm.trans (effectiveScope_pinnedDep text)), won.edge⟩
      · intro parent dep winner _ declared _ _ ih
        simp [declaredBy, ih.1] at declared
    have declared : pinnedDep text ∈ plainPipeline.dependencies [pinnedDep text] :=
      mem_singleton_self _
    have admits : (WorkItem.direct (pinnedDep text)).admits (pinnedOptions pin).stripOptional =
        some ⟨"org.example", "core"⟩ :=
      admits_eq_some.mpr ⟨new_pinnedDep text, rfl, ⟨_, effectiveScope_pinnedDep text⟩, rfl⟩
    rcases mediated.complete_root declared admits with ⟨winner, found, -⟩
    rcases mediated.listed found with ⟨listed, named⟩
    have pinned := obeyed _ _ _ _ _ _ _ graph edge returned mediated winner listed
      (by rw [(declares winner listed).2]; rfl) rfl
    rcases mediated.exists_wonBy listed with ⟨item, -, won⟩
    rcases won.version with ⟨fetchVersion, warnings, ran⟩
    rw [← won.edge, (declares winner listed).2, named, resolved] at ran
    cases ran
    simp_all
  · intro within RawPom ResolvedPom Activation pipeline source opts root graph edge returned
      mediated winner listed declared pinned
    rcases mediated.exists_wonBy listed with ⟨item, -, won⟩
    rcases won.version with ⟨fetchVersion, warnings, ran⟩
    rw [← won.edge] at ran
    generalize winner.version = ver at ran ⊢
    cases returned : (resolveVersion lower source opts winner.coords
        (edge winner.coords)).run opts.oreq with
    | error error =>
      rw [returned] at ran
      cases ran
    | ok result =>
      rw [returned] at ran
      rcases result with ⟨answer, after⟩
      cases ran
      unfold resolveVersion at returned
      rw [declared] at returned
      split at returned
      · cases returned
      case h_2 raw same =>
        obtain rfl := Option.some.inj (Option.filter_eq_some_iff.mp same).1
        split at returned
        · cases returned
        case h_2 spec parsed =>
          rcases run_bind_eq_ok.mp returned with ⟨resolved, between, chosen, returned⟩
          rcases run_bind_eq_ok.mp returned with ⟨found, after, -, returned⟩
          cases returned
          refine eq_pin_of_resolveSpec chosen pinned ?_
          rintro intervals rfl
          exact within intervals parsed

/-- The pin `1.0` gives way to the range `[2.0]`. -/
theorem pin_ignored :
    ((walk Version.asciiLowercase plainPipeline (pinnedSource "2.0") (pinnedOptions "1.0") 1
      [pinnedDep "[2.0]"]).map fun result =>
        result.toOption.map fun graph => graph.resolved.map ResolvedDep.version) =
      some (some ["2.0"]) := by
  decide +kernel

end Pins

end Resolver

end Barista
