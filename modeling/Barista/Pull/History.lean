import Barista.Pull.Frozen

/-!
# Pulls over histories

What a run writes to the lockfile does not depend on what earlier runs left in the cache.
-/

namespace Barista.Pull

open Cache

section Reproducible

open Persistent (Maintains)
open Resolver (ResolvedDep ResolvedGraph WalkReturns walkReturns_unique)
open Lockfile (LockfileEntry toToml utf8)

section Current

variable {setup : Setup} {call : Invocation} {host last : Machine}

variable (setup call) in
def resolvedDeps : List ResolvedDep :=
  match readPom setup call with
  | .error _ => []
  | .ok (_, rawPom) =>
    match effectivePom setup call.answers rawPom with
    | .error _ => []
    | .ok resolved =>
      match walkDependencies setup call resolved with
      | some (.ok graph) => graph.resolved
      | _ => []

def PlainDep (dep : ResolvedDep) : Prop := isMetadataKey (targetOf dep) = false

variable (inj : Set.InjOn setup.cache.digests.sha256 {bytes | setup.cache.Serves bytes})

include inj

theorem current_askQuestions (questions : List (Question × UInt64)) :
    (askQuestions setup questions).Maintains fun host => setup.cache.Current host.store := by
  intro host cur
  exact cur.askAll inj questions

theorem current_fetchEntry {dep : ResolvedDep} (plain : PlainDep dep) :
    (fetchEntry setup call dep).Maintains fun host =>
      setup.cache.Current host.store := by
  intro host cur
  exact cur.fetchArtifact inj plain _ _

omit inj in
theorem current_materializeEntry (pair : ResolvedDep × LockfileEntry) :
    (materializeEntry setup call pair).Maintains fun host =>
      setup.cache.Current host.store := by
  intro host cur
  rw [store_materializeEntry]
  exact cur

omit inj in
theorem current_writeOnDisk (lock : Lockfile) : (writeOnDisk setup call lock).Maintains fun host =>
      setup.cache.Current host.store := by
  intro host cur
  unfold writeOnDisk
  split <;> exact cur

variable {inv : Machine → Prop} {rawPom : Pom.RawPom} {out : Except PullError PullReport}

omit inj in
theorem maintains_ensureRootMarker
    (marks : ∀ host marker, inv host → inv { host with rootMarker := marker })
    (fault : Option IoError) (pomText : String) :
    (ensureRootMarker setup fault pomText).Maintains inv := by
  intro host holds
  rw [snd_ensureRootMarker]
  exact marks host _ holds

omit inj in
theorem maintains_runNoFetch (rawPom : Pom.RawPom) : (runNoFetch setup call rawPom).Maintains inv :=
  Maintains.bind (fun _ holds => holds) fun _ =>
    Maintains.bind (Maintains.ofExcept _) fun _ => Maintains.pure _

omit inj in
theorem maintains_consult (rawPom : Pom.RawPom)
    (asks : (askQuestions setup call.parentQuestions).Maintains inv) :
    (consult setup call rawPom).Maintains inv := by
  refine Maintains.bind (Maintains.ofExcept _) fun _ => ?_
  refine Maintains.bind asks fun _ => ?_
  refine Maintains.bind (Maintains.ofExcept _) fun res => ?_
  refine Maintains.bind (Maintains.ofExcept _) fun sig => ?_
  refine Maintains.bind (fun host holds => holds) fun found => ?_
  refine Maintains.bind ?_ fun _ => Maintains.pure _
  intro host holds
  unfold checkFrozen
  split
  · split <;> exact holds
  · exact holds

omit inj in
theorem maintains_refresh {asked : Consulted} {walked : Except Resolver.WalkError ResolvedGraph}
    (asks : (askQuestions setup call.walkQuestions).Maintains inv)
    (fetches : ∀ graph, walked = .ok graph → ∀ dep ∈ graph.resolved, (fetchEntry setup call
      dep).Maintains inv) (links : ∀ pair, (materializeEntry setup call pair).Maintains inv)
    (writes : ∀ lock, (writeOnDisk setup call lock).Maintains inv) :
    (refresh setup call rawPom asked walked).Maintains inv := by
  refine Maintains.bind asks fun _ => ?_
  refine Maintains.ofExcept_bind fun graph walkedOk => ?_
  refine Maintains.bind ?_ fun fetched => ?_
  · exact Maintains.mapM' (fetches graph (mapError_eq_ok.mp walkedOk))
  · refine Maintains.bind ?_ fun _ => ?_
    · exact Maintains.mapM' fun pair _ => links pair
    · exact Maintains.bind (writes _) fun _ => Maintains.pure _

omit inj in
theorem resolvedDeps_eq {pomText : String} {res : Pom.ResolvedPom} {graph : ResolvedGraph}
    (readable : readPom setup call = .ok (pomText, rawPom))
    (eff : effectivePom setup call.answers rawPom = .ok res)
    (walked : walkDependencies setup call res = some (.ok graph)) :
    resolvedDeps setup call = graph.resolved := by
  simp only [resolvedDeps, readable, eff, walked]

omit inj in
theorem exists_pipeline {pomText : String} (readable : readPom setup call = .ok (pomText, rawPom))
    (ret : runFullFetch setup call rawPom host = some (out, last)) :
    ∃ walked, (∀ graph, walked = .ok graph → graph.resolved = resolvedDeps setup call) ∧
      pipeline setup call rawPom walked host = (out, last) := by
  rcases consulting : consult setup call rawPom host with ⟨failure | asked, mid⟩
  · simp only [runFullFetch, consulting, Option.some.injEq] at ret
    refine ⟨.error (.missingVersion ""), by rintro _ ⟨⟩, ?_⟩
    exact (Persistent.bind_of_error consulting).trans ret
  · simp only [runFullFetch, consulting] at ret
    split at ret
    · rename_i settled
      refine ⟨.error (.missingVersion ""), by rintro _ ⟨⟩, ?_⟩
      apply (Persistent.bind_of_ok consulting).trans
      exact (congrFun (if_pos settled) mid).trans (Option.some.inj ret)
    · rename_i stale
      rcases Option.map_eq_some_iff.mp ret with ⟨walked, walks, refreshed⟩
      refine ⟨walked, ?_, (Persistent.bind_of_ok consulting).trans ?_⟩
      · rintro graph rfl
        exact (resolvedDeps_eq readable (consult_eq_ok.mp consulting).1.resolved walks).symm
      · exact (congrFun (if_neg stale) mid).trans refreshed

omit inj in
theorem exists_procedure (ret : pull setup call host = some (out, last)) :
    ∃ walked, (∀ graph, walked = .ok graph → graph.resolved = resolvedDeps setup call) ∧
      procedure setup call.expanded walked host = (out, last) := by
  unfold pull runInner at ret
  rcases readable : readPom setup call.expanded with _ | read
  · simp only [readable, Option.some.injEq] at ret
    refine ⟨.error (.missingVersion ""), by rintro _ ⟨⟩, ?_⟩
    rw [procedure, readable]
    exact ret
  · simp only [readable] at ret
    unfold procedure
    rw [readable]
    split at ret
    · rename_i noFetch
      refine ⟨.error (.missingVersion ""), by rintro _ ⟨⟩, ?_⟩
      exact (congrFun (if_pos noFetch) host).trans (Option.some.inj ret)
    · rename_i fetches
      rcases marked : ensureRootMarker setup call.expanded.createMarker read.1 host with
        ⟨failure | val, begun⟩
      · simp only [marked, Option.some.injEq] at ret
        refine ⟨.error (.missingVersion ""), by rintro _ ⟨⟩, ?_⟩
        apply (congrFun (if_neg fetches) host).trans
        exact (Persistent.bind_of_error marked).trans ret
      · simp only [marked] at ret
        rcases exists_pipeline readable ret with ⟨walked, seen, ran⟩
        refine ⟨walked, seen, (congrFun (if_neg fetches) host).trans ?_⟩
        exact (Persistent.bind_of_ok marked).trans ran

omit inj in
theorem maintains_pull (marks : ∀ host marker, inv host → inv { host with rootMarker := marker })
    (asks : ∀ questions, (askQuestions setup questions).Maintains inv)
    (fetches : ∀ dep ∈ resolvedDeps setup call, (fetchEntry setup call.expanded dep).Maintains inv)
    (links : ∀ pair, (materializeEntry setup call.expanded pair).Maintains inv)
    (writes : ∀ lock, (writeOnDisk setup call.expanded lock).Maintains inv)
    (ret : pull setup call host = some (out, last)) (holds : inv host) :
    inv last := by
  rcases exists_procedure ret with ⟨walked, seen, ran⟩
  have maintained : (procedure setup call.expanded walked).Maintains inv := by
    refine Maintains.bind (Maintains.ofExcept _) fun read => ?_
    split
    · exact maintains_runNoFetch read.2
    · refine Maintains.bind (maintains_ensureRootMarker marks _ _) fun _ => ?_
      refine Maintains.bind (maintains_consult read.2 (asks _)) fun asked => ?_
      split
      · exact Maintains.pure _
      · refine maintains_refresh (asks _) ?_ links writes
        rintro graph rfl dep mem
        rw [seen graph rfl] at mem
        exact fetches dep mem
  have final := maintained host holds
  rw [ran] at final
  exact final

theorem current_pull (plain : ∀ dep ∈ resolvedDeps setup call, PlainDep dep)
    (ret : pull setup call host = some (out, last))
    (cur : setup.cache.Current host.store) : setup.cache.Current last.store := by
  have fetches : ∀ dep ∈ resolvedDeps setup call,
      (fetchEntry setup call.expanded dep).Maintains fun host =>
        setup.cache.Current host.store := by
    intro dep mem
    exact current_fetchEntry inj (plain dep mem)
  exact maintains_pull (fun _ _ holds => holds) (current_askQuestions inj) fetches
    current_materializeEntry current_writeOnDisk ret cur

end Current

section Determined

variable (setup : Setup)

def upstream : Resolver.MetadataSource Pom.RawPom := answers setup.cache setup.parsers .empty

def EntryOf (dep : ResolvedDep) (entry : LockfileEntry) : Prop :=
  ∃ download, setup.cache.downloadArtifact (targetOf dep) = .ok download ∧
    entry = buildLockfileEntry dep (.ofRow (setup.cache.rowFor download 0) .remote)

def ResolvesTo (rawPom : Pom.RawPom) (scope : ScopeArg) (signature : String)
    (graph : ResolvedGraph) : Prop :=
  ∃ resolved, effectivePom setup (upstream setup) rawPom = .ok resolved ∧
    projectSignature setup resolved = .ok signature ∧ WalkReturns setup.cache.toLowercase
        (Resolver.pomPipeline setup.envVar setup.pathExists setup.displayPom) (upstream setup)
        (walkOptions scope) resolved (.ok graph)

variable (invocation : Invocation)

def PlainProject : Prop :=
  ∀ pomText rawPom signature graph, readPom setup invocation = .ok (pomText, rawPom) →
    ResolvesTo setup rawPom invocation.flags.scope signature graph →
      ∀ dep ∈ graph.resolved, PlainDep dep

def Determined (lockfile : Lockfile) : Prop :=
  ∃ pomText rawPom signature graph entries, readPom setup invocation = .ok (pomText, rawPom) ∧
    ResolvesTo setup rawPom invocation.flags.scope signature graph ∧
      List.Forall₂ (EntryOf setup) graph.resolved entries ∧
        lockfile = newLockfile setup invocation signature entries

structure Answered (machine : Machine) : Prop where
  fetches : invocation.flags.noFetch = false
  answers : invocation.answers = answers setup.cache setup.parsers machine.store

variable {setup} {call : Invocation} {host last : Machine}

theorem rightUnique_entryOf : Relator.RightUnique (EntryOf setup) := by
  rintro dep left right ⟨download, downloaded, rfl⟩ ⟨other, otherDownloaded, rfl⟩
  rw [downloaded] at otherDownloaded
  cases otherDownloaded
  rfl

theorem ResolvesTo.unique {rawPom : Pom.RawPom} {scope : ScopeArg} {sig other : String}
    {graph otherGraph : ResolvedGraph} (resolves : ResolvesTo setup rawPom scope sig graph)
    (otherResolves : ResolvesTo setup rawPom scope other otherGraph) :
    sig = other ∧ graph = otherGraph := by
  rcases resolves with ⟨res, eff, signed, walked⟩
  rcases otherResolves with ⟨otherResolved, otherEffective, otherSigned, otherWalked⟩
  rw [eff] at otherEffective
  cases otherEffective
  rw [signed] at otherSigned
  cases otherSigned
  have same := walkReturns_unique walked otherWalked
  cases same
  exact ⟨rfl, rfl⟩

theorem Determined.unique {other : Invocation} {lock otherLockfile : Lockfile}
    (determined : Determined setup call lock)
    (otherDetermined : Determined setup other otherLockfile)
    (samePom : call.pomText = other.pomText) (sameScope : call.flags.scope = other.flags.scope) :
    lock = otherLockfile.stamped call.generatedAt := by
  rcases determined with
    ⟨pomText, rawPom, sig, graph, entries, readable, resolves, described, rfl⟩
  rcases otherDetermined with ⟨otherText, otherPom, otherSignature, otherGraph, otherEntries,
    otherReadable, otherResolves, otherDescribed, rfl⟩
  have sameRead : readPom setup call = readPom setup other := by
    simp only [readPom, samePom]
  rw [← sameRead, readable] at otherReadable
  cases otherReadable
  rw [← sameScope] at otherResolves
  rcases resolves.unique otherResolves with ⟨rfl, rfl⟩
  have sameEntries : entries = otherEntries :=
    List.right_unique_forall₂' rightUnique_entryOf described otherDescribed
  simp only [newLockfile, sameEntries, Lockfile.new, Lockfile.stamped]

theorem Determined.stamped {lock : Lockfile} (determined : Determined setup call lock) :
    lock.stamped call.generatedAt = lock := by
  rcases determined with ⟨-, -, -, -, -, -, -, -, rfl⟩
  rfl

theorem entry_of_recorded {dep : ResolvedDep} {entry : IndexEntry} {download : Download}
    (recorded : setup.cache.Recorded entry download) (src : FetchSource) :
    buildLockfileEntry dep (.ofRow entry src) =
      buildLockfileEntry dep (.ofRow (setup.cache.rowFor download 0) .remote) := by
  simp only [buildLockfileEntry, FetchedArtifact.ofRow, recorded.hash, recorded.sizeBytes,
    recorded.sha1Hex, recorded.origin]
  rfl

theorem entryOf_fetchEntry {dep : ResolvedDep} {pair : LockfileEntry × FetchSource}
    (cur : setup.cache.Current host.store) (plain : PlainDep dep)
    (ret : fetchEntry setup call dep host = (.ok pair, last)) :
    EntryOf setup dep pair.1 := by
  rcases ran : fetchArtifactToCache setup.cache (call.putFaults (targetOf dep))
    (call.clock (targetOf dep)) (targetOf dep) host.store with ⟨failure | fetched, store⟩
  · simp [fetchEntry, ran, Except.map, Except.mapError] at ret
  · simp only [fetchEntry, ran, Except.map, Except.mapError, Prod.mk.injEq, Except.ok.injEq] at ret
    rcases ret with ⟨rfl, -⟩
    unfold fetchArtifactToCache at ran
    rcases row : cachedRow (targetOf dep) host.store with _ | entry <;> rw [row] at ran
    · dsimp only at ran
      split at ran
      · cases ran
      · cases ran
      · cases ran
      · rename_i download downloaded
        split at ran
        · cases ran
        · split at ran <;> cases ran
          exact ⟨download, downloaded, entry_of_recorded (Environment.recorded_rowFor _ _) _⟩
    · cases ran
      have found := (Option.filter_eq_some_iff.mp row).1
      rcases cur.rows (.artifact (targetOf dep)) plain entry found with
        ⟨download, downloaded, recorded, -⟩
      exact ⟨download, downloaded, entry_of_recorded recorded _⟩

theorem resolvesTo_of_refreshable (answers : call.answers = upstream setup) {bytes : Bytes}
    (refreshable : Refreshable setup call.expanded host bytes) :
    ∃ pomText rawPom sig graph, readPom setup call = .ok (pomText, rawPom) ∧
      ResolvesTo setup rawPom call.flags.scope sig graph ∧
        graph.resolved = resolvedDeps setup call := by
  rcases refreshable with
    ⟨pomText, rawPom, begun, asked, graph, -, -, -, readable, -, consults, walked, -⟩
  refine ⟨pomText, rawPom, asked.signature, graph, readable, ?_,
    (resolvedDeps_eq readable consults.resolved walked).symm⟩
  have eff : effectivePom setup call.answers rawPom = .ok asked.resolved := consults.resolved
  rw [answers] at eff
  refine ⟨asked.resolved, eff, consults.signature, call.steps, ?_⟩
  rw [← answers]
  exact walked

theorem determined_of_refreshable
    (inj : Set.InjOn setup.cache.digests.sha256 {bytes | setup.cache.Serves bytes})
    (answered : Answered setup call host) (cur : setup.cache.Current host.store)
    (plain : PlainProject setup call) {bytes : Bytes}
    (refreshable : Refreshable setup call.expanded host bytes) :
    ∃ lock, Determined setup call lock ∧
      Lockfile.write setup.toml call.writeLockfile lock = .ok bytes := by
  rcases refreshable with ⟨pomText, rawPom, begun, asked, graph, fetched, stored, linked,
    readable, marked, consults, walked, refreshes⟩
  have answers : call.expanded.answers = upstream setup := answered.answers.trans cur.answers_eq
  have resolves : ResolvesTo setup rawPom call.flags.scope asked.signature graph := by
    have eff := consults.resolved
    rw [answers] at eff
    refine ⟨asked.resolved, eff, consults.signature, call.steps, ?_⟩
    rw [← answers]
    exact walked
  have begunCurrent : setup.cache.Current begun.store := by
    rw [ensureRootMarker_eq_ok marked]
    exact cur
  have askedCurrent : setup.cache.Current
      ((begun.asked setup.cache call.parentQuestions).asked setup.cache call.walkQuestions).store :=
    current_askQuestions inj call.walkQuestions _
      (current_askQuestions inj call.parentQuestions begun begunCurrent)
  have plainGraph := plain pomText rawPom _ graph readable resolves
  have keeps : ∀ dep ∈ graph.resolved, (fetchEntry setup call.expanded dep).Maintains
      fun host => setup.cache.Current host.store := by
    intro dep mem
    exact current_fetchEntry inj (plainGraph dep mem)
  have described :
      List.Forall₂ (fun dep pair => EntryOf setup dep pair.1) graph.resolved fetched := by
    refine Persistent.forall₂_of_maintains keeps ?_ askedCurrent refreshes.fetches
    intro dep mem pair pre post cur
    exact entryOf_fetchEntry cur (plainGraph dep mem)
  refine ⟨newLockfile setup call asked.signature (fetched.map Prod.fst), ?_, refreshes.writes⟩
  exact ⟨pomText, rawPom, asked.signature, graph, fetched.map Prod.fst, readable, resolves,
    List.forall₂_map_right_iff.mpr described, rfl⟩

end Determined

/-- The store of a cache that was empty once and is only used by pulls. -/
inductive Pulled (env : Environment) (allowed : ResolvedDep → Prop) : Store → Prop
  | empty : Pulled env allowed .empty
  | pull {setup : Setup} {invocation : Invocation} {machine last : Machine}
      {result : Except PullError PullReport} :
      setup.cache = env →
      invocation.answers = answers setup.cache setup.parsers machine.store →
      (∀ dep ∈ resolvedDeps setup invocation, allowed dep) →
      Pulled env allowed machine.store →
      Pull.pull setup invocation machine = some (result, last) → Pulled env allowed last.store

theorem Pulled.current {env : Environment} {store : Store}
    (inj : Set.InjOn env.digests.sha256 {bytes | env.Serves bytes})
    (pulled : Pulled env PlainDep store) : env.Current store := by
  induction pulled with
  | empty => exact Environment.Current.empty
  | pull same answered plain pre ret ih =>
    subst same
    exact current_pull inj plain ret ih

theorem exists_determined_of_update {setup : Setup} {call : Invocation}
    {host last : Machine} {report : PullReport}
    (inj : Set.InjOn setup.cache.digests.sha256 {bytes | setup.cache.Serves bytes})
    (answered : Answered setup call host) (update : call.flags.update = true)
    (cur : setup.cache.Current host.store) (plain : PlainProject setup call)
    (ret : pull setup call host = some (.ok report, last)) :
    ∃ lock text, Determined setup call lock ∧
      toToml setup.toml lock = .ok text ∧ last.lockfile = some (utf8 text) := by
  rcases lockfile_of_fetch answered.fetches ret with
    ⟨settles, -⟩ | ⟨-, bytes, refreshable, written⟩
  · rw [settles.1] at update
    cases update
  · rcases determined_of_refreshable inj answered cur plain refreshable with
      ⟨lock, determined, writes⟩
    rcases Lockfile.write_eq_ok.mp writes with ⟨-, text, rendered, rfl⟩
    exact ⟨lock, text, determined, rendered, written⟩

/-- Two updates of one project, one with a cache that earlier runs have filled and one with an empty
cache, write the same lockfile up to the timestamp, if none of the runs resolves an artifact whose
key is reserved for metadata. -/
theorem lockfile_reproducible (setup : Setup)
    (inj : Set.InjOn setup.cache.digests.sha256 {bytes | setup.cache.Serves bytes})
    (cached fresh : Invocation) (host blank last blankLast : Machine)
    (report blankReport : PullReport)
    (samePom : cached.pomText = fresh.pomText) (sameScope : cached.flags.scope = fresh.flags.scope)
    (pulled : Pulled setup.cache PlainDep host.store) (empty : blank.store = .empty)
    (answered : Answered setup cached host) (blankAnswered : Answered setup fresh blank)
    (update : cached.flags.update = true) (blankUpdate : fresh.flags.update = true)
    (plain : PlainProject setup fresh) (returned : pull setup cached host = some (.ok report, last))
    (blankReturned : pull setup fresh blank = some (.ok blankReport, blankLast)) :
    ∃ (lockfile : Lockfile) (text blankText : String),
      toToml setup.toml (lockfile.stamped cached.generatedAt) = .ok text ∧
        last.lockfile = some (utf8 text) ∧
      toToml setup.toml (lockfile.stamped fresh.generatedAt) = .ok blankText ∧
        blankLast.lockfile = some (utf8 blankText) := by
  have blankCurrent : setup.cache.Current blank.store := by
    rw [empty]
    exact Environment.Current.empty
  have cachedPlain : PlainProject setup cached := by
    simpa only [PlainProject, readPom, samePom, sameScope] using plain
  rcases exists_determined_of_update inj answered update (pulled.current inj)
    cachedPlain returned with ⟨lockfile, text, determined, rendered, written⟩
  rcases exists_determined_of_update inj blankAnswered blankUpdate blankCurrent plain
    blankReturned with ⟨other, otherText, otherDetermined, otherRendered, otherWritten⟩
  rw [determined.unique otherDetermined samePom sameScope] at rendered
  rw [← otherDetermined.stamped] at otherRendered
  exact ⟨other, text, otherText, rendered, written, otherRendered, otherWritten⟩

theorem plainProject_of_refreshable {setup : Setup} {call : Invocation} {host : Machine}
    {bytes : Bytes} (answers : call.answers = upstream setup)
    (refreshable : Refreshable setup call.expanded host bytes)
    (plain : ∀ dep ∈ resolvedDeps setup call, PlainDep dep) :
    PlainProject setup call := by
  rcases resolvesTo_of_refreshable answers refreshable with
    ⟨pomText, rawPom, sig, graph, readable, resolves, seen⟩
  intro otherText otherPom otherSignature other otherReadable otherResolves
  have sameRead : (pomText, rawPom) = (otherText, otherPom) :=
    Except.ok.inj (readable.symm.trans otherReadable)
  cases sameRead
  rw [← (resolves.unique otherResolves).2, seen]
  exact plain

instance : DecidablePred PlainDep := fun dep =>
  inferInstanceAs (Decidable (isMetadataKey (targetOf dep) = false))

def updateFlags : Flags := ⟨false, false, false, true, false, .compile⟩

def updateRun (machine : Machine) : Invocation :=
  { readyRun readyLockfile machine with flags := updateFlags }

/-- The second run finds in the cache what the first one has stored there. -/
theorem lockfile_reproducible_small :
    let setup := readySetup readyLockfile
    ∃ report last, pull setup (updateRun .blank) .blank = some (.ok report, last) ∧
      ∃ again final, pull setup (updateRun last) last = some (.ok again, final) ∧
        ∃ (lockfile : Lockfile) (text blankText : String),
          toToml setup.toml (lockfile.stamped "2026-01-01T00:00:00Z") = .ok text ∧
            final.lockfile = some (utf8 text) ∧
          toToml setup.toml (lockfile.stamped "2026-01-01T00:00:00Z") = .ok blankText ∧
            last.lockfile = some (utf8 blankText) := by
  intro setup
  have inj : Set.InjOn setup.cache.digests.sha256 {bytes | setup.cache.Serves bytes} :=
    noCollisions_small (by decide)
  have plain : ∀ dep ∈ resolvedDeps setup (updateRun .blank), PlainDep dep := by decide +kernel
  let next (last : Machine) := (pull setup (updateRun last) last).map fun ended =>
    ended.1.toOption.isSome
  have ran : ((pull setup (updateRun .blank) .blank).map fun ended =>
      (ended.1.toOption.isSome, next ended.2)) = some (true, some true) := by decide +kernel
  rcases exists_of_pull next ran with ⟨report, last, returned, nextRan⟩
  rcases Option.map_eq_some_iff.mp nextRan with ⟨⟨out, final⟩, nextReturned, succeeded⟩
  rcases out with _ | again
  · cases succeeded
  · refine ⟨report, last, returned, again, final, nextReturned, ?_⟩
    have pulled : Pulled setup.cache PlainDep last.store := .pull rfl rfl plain .empty returned
    have plainProject : PlainProject setup (updateRun .blank) := by
      rcases lockfile_of_fetch rfl returned with ⟨settles, -⟩ | ⟨-, bytes, refreshable, -⟩
      · cases settles.present
      · exact plainProject_of_refreshable rfl refreshable plain
    exact lockfile_reproducible setup inj (updateRun last) (updateRun .blank) last .blank
      final last again report rfl rfl pulled rfl ⟨rfl, rfl⟩ ⟨rfl, rfl⟩ rfl rfl plainProject
      nextReturned returned

def oddFiles : List (String × Bytes) :=
  [("https://repo/org/example/core/maven-metadata.xml", asciiBytes "1.0"),
    ("https://repo/org/example/core/1.0/core-1.0.pom", asciiBytes "core"),
    ("https://repo/org/example/core/1.0/core-1.0.jar", [1, 2, 3]),
    ("https://repo/org/example/core/<metadata>/core-<metadata>.pom", asciiBytes "core"),
    ("https://repo/org/example/core/<metadata>/core-<metadata>.maven-metadata.xml", [7])]

def oddParser (text : String) : Except String Pom.RawPom :=
  if text = "range" then .ok (appPom "core" "[1.0,2.0)" none none)
  else if text = "odd" then .ok (appPom "core" "<metadata>" (some "maven-metadata.xml") none)
  else .ok (leafPom "core")

def urlsToml : Lockfile.Toml where
  render document := (Lockfile.shape.read document).map fun lockfile =>
    String.join (lockfile.entries.map LockfileEntry.sourceUrl)
  parse _ := .error "not rendered"

def oddSetup : Setup := .small oddFiles oddParser urlsToml

def rangeRun : Invocation := .small oddSetup updateFlags "range" .blank
    [(.metadata ⟨"org.example", "core"⟩, 1), (.pom ⟨"org.example", "core"⟩ "1.0", 1)]

def oddRun (machine : Machine) : Invocation :=
  .small oddSetup updateFlags "odd" machine [(.pom ⟨"org.example", "core"⟩ "<metadata>", 2)]

/-- After a pull that has asked for the versions of an artifact, the metadata document is taken for
the artifact. -/
theorem metadata_taken_for_artifact :
    ∃ earlierReport earlier, pull oddSetup rangeRun .blank = some (.ok earlierReport, earlier) ∧
      ∃ report last,
        pull oddSetup (oddRun earlier) { earlier with lockfile := none } = some (.ok report, last) ∧
          last.lockfile = some (utf8 "https://repo/org/example/core/maven-metadata.xml") ∧
      ∃ blankReport blankLast,
        pull oddSetup (oddRun .blank) .blank = some (.ok blankReport, blankLast) ∧
          blankLast.lockfile = some (utf8
            "https://repo/org/example/core/<metadata>/core-<metadata>.maven-metadata.xml") := by
  let next (earlier : Machine) :=
    (pull oddSetup (oddRun earlier) { earlier with lockfile := none }).map fun ended =>
      (ended.1.toOption.isSome, ended.2.lockfile)
  have ran : ((pull oddSetup rangeRun .blank).map fun ended =>
      (ended.1.toOption.isSome, next ended.2)) = some (true, some (true,
        some (utf8 "https://repo/org/example/core/maven-metadata.xml"))) := by
    decide +kernel
  have blankRan : ((pull oddSetup (oddRun .blank) .blank).map fun ended =>
      (ended.1.toOption.isSome, ended.2.lockfile)) = some (true, some (utf8
        "https://repo/org/example/core/<metadata>/core-<metadata>.maven-metadata.xml")) := by
    decide +kernel
  rcases exists_of_pull next ran with ⟨earlierReport, earlier, returned, nextRan⟩
  rcases exists_of_pull Machine.lockfile nextRan with ⟨report, last, nextReturned, written⟩
  exact ⟨earlierReport, earlier, returned, report, last, nextReturned, written,
    exists_of_pull Machine.lockfile blankRan⟩

end Reproducible

open List Option
open Persistent (KeepsOnFailure Maintains)
open Resolver (ResolvedDep ResolvedGraph WalkReturns)
open Lockfile (LockfileEntry ReactorModule hashInput)

variable {setup : Setup} {hist : List Invocation} {call : Invocation} {host last : Machine}

def projectModule (resolved : Pom.ResolvedPom) : ReactorModule where
  groupId := (resolved.pom.groupId.or (resolved.pom.parent.map Pom.RawParent.groupId)).getD ""
  artifactId := resolved.pom.artifactId
  pom := resolved.pom

theorem projectSignature_eq_ok {res : Pom.ResolvedPom} {sig : String} :
    projectSignature setup res = .ok sig ↔ ∃ input, hashInput [projectModule res] = .ok input ∧
        (setup.cache.digests.sha256 input).toHex = sig := by
  change (do let input ← hashInput [projectModule res]
             return (setup.cache.digests.sha256 input).toHex) = .ok sig ↔ _
  rcases hashInput [projectModule res] with _ | _
  · simp [bind, Except.bind]
  · simp [bind, Except.bind, pure, Except.pure]

variable (setup) in
def SignatureInput (invocation : Invocation) (input : Bytes) : Prop :=
  ∃ pomText rawPom resolved, readPom setup invocation = .ok (pomText, rawPom) ∧
    effectivePom setup (upstream setup) rawPom = .ok resolved ∧
      hashInput [projectModule resolved] = .ok input

theorem walkReturns_congr {src : Resolver.MetadataSource Pom.RawPom} {scope other : ScopeArg}
    {root otherRoot : Pom.ResolvedPom} {out : Except Resolver.WalkError ResolvedGraph}
    (same : root.pom.dependencies = otherRoot.pom.dependencies)
    (ret : WalkReturns setup.cache.toLowercase
      (Resolver.pomPipeline setup.envVar setup.pathExists setup.displayPom) src
      (walkOptions scope) root out) :
    WalkReturns setup.cache.toLowercase
      (Resolver.pomPipeline setup.envVar setup.pathExists setup.displayPom) src
      (walkOptions other) otherRoot out := by
  rcases ret with ⟨steps, walked⟩
  refine ⟨steps, ?_⟩
  have sameStep : Resolver.processItem setup.cache.toLowercase
      (Resolver.pomPipeline setup.envVar setup.pathExists setup.displayPom) src
        (walkOptions other) =
      Resolver.processItem setup.cache.toLowercase
        (Resolver.pomPipeline setup.envVar setup.pathExists setup.displayPom) src
          (walkOptions scope) := rfl
  rw [← walked, Resolver.walk, Resolver.runQueue_congr sameStep]
  simp only [Resolver.walk, Resolver.pomPipeline, same]
  rfl

section Failed

variable {lock : Option Bytes}

theorem keepsOnFailure_writeOnDisk (written : Lockfile) :
    (writeOnDisk setup call written).KeepsOnFailure fun host =>
      host.lockfile = lock := by
  intro host failure last same failed
  unfold writeOnDisk at failed
  split at failed
  · cases failed
  · cases failed
    exact same

theorem lockfile_materializeEntry (pair : ResolvedDep × LockfileEntry) (host : Machine) :
    (materializeEntry setup call pair host).2.lockfile = host.lockfile := by
  unfold materializeEntry
  split <;> rfl

theorem keepsOnFailure_refresh {rawPom : Pom.RawPom} {asked : Consulted}
    {walked : Except Resolver.WalkError ResolvedGraph} :
    (refresh setup call rawPom asked walked).KeepsOnFailure fun host =>
      host.lockfile = lock := by
  refine KeepsOnFailure.bind (fun _ same => same) fun _ => ?_
  refine KeepsOnFailure.bind (Maintains.ofExcept _) fun graph => ?_
  refine KeepsOnFailure.bind ?_ fun fetched => ?_
  · exact Maintains.mapM' fun dep _ host same => same
  · refine KeepsOnFailure.bind ?_ fun _ => ?_
    · refine Maintains.mapM' fun pair _ host same => ?_
      rw [lockfile_materializeEntry]
      exact same
    · exact KeepsOnFailure.bind_pure (keepsOnFailure_writeOnDisk _) _

theorem lockfile_of_failure {failure : PullError}
    (ret : pull setup call host = some (.error failure, last)) :
    last.lockfile = host.lockfile := by
  rcases exists_procedure ret with ⟨walked, -, ran⟩
  have kept : (procedure setup call.expanded walked).KeepsOnFailure fun st =>
      st.lockfile = host.lockfile := by
    refine KeepsOnFailure.bind (Maintains.ofExcept _) fun read => ?_
    split
    · exact (maintains_runNoFetch read.2).keepsOnFailure
    · refine KeepsOnFailure.bind ?_ fun _ => ?_
      · exact maintains_ensureRootMarker (fun _ _ same => same) _ _
      refine KeepsOnFailure.bind ?_ fun asked => ?_
      · exact maintains_consult read.2 fun _ same => same
      split
      · exact (Maintains.pure _).keepsOnFailure
      · exact keepsOnFailure_refresh
  exact kept host failure last rfl ran

end Failed

inductive Reached (setup : Setup) (allowed : ResolvedDep → Prop) : List Invocation → Machine → Prop
  | start {machine : Machine} : Pulled setup.cache allowed machine.store → machine.lockfile = none →
      Reached setup allowed [] machine
  | pull {history : List Invocation} {invocation : Invocation} {machine last : Machine}
      {result : Except PullError PullReport} :
      Reached setup allowed history machine →
      invocation.answers = answers setup.cache setup.parsers machine.store →
      (∀ dep ∈ resolvedDeps setup invocation, allowed dep) →
      Pull.pull setup invocation machine = some (result, last) →
      Reached setup allowed (invocation :: history) last

section History

variable (inj : Set.InjOn setup.cache.digests.sha256 {bytes | setup.cache.Serves bytes})

include inj

theorem Reached.current (reached : Reached setup PlainDep hist host) :
    setup.cache.Current host.store := by
  induction reached with
  | start pulled absent => exact pulled.current inj
  | pull pre answered plain ret ih => exact current_pull inj plain ret ih

theorem lockfile_of_plain_fetch (fetches : call.flags.noFetch = false)
    (answered : call.answers = answers setup.cache setup.parsers host.store)
    (cur : setup.cache.Current host.store)
    (plain : ∀ dep ∈ resolvedDeps setup call, PlainDep dep) {report : PullReport}
    (ret : pull setup call host = some (.ok report, last)) :
    (LockfileSettles setup call host ∧ last.lockfile = host.lockfile) ∨
      ∃ lock bytes, Determined setup call lock ∧
        Lockfile.write setup.toml call.writeLockfile lock = .ok bytes ∧
          last.lockfile = some bytes := by
  rcases lockfile_of_fetch fetches ret with settles | ⟨-, bytes, refreshable, written⟩
  · exact Or.inl settles
  · right
    have plainProject := plainProject_of_refreshable (answered.trans cur.answers_eq) refreshable
      plain
    rcases determined_of_refreshable inj ⟨fetches, answered⟩ cur plainProject
      refreshable with ⟨lock, determined, writes⟩
    exact ⟨lock, bytes, determined, writes, written⟩

theorem Reached.locked (reached : Reached setup PlainDep hist host) {bytes : Bytes}
    (present : host.lockfile = some bytes) :
    ∃ prior ∈ hist, ∃ lock fault, Determined setup prior lock ∧
      Lockfile.write setup.toml fault lock = .ok bytes := by
  induction reached with
  | start pulled absent =>
    rw [absent] at present
    cases present
  | @pull hist call host last out pre answered plain ret ih =>
    have carryOver : last.lockfile = host.lockfile →
        ∃ prior ∈ call :: hist, ∃ lock fault, Determined setup prior lock ∧
          Lockfile.write setup.toml fault lock = .ok bytes := by
      intro same
      rcases ih (same.symm.trans present) with ⟨prior, mem, found⟩
      exact ⟨prior, mem_cons_of_mem _ mem, found⟩
    rcases out with _ | _
    · exact carryOver (lockfile_of_failure ret)
    · rcases noFetch : call.flags.noFetch with _ | _
      · rcases lockfile_of_plain_fetch inj noFetch answered (pre.current inj) plain ret with
          ⟨-, same⟩ | ⟨lock, written, determined, writes, replaced⟩
        · exact carryOver same
        · rw [present, Option.some.injEq] at replaced
          rw [← replaced] at writes
          exact ⟨call, mem_cons_self, lock, _, determined, writes⟩
      · exact carryOver (lockfile_of_noFetch noFetch ret)

end History

def entryKey (entry : LockfileEntry) : String × String × String × Option String :=
  (entry.coords, entry.version, entry.type, entry.classifier)

def depKey (dep : ResolvedDep) : String × String × String × Option String :=
  (dep.coords.display, dep.version, dep.type, dep.classifier)

def lockedKeys (scope : ScopeArg) (lockfile : Lockfile) :
    List (String × String × String × Option String) :=
  (lockfile.entries.filter fun entry =>
    entry.scope ∈ (scopeFilter scope).map scopeToStr).map entryKey

def WalksTo (setup : Setup) (invocation : Invocation) (graph : ResolvedGraph) : Prop :=
  ∃ pomText rawPom signature, readPom setup invocation = .ok (pomText, rawPom) ∧
    ResolvesTo setup rawPom invocation.flags.scope signature graph

theorem scopeToStr_injective : Function.Injective scopeToStr := by
  intro left right
  cases left <;> cases right <;> decide

section Answers

variable {prior : Invocation} {lock : Lockfile}

theorem lockedKeys_of_described {deps : List ResolvedDep} (scope : ScopeArg)
    (described : Forall₂ (EntryOf setup) deps lock.entries) :
    lockedKeys scope lock = (deps.filter fun dep => dep.scope ∈ scopeFilter scope).map depKey := by
  unfold lockedKeys
  generalize lock.entries = entries at described ⊢
  induction described with
  | nil => rfl
  | @cons dep entry deps entries head tail ih =>
    rcases head with ⟨download, -, rfl⟩
    have sameScope : scopeToStr dep.scope ∈ (scopeFilter scope).map scopeToStr ↔
        dep.scope ∈ scopeFilter scope := List.mem_map_of_injective scopeToStr_injective
    have scopeOf : (buildLockfileEntry dep
        (.ofRow (setup.cache.rowFor download 0) .remote)).scope = scopeToStr dep.scope := rfl
    simp only [filter_cons, scopeOf, sameScope]
    split
    · rw [map_cons, map_cons, ih]
      rfl
    · exact ih

theorem Determined.carried {runs : List Invocation}
    (signatures : Set.InjOn setup.cache.digests.sha256
      {input | ∃ run ∈ runs, SignatureInput setup run input})
    (determined : Determined setup prior lock) (listed : prior ∈ runs)
    (cur : call ∈ runs) {pomText : String} {rawPom : Pom.RawPom}
    {res : Pom.ResolvedPom} (readable : readPom setup call = .ok (pomText, rawPom))
    (eff : effectivePom setup (upstream setup) rawPom = .ok res)
    (signed : projectSignature setup res = .ok lock.metaTable.projectSignature) :
    ∃ graph, WalksTo setup call graph ∧ Forall₂ (EntryOf setup) graph.resolved lock.entries := by
  rcases determined with ⟨earlierText, earlierPom, sig, graph, entries, earlierReadable,
    ⟨earlierResolved, earlierEffective, earlierSigned, walked⟩, described, rfl⟩
  rcases projectSignature_eq_ok.mp signed with ⟨input, fed, hashed⟩
  rcases projectSignature_eq_ok.mp earlierSigned with ⟨earlierInput, earlierFed, earlierHashed⟩
  have sameHash := ContentHash.toHex_injective (earlierHashed.trans hashed.symm)
  have sameInput : earlierInput = input := by
    apply signatures _ _ sameHash
    · exact ⟨prior, listed, earlierText, earlierPom, earlierResolved, earlierReadable,
        earlierEffective, earlierFed⟩
    · exact ⟨call, cur, pomText, rawPom, res, readable, eff, fed⟩
  rw [sameInput] at earlierFed
  have sameDeps : earlierResolved.pom.dependencies = res.pom.dependencies :=
    Lockfile.dependencies_eq_of_hashInput earlierFed fed
  exact ⟨graph, ⟨pomText, rawPom, _, readable, res, eff, signed,
    walkReturns_congr sameDeps walked⟩, described⟩

theorem exists_of_currentSignature {sig : String}
    (signed : currentSignature setup call = some sig) :
    ∃ pomText rawPom res, readPom setup call = .ok (pomText, rawPom) ∧
      effectivePom setup call.answers rawPom = .ok res ∧ projectSignature setup res = .ok sig := by
  rcases readable : readPom setup call with _ | read
  · simp [currentSignature, readable, Except.toOption] at signed
  · rcases eff : effectivePom setup call.answers read.2 with _ | res
    · simp [currentSignature, readable, eff, Except.toOption] at signed
    · rcases named : projectSignature setup res with _ | _
      · simp [currentSignature, readable, eff, named, Except.toOption] at signed
      · simp only [currentSignature, readable, eff, named, Except.toOption,
          bind_eq_bind, bind_some, Option.some.injEq] at signed
        exact ⟨read.1, read.2, res, rfl, eff, by rw [named, signed]⟩

theorem Determined.read_write (faithful : setup.toml.Faithful)
    (determined : Determined setup prior lock) {fault : Option IoError} {bytes : Bytes}
    (written : Lockfile.write setup.toml fault lock = .ok bytes) :
    Lockfile.read setup.toml none bytes = .ok lock := by
  apply Lockfile.read_write faithful _ written
  rcases determined with ⟨-, -, -, -, -, -, -, -, rfl⟩
  rfl

theorem eq_of_lockedSignature {bytes : Bytes} {sig : String} (present : host.lockfile = some bytes)
    (readBack : Lockfile.read setup.toml none bytes = .ok lock)
    (locked : lockedSignature setup call host = some sig) :
    sig = lock.metaTable.projectSignature := by
  rcases fault : call.readLockfile with _ | _
  · simp only [lockedSignature, onDisk, present, fault, readBack, Except.map, Except.toOption,
      bind_eq_bind, bind_some, map_some, Option.some.injEq] at locked
    exact locked.symm
  · simp [lockedSignature, onDisk, present, fault, Lockfile.read, Except.map, Except.toOption]
      at locked

theorem exists_locked_of_pull
    (inj : Set.InjOn setup.cache.digests.sha256 {bytes | setup.cache.Serves bytes})
    (faithful : setup.toml.Faithful) (reached : Reached setup PlainDep hist host)
    (signatures : Set.InjOn setup.cache.digests.sha256
      {input | ∃ run ∈ call :: hist, SignatureInput setup run input})
    (fetches : call.flags.noFetch = false)
    (answered : call.answers = answers setup.cache setup.parsers host.store)
    (plain : ∀ dep ∈ resolvedDeps setup call, PlainDep dep) {report : PullReport}
    (ret : pull setup call host = some (.ok report, last)) :
    ∃ bytes lock graph, last.lockfile = some bytes ∧
      Lockfile.read setup.toml none bytes = .ok lock ∧ WalksTo setup call graph ∧
        Forall₂ (EntryOf setup) graph.resolved lock.entries := by
  have cur := reached.current inj
  rcases lockfile_of_plain_fetch inj fetches answered cur plain ret with
    ⟨settles, same⟩ | ⟨lock, bytes, determined, writes, written⟩
  · rcases isSome_iff_exists.mp settles.present with ⟨bytes, present⟩
    rcases reached.locked inj present with
      ⟨prior, mem, lock, fault, determined, writes⟩
    have readBack := determined.read_write faithful writes
    rcases settles with ⟨-, sig, signed, locked⟩
    have carried := eq_of_lockedSignature present readBack locked
    rcases exists_of_currentSignature signed with ⟨pomText, rawPom, res, readable, eff, named⟩
    rw [answered, cur.answers_eq] at eff
    rw [carried] at named
    rcases determined.carried signatures (mem_cons_of_mem _ mem) mem_cons_self readable
      eff named with ⟨graph, walks, described⟩
    exact ⟨bytes, lock, graph, same.trans present, readBack, walks, described⟩
  · have readBack := determined.read_write faithful writes
    rcases determined with ⟨pomText, rawPom, sig, graph, entries, readable, resolves, described,
      rfl⟩
    exact ⟨bytes, _, graph, written, readBack, ⟨pomText, rawPom, sig, readable, resolves⟩,
      described⟩

end Answers

/-- After a successful full run, the entries with the scope of the run are the artifacts that the
walk has resolved with this scope. They are all that the walk has resolved exactly if it has
resolved no other scope. -/
theorem lockfile_answers_pull_iff (setup : Setup)
    (inj : Set.InjOn setup.cache.digests.sha256 {bytes | setup.cache.Serves bytes})
    (faithful : setup.toml.Faithful) (hist : List Invocation) (call : Invocation)
    (signatures : Set.InjOn setup.cache.digests.sha256
      {input | ∃ run ∈ call :: hist, SignatureInput setup run input})
    (host last : Machine) (reached : Reached setup PlainDep hist host)
    (fetches : call.flags.noFetch = false)
    (answered : call.answers = answers setup.cache setup.parsers host.store)
    (plain : ∀ dep ∈ resolvedDeps setup call, PlainDep dep) (report : PullReport)
    (returned : pull setup call host = some (.ok report, last)) :
    ∃ bytes lock graph, last.lockfile = some bytes ∧
      Lockfile.read setup.toml none bytes = .ok lock ∧ WalksTo setup call graph ∧
      lockedKeys call.flags.scope lock =
        (graph.resolved.filter fun dep => dep.scope ∈ scopeFilter call.flags.scope).map depKey ∧
      ((lockedKeys call.flags.scope lock).Perm (graph.resolved.map depKey) ↔
        ∀ dep ∈ graph.resolved, dep.scope ∈ scopeFilter call.flags.scope) := by
  rcases exists_locked_of_pull inj faithful reached signatures fetches answered plain
    returned with ⟨bytes, lock, graph, written, readBack, walks, described⟩
  have keys := lockedKeys_of_described call.flags.scope described
  refine ⟨bytes, lock, graph, written, readBack, walks, keys, ?_⟩
  rw [keys]
  constructor
  · intro permuted
    have lengths := permuted.length_eq
    rw [length_map, length_map, length_filter_eq_length_iff] at lengths
    simpa using lengths
  · intro requested
    have everything : (graph.resolved.filter fun dep =>
        dep.scope ∈ scopeFilter call.flags.scope) = graph.resolved := by
      rw [filter_eq_self]
      simpa using requested
    rw [everything]

def scopedRun (scope : ScopeArg) (machine : Machine) : Invocation :=
  { readyRun readyLockfile machine with flags := { noFlags with scope } }

theorem signatureInput_unique {setup : Setup} {run other : Invocation} {input otherInput : Bytes}
    (samePom : run.pomText = other.pomText) (hashed : SignatureInput setup run input)
    (otherHashed : SignatureInput setup other otherInput) : input = otherInput := by
  rcases hashed with ⟨pomText, rawPom, res, readable, eff, fed⟩
  rcases otherHashed with
    ⟨otherText, otherPom, otherResolved, otherReadable, otherEffective, otherFed⟩
  have sameRead : readPom setup run = readPom setup other := by simp only [readPom, samePom]
  rw [sameRead, otherReadable] at readable
  cases readable
  rw [eff] at otherEffective
  cases otherEffective
  rw [fed] at otherFed
  cases otherFed
  rfl

/-- The second run asks for another scope and takes the lockfile of the first one. -/
theorem lockfile_answers_pull_small :
    let setup := readySetup readyLockfile
    ∃ report host, pull setup (scopedRun .test .blank) .blank = some (.ok report, host) ∧
      ∃ again last, pull setup (scopedRun .compile host) host = some (.ok again, last) ∧
        ∃ bytes lock graph, last.lockfile = some bytes ∧
          Lockfile.read setup.toml none bytes = .ok lock ∧
          WalksTo setup (scopedRun .compile host) graph ∧
          lockedKeys .compile lock =
            (graph.resolved.filter fun dep => dep.scope ∈ scopeFilter .compile).map depKey ∧
          ((lockedKeys .compile lock).Perm (graph.resolved.map depKey) ↔
            ∀ dep ∈ graph.resolved, dep.scope ∈ scopeFilter .compile) := by
  intro setup
  have inj : Set.InjOn setup.cache.digests.sha256 {bytes | setup.cache.Serves bytes} :=
    noCollisions_small (by decide)
  have plain : ∀ dep ∈ resolvedDeps setup (scopedRun .test .blank), PlainDep dep := by
    decide +kernel
  let next (host : Machine) :=
    ((pull setup (scopedRun .compile host) host).map fun ended => ended.1.toOption.isSome,
      decide (∀ dep ∈ resolvedDeps setup (scopedRun .compile host), PlainDep dep))
  have ran : ((pull setup (scopedRun .test .blank) .blank).map fun ended =>
      (ended.1.toOption.isSome, next ended.2)) = some (true, some true, true) := by decide +kernel
  rcases exists_of_pull next ran with ⟨report, host, returned, nextRan⟩
  rcases Prod.mk.inj nextRan with ⟨nextRan, nextPlain⟩
  rcases map_eq_some_iff.mp nextRan with ⟨⟨result, last⟩, nextReturned, succeeded⟩
  have signatures : Set.InjOn setup.cache.digests.sha256
      {input | ∃ run ∈ [scopedRun .compile host, scopedRun .test .blank],
        SignatureInput setup run input} := by
    have samePom : ∀ run ∈ [scopedRun .compile host, scopedRun .test .blank],
        run.pomText = .ok "app" := by simp [scopedRun, readyRun, Invocation.small]
    rintro input ⟨run, member, hashed⟩ otherInput ⟨other, otherMember, otherHashed⟩ -
    exact signatureInput_unique ((samePom run member).trans (samePom other otherMember).symm) hashed
      otherHashed
  rcases result with _ | again
  · cases succeeded
  · have reached : Reached setup PlainDep [scopedRun .test .blank] host :=
      .pull (.start .empty rfl) rfl plain returned
    exact ⟨report, host, returned, again, last, nextReturned,
      lockfile_answers_pull_iff setup inj (Lockfile.Toml.faithful_only _ readyLockfile) _ _
        signatures host last reached rfl rfl (of_decide_eq_true nextPlain) again nextReturned⟩

def testParser (text : String) : Except String Pom.RawPom :=
  if text = "core" then .ok (leafPom "core") else .ok (appPom "core" "1.0" none (some "test"))

def testSetup (lockfile : Lockfile) : Setup :=
  .small readyFiles testParser (Lockfile.Toml.only "lockfile" lockfile)

def testRun (lockfile : Lockfile) : Invocation :=
  .small (testSetup lockfile) noFlags "app" .blank [(.pom ⟨"org.example", "core"⟩ "1.0", 1)]

def testLockfile : Lockfile :=
  let blank := Lockfile.new "" "" "" ""
  newLockfile (testSetup blank) (testRun blank)
    ((currentSignature (testSetup blank) (testRun blank)).getD "")
    [{ coreEntry with scope := "test" }]

/-- A walk that is asked for the scope `compile` resolves a dependency of scope `test`, which is
locked with its own scope. -/
theorem other_scope_resolved : (testRun testLockfile).flags.scope = .compile ∧
    ∃ report last, pull (testSetup testLockfile) (testRun testLockfile) .blank =
        some (.ok report, last) ∧
      last.lockfile.map (Lockfile.read (testSetup testLockfile).toml none) =
        some (.ok testLockfile) ∧
      lockedKeys .compile testLockfile = [] ∧
      ∃ graph, WalksTo (testSetup testLockfile) (testRun testLockfile) graph ∧
        graph.resolved.map depKey = [("org.example:core", "1.0", "jar", none)] := by
  have ran : ((pull (testSetup testLockfile) (testRun testLockfile) .blank).map fun ended =>
      (ended.1.toOption.isSome,
        ended.2.lockfile.map (Lockfile.read (testSetup testLockfile).toml none))) =
          some (true, some (.ok testLockfile)) := by decide +kernel
  let view (last : Machine) := last.lockfile.map (Lockfile.read (testSetup testLockfile).toml none)
  rcases exists_of_pull view ran with ⟨report, last, returned, written⟩
  refine ⟨rfl, report, last, returned, written, by decide, ?_⟩
  rcases lockfile_of_fetch rfl returned with ⟨settles, -⟩ | ⟨-, bytes, refreshable, -⟩
  · cases settles.present
  · rcases resolvesTo_of_refreshable rfl refreshable with
      ⟨pomText, rawPom, signature, graph, readable, resolves, seen⟩
    refine ⟨graph, ⟨pomText, rawPom, signature, readable, resolves⟩, ?_⟩
    rw [seen]
    decide +kernel

end Barista.Pull
