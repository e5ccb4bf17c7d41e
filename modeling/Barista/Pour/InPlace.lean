import Barista.Assignments
import Barista.Pull.Frozen

/-!
# The command `pour`

The command links the artifacts of a lockfile that have the requested scope into a local repository.
It looks for all blobs before it links the first one; it does not fetch.
-/

namespace Barista.Pour

open Cache
open Lockfile (LockfileEntry)

section Program

open Pull (Machine ScopeArg Setup formatCoord)

structure Args where
  target : Option String
  scope : ScopeArg
  dryRun : Bool
  deriving DecidableEq

inductive PourError where
  | project (detail : String)
  | lockfile (error : Lockfile.FileError)
  | noLockfile (expectedAt hint : String)
  | casOpen (detail : String)
  | badHash (coord : String)
  | badCoords (coord : String) (detail : Coords.ParseError)
  | notInCache (coords : List String)
  | mirror (coord : String) (error : MirrorError)
  deriving DecidableEq

structure PourReport where
  target : String
  scope : String
  considered : ℕ
  planned : ℕ
  materialized : ℕ
  dryRun : Bool
  plannedPaths : List String
  deriving DecidableEq

structure Invocation where
  args : Args
  /-- Whether there is a project with a valid configuration. -/
  project : Except PourError Unit
  readLockfile : Option IoError
  openCas : Except PourError Unit
  mirrorFaults : MirrorFaults

def scopeStr : ScopeArg → String
  | .compile => "compile"
  | .runtime => "runtime"
  | .test => "test"
  | .provided => "provided"
  | .system => "system"

def scopeMatches (requested entryScope : String) : Bool :=
  Text.eqIgnoreAsciiCase requested entryScope

def select (scope : ScopeArg) (lockfile : Lockfile) : List LockfileEntry :=
  lockfile.entries.filter fun entry => scopeMatches (scopeStr scope) entry.scope

def targetOf (coords : Coords) (entry : LockfileEntry) : IndexKey :=
  ⟨coords, entry.version, entry.type, entry.classifier⟩

def parseCoords (entry : LockfileEntry) : Except PourError Coords :=
  (Coords.fromStr entry.coords).mapError (PourError.badCoords entry.coords)

def planDryRun (target : String) (selected : List LockfileEntry) : Except PourError (List String) :=
  selected.mapM' fun entry =>
    (parseCoords entry).map fun coords => m2Path target (targetOf coords entry)

def verifyCas (objects : ContentHash → Option Bytes) :
    List LockfileEntry → Except PourError (List (ContentHash × LockfileEntry) × List String)
  | [] => .ok ([], [])
  | entry :: rest =>
    match ContentHash.fromHex entry.sha256 with
    | none => .error (.badHash (formatCoord entry))
    | some hash =>
      (verifyCas objects rest).map fun (plan, missing) =>
        if (objects hash).isSome then ((hash, entry) :: plan, missing)
        else (plan, formatCoord entry :: missing)

def materializeEntry (faults : MirrorFaults) (objects : ContentHash → Option Bytes)
    (target : String) (item : ContentHash × LockfileEntry) :
    Persistent LocalRepository PourError String :=
  fun repository =>
    match parseCoords item.2 with
    | .error error => (.error error, repository)
    | .ok coords =>
      ((materialize faults objects item.1 target (targetOf coords item.2) repository).1.mapError
          (PourError.mirror (formatCoord item.2)),
        (materialize faults objects item.1 target (targetOf coords item.2) repository).2)

section Command

variable (setup : Setup) (call : Invocation)

def lockPath : String := Path.join setup.projectRoot "barista.lock"

def readLockfile (machine : Machine) : Except PourError Lockfile :=
  match machine.lockfile with
  | none =>
    .error (.noLockfile (lockPath setup)
      "run `barista pull` first to resolve dependencies and create barista.lock")
  | some bytes =>
    (Lockfile.read setup.toml call.readLockfile bytes).mapError PourError.lockfile

def targetRoot : String := call.args.target.getD setup.m2Root

variable (lockfile : Lockfile)

def report (planned materialized : ℕ) (paths : List String) : PourReport where
  target := targetRoot setup call
  scope := scopeStr call.args.scope
  considered := lockfile.entries.length
  planned := planned
  materialized := materialized
  dryRun := call.args.dryRun
  plannedPaths := paths

def materializePlan (plan : List (ContentHash × LockfileEntry)) :
    Persistent Machine PourError PourReport :=
  fun machine =>
    let (outcome, repository) := (plan.mapM' (materializeEntry call.mirrorFaults
      machine.store.objects (targetRoot setup call))) machine.repository
    (outcome.map fun paths => report setup call lockfile plan.length paths.length paths,
      { machine with repository })

def pourLockfile : Persistent Machine PourError PourReport := fun machine =>
    let selected := select call.args.scope lockfile
    if call.args.dryRun then
      ((planDryRun (targetRoot setup call) selected).map fun paths =>
        report setup call lockfile paths.length 0 paths, machine)
    else
      match call.openCas with
      | .error error => (.error error, machine)
      | .ok _ =>
        match verifyCas machine.store.objects selected with
        | .error error => (.error error, machine)
        | .ok (plan, missing) =>
          if missing ≠ [] then (.error (.notInCache missing), machine)
          else materializePlan setup call lockfile plan machine

def pour : Persistent Machine PourError PourReport := fun machine =>
    match call.project with
    | .error error => (.error error, machine)
    | .ok _ =>
      match readLockfile setup call machine with
      | .error error => (.error error, machine)
      | .ok lockfile => pourLockfile setup call lockfile machine

end Command

end Program

/-!
# What a pour leaves in the repository

A run that succeeds makes assignments to the repository (`Assignments.assign`): at the Maven path of
every selected entry there is its blob afterwards, and of two entries with the same path the later
one counts. So the entries are in place then, and a second run changes nothing.
-/

section Assigned

open List
open Assignments (assign)
open Pull (Machine Setup formatCoord)

structure Names (entry : LockfileEntry) (item : ContentHash × IndexKey) : Prop where
  hash : ContentHash.fromHex entry.sha256 = some item.1
  coords : Coords.fromStr entry.coords = .ok item.2.coords
  target : item.2 = targetOf item.2.coords entry

def assignments (target : String) (objects : ContentHash → Option Bytes)
    (items : List (ContentHash × IndexKey)) : List (List String × Option Bytes) :=
  items.map fun item => (Path.resolve (m2Path target item.2), objects item.1)

def InPlace (target : String) (machine : Machine) (entries : List LockfileEntry) : Prop :=
  ∃ items, Forall₂ Names entries items ∧ (∀ item ∈ items, (machine.store.objects item.1).isSome) ∧
      assign (assignments target machine.store.objects items)
          (machine.repository.contents machine.store.objects) =
        machine.repository.contents machine.store.objects

variable {objects : ContentHash → Option Bytes} {entries : List LockfileEntry}
  {plan : List (ContentHash × LockfileEntry)} {items : List (ContentHash × IndexKey)}

variable (objects) in
structure Verified (entry : LockfileEntry) (item : ContentHash × LockfileEntry) : Prop where
  hash : ContentHash.fromHex entry.sha256 = some item.1
  same : item.2 = entry
  held : (objects item.1).isSome

theorem Verified.eq {entry : LockfileEntry} {item : ContentHash × LockfileEntry}
    (verified : Verified objects entry item) {hash : ContentHash}
    (named : ContentHash.fromHex entry.sha256 = some hash) : item = (hash, entry) :=
  Prod.ext (Option.some.inj (verified.hash.symm.trans named)) verified.same

theorem verifyCas_eq_ok :
    verifyCas objects entries = .ok (plan, []) ↔ Forall₂ (Verified objects) entries plan := by
  induction entries generalizing plan with
  | nil =>
    rw [forall₂_nil_left_iff]
    simp [verifyCas, eq_comm]
  | cons entry rest ih =>
    rw [forall₂_cons_left_iff, verifyCas]
    rcases named : ContentHash.fromHex entry.sha256 with _ | _
    · simp only [reduceCtorEq, false_iff]
      rintro ⟨item, _, verified, -⟩
      cases named.symm.trans verified.hash
    · dsimp only
      constructor
      · intro found
        rcases map_eq_ok.mp found with ⟨⟨others, missing⟩, rest, same⟩
        dsimp only at same
        split at same
        · rename_i held
          rcases Prod.mk.inj same with ⟨rfl, rfl⟩
          exact ⟨_, _, ⟨named, rfl, held⟩, ih.mp rest, rfl⟩
        · cases (Prod.mk.inj same).2
      · rintro ⟨item, others, verified, related, rfl⟩
        rw [ih.mpr related, verified.eq named]
        have held := verified.held
        rw [verified.eq named] at held
        exact congrArg Except.ok (if_pos held)

structure Keyed (planned : ContentHash × LockfileEntry) (item : ContentHash × IndexKey) : Prop where
  hash : item.1 = planned.1
  coords : Coords.fromStr planned.2.coords = .ok item.2.coords
  target : item.2 = targetOf item.2.coords planned.2

theorem Verified.names {entry : LockfileEntry}
    {planned : ContentHash × LockfileEntry} {item : ContentHash × IndexKey}
    (verified : Verified objects entry planned) (keyed : Keyed planned item) :
    Names entry item := by
  refine ⟨?_, ?_, ?_⟩
  · rw [keyed.hash]
    exact verified.hash
  · rw [← verified.same]
    exact keyed.coords
  · rw [← verified.same]
    exact keyed.target

theorem rightUnique_names : Relator.RightUnique Names := by
  intro entry item other named otherNamed
  have sameCoords := named.coords.symm.trans otherNamed.coords
  rw [Except.ok.injEq] at sameCoords
  apply Prod.ext
  · exact Option.some.inj (named.hash.symm.trans otherNamed.hash)
  · rw [named.target, otherNamed.target, sameCoords]

theorem exists_verified (named : Forall₂ Names entries items)
    (held : ∀ item ∈ items, (objects item.1).isSome) :
    ∃ plan, Forall₂ (Verified objects) entries plan ∧ Forall₂ Keyed plan items := by
  induction named with
  | nil => exact ⟨[], .nil, .nil⟩
  | @cons entry item entries items names related ih =>
    rw [forall_mem_cons] at held
    rcases ih held.2 with ⟨plan, verified, keyed⟩
    exact ⟨(item.1, entry) :: plan, .cons ⟨names.hash, rfl, held.1⟩ verified,
      .cons ⟨rfl, names.coords, names.target⟩ keyed⟩

section Plan

variable {faults : MirrorFaults} {tgt path : String}
  {planned : ContentHash × LockfileEntry} {item : ContentHash × IndexKey}
  {repo last : LocalRepository}

theorem materializeEntry_of_keyed (keyed : Keyed planned item) :
    materializeEntry faults objects tgt planned repo =
      ((materialize faults objects item.1 tgt item.2 repo).1.mapError
          (PourError.mirror (formatCoord planned.2)),
        (materialize faults objects item.1 tgt item.2 repo).2) := by
  have parsed : parseCoords planned.2 = .ok item.2.coords := by
    rw [parseCoords, keyed.coords]
    rfl
  simp only [materializeEntry, parsed]
  rw [← keyed.target, keyed.hash]

theorem exists_keyed (ran : materializeEntry faults objects tgt planned repo = (.ok path, last)) :
    ∃ item, Keyed planned item ∧
      materialize faults objects item.1 tgt item.2 repo = (.ok path, last) := by
  rcases parsed : Coords.fromStr planned.2.coords with _ | coords
  · simp [materializeEntry, parseCoords, parsed, Except.mapError] at ran
  · have keyed : Keyed planned (planned.1, targetOf coords planned.2) := ⟨rfl, parsed, rfl⟩
    rw [materializeEntry_of_keyed keyed, Prod.mk.injEq, Pull.mapError_eq_ok] at ran
    exact ⟨_, keyed, Prod.ext ran.1 ran.2⟩

theorem exists_items {paths : List String}
    (ran : (plan.mapM' (materializeEntry faults objects tgt)) repo = (.ok paths, last)) :
    ∃ items, Forall₂ Keyed plan items ∧ last.contents objects =
        assign (assignments tgt objects items) (repo.contents objects) := by
  induction plan generalizing repo paths with
  | nil =>
    rw [mapM'_nil, Persistent.pure_eq_ok] at ran
    rw [ran.2]
    exact ⟨[], .nil, rfl⟩
  | cons planned plan ih =>
    rw [mapM'_cons, Persistent.bind_eq_ok] at ran
    rcases ran with ⟨path, mid, first, ran⟩
    rcases Persistent.bind_eq_ok.mp ran with ⟨others, between, rest, ended⟩
    rcases Persistent.pure_eq_ok.mp ended with ⟨-, rfl⟩
    rcases exists_keyed first with ⟨item, keyed, linked⟩
    rcases ih rest with ⟨items, related, contents⟩
    refine ⟨item :: items, .cons keyed related, ?_⟩
    rw [contents, contents_materialize_eq linked]
    rfl

theorem exists_linked (reliable : faults.Reliable) (related : Forall₂ Keyed plan items)
    (held : ∀ item ∈ items, (objects item.1).isSome)
    (vacant : ∀ item ∈ items, repo (Path.resolve (m2Path tgt item.2)) ≠ some .directory) :
    ∃ paths last, (plan.mapM' (materializeEntry faults objects tgt)) repo = (.ok paths, last) := by
  refine Persistent.exists_mapM'_eq_ok (fun repo : LocalRepository => ∀ item ∈ items,
    repo (Path.resolve (m2Path tgt item.2)) ≠ some .directory) vacant ?_
  intro planned mem pre vacant
  rcases forall₂_exists_right related mem with ⟨item, listed, keyed⟩
  rcases materialize_of_reliable reliable (held item listed) (vacant item listed) with
    ⟨path, post, linked⟩
  refine ⟨path, post, ?_, ?_⟩
  · rw [materializeEntry_of_keyed keyed, linked]
    rfl
  · intro other otherListed
    exact ne_directory_materialize linked (vacant other otherListed)

end Plan

section Runs

variable {setup : Setup} {call : Invocation} {lock : Lockfile} {host last : Machine}
  {report : PourReport}

theorem snd_pourLockfile : (pourLockfile setup call lock host).2 =
    { host with
      repository := (pourLockfile setup call lock host).2.repository } := by
  unfold pourLockfile materializePlan
  dsimp only
  repeat' split
  all_goals rfl

section Placed

variable (real : call.args.dryRun = false)
  (ran : pourLockfile setup call lock host = (.ok report, last))

include real ran

theorem exists_plan :
    ∃ plan paths, Forall₂ (Verified host.store.objects) (select call.args.scope lock) plan ∧
      (plan.mapM' (materializeEntry call.mirrorFaults host.store.objects
        (targetRoot setup call))) host.repository = (.ok paths, last.repository) := by
  simp only [pourLockfile, real, Bool.false_eq_true, if_false] at ran
  split at ran
  · cases ran
  · split at ran
    · cases ran
    · rename_i plan missing found
      split at ran
      · cases ran
      · rename_i complete
        rw [not_not] at complete
        rw [complete, verifyCas_eq_ok] at found
        rcases linked : (plan.mapM' (materializeEntry call.mirrorFaults
          host.store.objects (targetRoot setup call))) host.repository with
          ⟨failure | paths, repo⟩
        · simp [materializePlan, linked, Except.map] at ran
        · simp only [materializePlan, linked, Prod.mk.injEq] at ran
          refine ⟨plan, paths, found, linked.trans ?_⟩
          rw [← ran.2]

theorem exists_assigned : ∃ items, Forall₂ Names (select call.args.scope lock) items ∧
      (∀ item ∈ items, (host.store.objects item.1).isSome) ∧
        last.repository.contents host.store.objects =
          assign (assignments (targetRoot setup call) host.store.objects items)
            (host.repository.contents host.store.objects) := by
  rcases exists_plan real ran with ⟨plan, paths, verified, linked⟩
  rcases exists_items linked with ⟨items, keyed, contents⟩
  have named : Forall₂ Names (select call.args.scope lock) items := by
    refine forall₂_trans ?_ verified keyed
    intro entry planned item entryVerified itemKeyed
    exact entryVerified.names itemKeyed
  refine ⟨items, named, ?_, contents⟩
  intro item listed
  rcases forall₂_exists_right keyed.flip listed with ⟨planned, plannedListed, itemKeyed⟩
  rcases forall₂_exists_right verified.flip plannedListed with ⟨entry, -, entryVerified⟩
  rw [itemKeyed.hash]
  exact entryVerified.held

theorem inPlace_of_pour : InPlace (targetRoot setup call) last (select call.args.scope lock) := by
  rcases exists_assigned real ran with ⟨items, named, held, contents⟩
  have kept := @snd_pourLockfile setup call lock host
  rw [ran] at kept
  have sameStore : last.store = host.store := by
    simpa using congrArg Machine.store kept
  refine ⟨items, named, ?_, ?_⟩
  · rw [sameStore]
    exact held
  · rw [sameStore, contents]
    exact Assignments.assign_assign

end Placed

namespace InPlace

variable {tgt : String}

theorem isSome_contents {contents : List String → Option Bytes}
    (held : ∀ item ∈ items, (objects item.1).isSome)
    (same : assign (assignments tgt objects items) contents = contents) {place : List String}
    (assigned : place ∈ (assignments tgt objects items).map Prod.fst) :
    (contents place).isSome := by
  rcases Assignments.exists_mem_assign assigned with ⟨val, mem, value_eq⟩
  rcases mem_map.mp mem with ⟨item, listed, pair⟩
  rw [← congrFun same place, value_eq, ← (Prod.mk.inj pair).2]
  exact held item listed

section Again

variable (inPlace : InPlace (targetRoot setup call) host (select call.args.scope lock))

include inPlace

theorem contents_eq (real : call.args.dryRun = false)
    (ran : pourLockfile setup call lock host = (.ok report, last)) :
    last.repository.contents host.store.objects = host.repository.contents host.store.objects := by
  rcases inPlace with ⟨items, named, -, same⟩
  rcases exists_assigned real ran with ⟨others, otherNamed, -, contents⟩
  cases right_unique_forall₂' rightUnique_names named otherNamed
  rw [contents, same]

theorem exists_pourLockfile (opened : call.openCas = .ok ()) (reliable : call.mirrorFaults.Reliable)
    (real : call.args.dryRun = false) :
    ∃ report last, pourLockfile setup call lock host = (.ok report, last) := by
  rcases inPlace with ⟨items, named, held, same⟩
  rcases exists_verified named held with ⟨plan, verified, keyed⟩
  have vacant : ∀ item ∈ items, host.repository
      (Path.resolve (m2Path (targetRoot setup call) item.2)) ≠ some .directory := by
    intro item listed
    have assigned : Path.resolve (m2Path (targetRoot setup call) item.2) ∈
        (assignments (targetRoot setup call) host.store.objects items).map Prod.fst := by
      rw [assignments, map_map]
      exact mem_map_of_mem listed
    exact ne_directory_of_contents (isSome_contents held same assigned)
  rcases exists_linked reliable keyed held vacant with ⟨paths, repo, linked⟩
  simp only [pourLockfile, real, Bool.false_eq_true, if_false, opened,
    verifyCas_eq_ok.mpr verified, materializePlan, linked, ne_eq, not_true_eq_false, Except.map]
  exact ⟨_, _, rfl⟩

end Again

/-- A pour that succeeded succeeds again, and changes no content. -/
theorem pourLockfile_again (real : call.args.dryRun = false) (opened : call.openCas = .ok ())
    (reliable : call.mirrorFaults.Reliable)
    (ran : pourLockfile setup call lock host = (.ok report, last)) :
    ∃ again final, pourLockfile setup call lock last = (.ok again, final) ∧
      final.repository.contents last.store.objects =
        last.repository.contents last.store.objects := by
  have inPlace := inPlace_of_pour real ran
  rcases inPlace.exists_pourLockfile opened reliable real with ⟨again, final, poured⟩
  exact ⟨again, final, poured, inPlace.contents_eq real poured⟩

end InPlace

end Runs

end Assigned

/-!
# All selected entries at the same time

Of two entries with one Maven path the later one is there after the run. So every entry is in place
if and only if entries with one path have one hash. Different artifacts can have one path, because
the classifier and the type are written next to each other with a dot between them.
-/

open Function
open Pull (Machine Setup)

def pathOf (target : String) (entry : LockfileEntry) : Option (List String) :=
  (Coords.fromStr entry.coords).toOption.map fun coords =>
    Path.resolve (m2Path target (targetOf coords entry))

/-- The file at the Maven path of an entry has the digest of the entry. -/
def Placed (sha256 : Bytes → ContentHash) (target : String) (machine : Machine)
    (entry : LockfileEntry) : Prop :=
  (ContentHash.fromHex entry.sha256).isSome ∧
    ((pathOf target entry).bind (machine.repository.contents machine.store.objects)).map sha256 =
      ContentHash.fromHex entry.sha256

instance (sha256 : Bytes → ContentHash) (target : String) (machine : Machine)
    (entry : LockfileEntry) : Decidable (Placed sha256 target machine entry) :=
  inferInstanceAs (Decidable (_ ∧ _))

theorem Names.pathOf {entry : LockfileEntry} {item : ContentHash × IndexKey}
    (names : Names entry item) (tgt : String) :
    pathOf tgt entry = some (Path.resolve (m2Path tgt item.2)) := by
  rw [Pour.pathOf, names.coords, names.target]
  rfl

section Assigned

variable {sha : Bytes → ContentHash} {tgt : String} {objects : ContentHash → Option Bytes}
  {entries : List LockfileEntry} {items : List (ContentHash × IndexKey)}

theorem sha256_assigned (valid : ∀ hash bytes, objects hash = some bytes → sha bytes = hash)
    (named : List.Forall₂ Names entries items) (held : ∀ item ∈ items, (objects item.1).isSome)
    (pre : List String → Option Bytes) {entry : LockfileEntry} (sel : entry ∈ entries) :
    ∃ other ∈ entries, pathOf tgt entry = pathOf tgt other ∧ ((pathOf tgt entry).bind
        (Assignments.assign (assignments tgt objects items) pre)).map sha =
          ContentHash.fromHex other.sha256 := by
  rcases forall₂_exists_right named sel with ⟨item, listed, names⟩
  have assigned : Path.resolve (m2Path tgt item.2) ∈
      (assignments tgt objects items).map Prod.fst := by
    rw [assignments, List.map_map]
    exact List.mem_map_of_mem listed
  rcases Assignments.exists_mem_assign assigned with ⟨val, mem, value_eq⟩
  rcases List.mem_map.mp mem with ⟨last, lastListed, pair⟩
  rcases Prod.mk.inj pair with ⟨samePath, rfl⟩
  rcases forall₂_exists_right named.flip lastListed with ⟨other, otherSelected, otherNames⟩
  refine ⟨other, otherSelected, ?_, ?_⟩
  · rw [names.pathOf, otherNames.pathOf, samePath]
  · rcases Option.isSome_iff_exists.mp (held last lastListed) with ⟨bytes, there⟩
    rw [names.pathOf, Option.bind_some, value_eq, there, otherNames.hash, Option.map_some,
      valid _ _ there]

end Assigned

/-- After a run that succeeds, every selected entry is in place if and only if selected entries with
the same path have the same hash.  A dry run leaves everything as it is. -/
theorem pour_places_iff (setup : Setup) (invocation : Invocation) (lockfile : Lockfile)
    (machine last : Machine) (report : PourReport)
    (valid : ∀ hash bytes, machine.store.objects hash = some bytes →
      setup.cache.digests.sha256 bytes = hash)
    (read : readLockfile setup invocation machine = .ok lockfile)
    (ran : pour setup invocation machine = (.ok report, last)) :
    (∀ entry ∈ select invocation.args.scope lockfile,
      Placed setup.cache.digests.sha256 (targetRoot setup invocation) last entry) ↔
    if invocation.args.dryRun then
      ∀ entry ∈ select invocation.args.scope lockfile,
        Placed setup.cache.digests.sha256 (targetRoot setup invocation) machine entry
    else
      ∀ first ∈ select invocation.args.scope lockfile,
        ∀ second ∈ select invocation.args.scope lockfile,
          pathOf (targetRoot setup invocation) first = pathOf (targetRoot setup invocation) second →
            ContentHash.fromHex first.sha256 = ContentHash.fromHex second.sha256 := by
  unfold pour at ran
  rw [read] at ran
  split at ran
  · cases ran
  dsimp only at ran
  split_ifs with dry
  · simp only [pourLockfile, dry, if_true, Prod.mk.injEq] at ran
    rw [ran.2]
  · rcases exists_assigned (by simpa using dry) ran with ⟨items, named, held, contents⟩
    have sameStore : last.store = machine.store := by
      have kept := @snd_pourLockfile setup invocation lockfile machine
      rw [ran] at kept
      simpa using congrArg Machine.store kept
    unfold Placed
    rw [sameStore, contents]
    refine ⟨?_, ?_⟩
    · intro placed first firstSelected second secondSelected samePath
      rw [← (placed first firstSelected).2, samePath, (placed second secondSelected).2]
    · intro agree entry selected
      rcases sha256_assigned valid named held
        (machine.repository.contents machine.store.objects) selected with
        ⟨other, otherSelected, samePath, there⟩
      rcases forall₂_exists_right named selected with ⟨item, -, names⟩
      refine ⟨?_, ?_⟩
      · rw [names.hash]
        rfl
      · rw [there, agree entry selected other otherSelected samePath]

/-! ## One path for two artifacts -/

def classifiedEntry (classifier type : String) (bytes : Bytes) : LockfileEntry :=
  { Pull.coreEntry with classifier := some classifier, type, sha256 := (shortHash bytes).toHex }

def classifiedLockfile (entries : List LockfileEntry) : Lockfile :=
  { Lockfile.new "" "" "" "" with entries }

def classifiedMachine : Machine :=
  { Machine.blank with
    store := (Store.empty.putBlob (shortHash [1]) [1]).putBlob (shortHash [2]) [2]
    lockfile := some (Lockfile.utf8 "lockfile") }

def pourAll : Invocation := ⟨⟨none, .compile, false⟩, .ok (), none, .ok (), .none⟩

theorem valid_classifiedMachine (hash : ContentHash) (bytes : Bytes)
    (held : classifiedMachine.store.objects hash = some bytes) : shortHash bytes = hash := by
  have ne : shortHash [2] ≠ shortHash [1] := by decide
  by_cases second : hash = shortHash [2]
  · subst second
    simp only [classifiedMachine, Store.putBlob, Store.empty, update_self,
      update_of_ne ne, Option.getD_none, Option.some.injEq] at held
    rw [held]
  · by_cases first : hash = shortHash [1]
    · subst first
      simp only [classifiedMachine, Store.putBlob, Store.empty, update_of_ne second,
        update_self, Option.getD_none, Option.some.injEq] at held
      rw [held]
    · simp [classifiedMachine, Store.putBlob, Store.empty, first, second] at held

def distinctEntries : List LockfileEntry :=
  [classifiedEntry "bin" "tar.gz" [1], classifiedEntry "bin.tar" "xz" [2]]

theorem pour_places_iff_distinct :
    let setup := Pull.readySetup (classifiedLockfile distinctEntries)
    (pour setup pourAll classifiedMachine).1.toOption.isSome = true ∧ ∀ entry ∈ distinctEntries,
        Placed shortHash "/m2" (pour setup pourAll classifiedMachine).2 entry := by
  intro setup
  have ran : (pour setup pourAll classifiedMachine).1.toOption.isSome = true := by decide +kernel
  refine ⟨ran, ?_⟩
  rcases returned : pour setup pourAll classifiedMachine with ⟨failure | report, last⟩
  · rw [returned] at ran
    cases ran
  · exact (pour_places_iff setup pourAll (classifiedLockfile distinctEntries) classifiedMachine last
      report valid_classifiedMachine (by decide +kernel) returned).mpr (by decide +kernel)

theorem pourLockfile_again_distinct :
    let lock := classifiedLockfile distinctEntries
    let pour := pourLockfile (Pull.readySetup lock) pourAll lock
    (pour (pour classifiedMachine).2).1.toOption.isSome = true := by
  intro lock pour
  have ran : (pour classifiedMachine).1.toOption.isSome = true := by decide +kernel
  rcases returned : pour classifiedMachine with ⟨failure | report, last⟩
  · rw [returned] at ran
    cases ran
  · rcases InPlace.pourLockfile_again rfl rfl MirrorFaults.reliable_none returned with
      ⟨again, final, poured, -⟩
    exact congrArg (·.1.toOption.isSome) poured

def clashingEntries : List LockfileEntry :=
  [classifiedEntry "bin" "tar.gz" [1], classifiedEntry "bin.tar" "gz" [2]]

/-- The later of two entries with one path is left there. -/
theorem pour_overwrites_shared_path :
    let setup := Pull.readySetup (classifiedLockfile clashingEntries)
    (clashingEntries.map fun entry =>
      (entry.coords, entry.version, entry.classifier, entry.type)).Nodup ∧
    (∀ hash bytes, classifiedMachine.store.objects hash = some bytes →
      setup.cache.digests.sha256 bytes = hash) ∧
    readLockfile setup pourAll classifiedMachine = .ok (classifiedLockfile clashingEntries) ∧
    (pour setup pourAll classifiedMachine).1.toOption.isSome = true ∧
    ∃ entry ∈ select .compile (classifiedLockfile clashingEntries),
      ¬Placed setup.cache.digests.sha256 (targetRoot setup pourAll)
        (pour setup pourAll classifiedMachine).2 entry := by
  intro setup
  have placed : (pour setup pourAll classifiedMachine).1.toOption.isSome = true ∧
      ∃ entry ∈ select .compile (classifiedLockfile clashingEntries),
        ¬Placed setup.cache.digests.sha256 (targetRoot setup pourAll)
          (pour setup pourAll classifiedMachine).2 entry := by decide +kernel
  exact ⟨by decide +kernel, valid_classifiedMachine, by decide +kernel, placed⟩

end Barista.Pour
