import Barista.Cache.Gc
import Barista.Pull.Artifact
import Barista.Resolver.Prefetch

/-!
# Transparency of the cache

What the cache holds comes from upstream, whatever operations ran and wherever they were killed.
So an answer differs from that of an empty cache only if a row has lost its blob.
-/

namespace Barista.Cache

section Fetches

inductive Wanted where
  | artifact (target : IndexKey)
  | metadata (coords : Coords)
  | snapshotMetadata (coords : Coords) (version : String)
  deriving DecidableEq

def Wanted.request (fetcher : Fetcher) : Wanted → Request
  | artifact target => .artifact target
  | metadata coords => .metadata fetcher coords
  | snapshotMetadata coords version => .snapshotMetadata fetcher coords version

inductive Effect where
  | storeBlob (hash : ContentHash) (bytes : Bytes)
  | putRow (key : IndexKey) (entry : IndexEntry)
  | touchRow (key : IndexKey) (now : UInt64)
  | removeBlob (hash : ContentHash)
  | removeRow (key : IndexKey)

namespace Effect

def apply (store : Store) : Effect → Store
  | storeBlob hash bytes => store.putBlob hash bytes
  | putRow key entry => store.putRow key entry
  | touchRow key now => store.touch key now
  | removeBlob hash => { store with objects := Function.update store.objects hash none }
  | removeRow key => { store with index := store.index.erase key }

end Effect

namespace Environment

variable (env : Environment)

def download (request : Request) : Except DownloadFailure Download :=
  match request.urlOverride with
  | some url => env.downloadUrl url
  | none => env.downloadArtifact request.target

def enter (key : IndexKey) (now : UInt64) : Except DownloadFailure Download → List Effect
  | .error _ => []
  | .ok download =>
    [.storeBlob (env.digests.sha256 download.bytes) download.bytes,
      .putRow key (env.rowFor download now)]

end Environment

inductive Operation where
  | fetch (wanted : Wanted) (now : UInt64)
  | fetchArtifact (target : IndexKey) (now : UInt64)
  | collect (highBytes lowBytes : UInt64) (keepHardlinked : Bool) (links : ContentHash → ℕ)

namespace Operation

variable (env : Environment) (store : Store)

def collectedRows (highBytes lowBytes : UInt64) (keepHardlinked : Bool)
    (links : ContentHash → ℕ) : List Row :=
  if Gc.totalBytes store.index < highBytes then []
  else
    Gc.removedRows lowBytes
      (Gc.pinned keepHardlinked fun hash => (store.objects hash).map fun _ => links hash)
      (Gc.totalBytes store.index) (Gc.sortedRows store.index)

def effects : Operation → List Effect
  | fetch wanted now =>
    let request := wanted.request env.fetcher
    match store.index[request.key]? with
    | some entry => if (store.objects entry.hash).isSome then [.touchRow request.key now] else []
    | none => env.enter request.key now (env.download request)
  | fetchArtifact target now =>
    if (Pull.cachedRow target store).isSome then []
    else env.enter target now (env.downloadArtifact target)
  | collect highBytes lowBytes keepHardlinked links =>
    (collectedRows store highBytes lowBytes keepHardlinked links).flatMap fun row =>
      [.removeBlob row.2.hash, .removeRow row.1]

def run (operation : Operation × ℕ) : Store :=
  ((effects env store operation.1).take operation.2).foldl Effect.apply store

def after (operations : List (Operation × ℕ)) : Store := operations.foldl (run env) .empty

end Operation

section Programs

variable {env : Environment} {now : UInt64} {store : Store}

theorem fetchUpstream_eq (req : Request) : (fetchUpstream env now req store).2 =
        (env.enter req.key now (env.download req)).foldl Effect.apply store ∧
      (fetchUpstream env now req store).1.toOption.map Prod.fst =
        (env.download req).toOption.map Download.bytes := by
  rcases override : req.urlOverride with _ | url
  · simp only [fetchUpstream, Environment.download, override, fetchAndCache]
    rcases env.downloadArtifact req.target with failure | _
    · cases failure <;> exact ⟨rfl, rfl⟩
    · exact ⟨rfl, rfl⟩
  · simp only [fetchUpstream, Environment.download, override, fetchUrlAndCache]
    rcases env.downloadUrl url with failure | _
    · cases failure <;> exact ⟨rfl, rfl⟩
    · exact ⟨rfl, rfl⟩

theorem effects_fetch (wanted : Wanted) :
    (getOrFetchArtifact env none now (wanted.request env.fetcher) store).2 =
      ((Operation.fetch wanted now).effects env store).foldl Effect.apply store := by
  simp only [getOrFetchArtifact, Operation.effects]
  rcases store.index[(wanted.request env.fetcher).key]? with _ | entry
  · rw [← (fetchUpstream_eq (wanted.request env.fetcher)).1]
    cases (wanted.request env.fetcher).urlOverride <;> rfl
  · simp only [fetchHit]
    cases store.objects entry.hash <;> simp [Effect.apply]

/-- A fetch of the command does a first part of the steps of its operation, where one of its writes
may be the last. -/
theorem effects_fetchArtifact (faults : Pull.EntryFaults) (tgt : IndexKey) :
    ∃ steps, (Pull.fetchArtifactToCache env faults now tgt store).2 =
      Operation.run env store (.fetchArtifact tgt now, steps) := by
  simp only [Pull.fetchArtifactToCache, Operation.run, Operation.effects]
  rcases Pull.cachedRow tgt store with _ | _
  · simp only [Option.isSome_none, Bool.false_eq_true, ↓reduceIte]
    rcases env.downloadArtifact tgt with failure | _
    · exact ⟨0, by cases failure <;> rfl⟩
    · dsimp only
      split
      · exact ⟨0, rfl⟩
      · rcases faults.indexPut with _ | ⟨_ | _, _⟩
        · exact ⟨2, rfl⟩
        · exact ⟨1, rfl⟩
        · exact ⟨2, rfl⟩
  · exact ⟨0, by simp⟩

end Programs

namespace Environment

variable (env : Environment)

def Serves (bytes : Bytes) : Prop := ∃ url headers, env.fetchFresh url = .ok (bytes, headers)

def Fetched (key : IndexKey) (download : Download) : Prop :=
  ∃ wanted : Wanted, (wanted.request env.fetcher).key = key ∧
    env.download (wanted.request env.fetcher) = .ok download

structure Recorded (entry : IndexEntry) (download : Download) : Prop where
  hash : entry.hash = env.digests.sha256 download.bytes
  sizeBytes : entry.sizeBytes = .ofNat download.bytes.length
  sha1Hex : entry.sha1Hex = download.sha1Hex
  origin : entry.origin = (env.rowFor download 0).origin

structure Provenance (store : Store) : Prop where
  blobs : ∀ hash bytes, store.objects hash = some bytes →
    env.Serves bytes ∧ env.digests.sha256 bytes = hash
  rows : ∀ key entry, store.index[key]? = some entry →
    ∃ download, env.Fetched key download ∧ env.Recorded entry download

def Honest : Effect → Prop
  | .storeBlob hash bytes => env.Serves bytes ∧ env.digests.sha256 bytes = hash
  | .putRow key entry => ∃ download, env.Fetched key download ∧ env.Recorded entry download
  | _ => True

variable {env}

theorem serves_of_download {req : Request} {download : Download}
    (downloaded : env.download req = .ok download) : env.Serves download.bytes := by
  rcases override : req.urlOverride with _ | url
  · simp only [Environment.download, override, downloadArtifact] at downloaded
    rcases fetched : env.fetchFresh (env.artifactUrl req.target) with _ | ans
    · simp [fetched, bind, Except.bind] at downloaded
    · simp only [fetched, bind, Except.bind] at downloaded
      split at downloaded
      · contradiction
      · simp only [pure, Except.pure, Except.ok.injEq] at downloaded
        subst download
        exact ⟨_, ans.2, fetched⟩
  · simp only [Environment.download, override, downloadUrl] at downloaded
    rcases fetched : env.fetchFresh url with _ | ans
    · simp [fetched, bind, Except.bind] at downloaded
    · simp only [fetched, bind, Except.bind, pure, Except.pure, Except.ok.injEq] at downloaded
      subst download
      exact ⟨url, ans.2, fetched⟩

theorem recorded_rowFor (download : Download) (now : UInt64) :
    env.Recorded (env.rowFor download now) download :=
  ⟨rfl, rfl, rfl, rfl⟩

theorem Recorded.touch {entry : IndexEntry} {download : Download}
    (recorded : env.Recorded entry download) (now : UInt64) :
    env.Recorded { entry with atimeUnix := now } download :=
  ⟨recorded.hash, recorded.sizeBytes, recorded.sha1Hex, recorded.origin⟩

theorem Provenance.empty : env.Provenance .empty where
  blobs := by simp [Store.empty]
  rows := by simp [Store.empty]

theorem Provenance.apply {store : Store} {effect : Effect} (provenance : env.Provenance store)
    (honest : env.Honest effect) : env.Provenance (effect.apply store) := by
  cases effect with
  | storeBlob hash bytes =>
    refine ⟨?_, provenance.rows⟩
    intro other found held
    by_cases same : other = hash
    · subst other
      simp only [Effect.apply, Store.putBlob, Function.update_self, Option.some.injEq] at held
      rcases present : store.objects hash with _ | old
      · simp only [present, Option.getD_none] at held
        subst found
        exact honest
      · simp only [present, Option.getD_some] at held
        subst found
        exact provenance.blobs hash old present
    · simp only [Effect.apply, Store.putBlob, Function.update_of_ne same] at held
      exact provenance.blobs other found held
  | putRow key entry =>
    refine ⟨provenance.blobs, ?_⟩
    intro other row found
    rw [Effect.apply, Store.putRow, Std.ExtTreeMap.getElem?_insert] at found
    split at found
    · rename_i same
      rw [Std.LawfulEqOrd.compare_eq_iff_eq] at same
      subst other
      cases found
      exact honest
    · exact provenance.rows other row found
  | touchRow key now =>
    refine ⟨provenance.blobs, ?_⟩
    intro other row found
    rw [Effect.apply, Store.touch, JournalEntry.applyTo, Std.ExtTreeMap.getElem?_modify] at found
    split at found
    · rename_i same
      rw [Std.LawfulEqOrd.compare_eq_iff_eq] at same
      subst other
      rcases Option.map_eq_some_iff.mp found with ⟨entry, held, rfl⟩
      rcases provenance.rows key entry held with ⟨download, fetched, recorded⟩
      exact ⟨download, fetched, recorded.touch now⟩
    · exact provenance.rows other row found
  | removeBlob hash =>
    refine ⟨?_, provenance.rows⟩
    intro other found held
    by_cases same : other = hash
    · subst other
      simp [Effect.apply] at held
    · simp only [Effect.apply, Function.update_of_ne same] at held
      exact provenance.blobs other found held
  | removeRow key =>
    refine ⟨provenance.blobs, ?_⟩
    intro other row found
    rw [Effect.apply, Std.ExtTreeMap.getElem?_erase] at found
    split at found
    · contradiction
    · exact provenance.rows other row found

theorem Provenance.applyAll {store : Store} {effects : List Effect}
    (provenance : env.Provenance store) (honest : ∀ effect ∈ effects, env.Honest effect) :
    env.Provenance (effects.foldl Effect.apply store) := by
  induction effects generalizing store with
  | nil => exact provenance
  | cons effect effects ih =>
    rw [List.forall_mem_cons] at honest
    exact ih (provenance.apply honest.1) honest.2

theorem honest_enter (wanted : Wanted) (now : UInt64) :
    ∀ effect ∈ env.enter (wanted.request env.fetcher).key now
      (env.download (wanted.request env.fetcher)), env.Honest effect := by
  rcases downloaded : env.download (wanted.request env.fetcher) with _ | download
  · simp [enter]
  · simp only [enter, List.forall_mem_cons, List.not_mem_nil, false_imp_iff, implies_true, and_true]
    exact ⟨⟨serves_of_download downloaded, rfl⟩, download, ⟨wanted, rfl, downloaded⟩,
      recorded_rowFor download now⟩

theorem honest_effects (store : Store) (op : Operation) :
    ∀ effect ∈ op.effects env store, env.Honest effect := by
  cases op with
  | fetch wanted now =>
    simp only [Operation.effects]
    split
    · split <;> simp [Honest]
    · exact honest_enter wanted now
  | fetchArtifact tgt now =>
    simp only [Operation.effects]
    split
    · simp
    · exact honest_enter (.artifact tgt) now
  | collect highBytes lowBytes keep links =>
    intro effect mem
    rcases List.mem_flatMap.mp mem with ⟨row, _, mem⟩
    simp only [List.mem_cons, List.not_mem_nil, or_false] at mem
    rcases mem with rfl | rfl <;> trivial

theorem provenance_after (ops : List (Operation × ℕ)) :
    env.Provenance (Operation.after env ops) := by
  suffices fromAny : ∀ store, env.Provenance store →
      env.Provenance (ops.foldl (Operation.run env) store) from fromAny _ .empty
  induction ops with
  | nil => exact fun store provenance => provenance
  | cons op ops ih =>
    intro store provenance
    apply ih
    apply provenance.applyAll
    intro effect mem
    exact honest_effects store op.1 effect (List.mem_of_mem_take mem)

end Environment

open Resolver (MetadataError FetchOrigin)

def Ended.bytes : Ended (Except MetadataError (Bytes × FetchOrigin)) → Option Bytes
  | .returned (.ok answer) => some answer.1
  | _ => none

def isMetadataKey (key : IndexKey) : Bool :=
  key.type == "maven-metadata.xml" && key.classifier == none &&
    (key.version == Request.metadataSentinelVersion ||
      Text.startsWith key.version Request.snapshotMetaLead)

/-- The row of the key has its blob. Under a key that metadata documents may use the row may also be
that of another document than the artifact's: it has to name the artifact's hash. -/
def RowLeadsToBlob (env : Environment) (store : Store) (target : IndexKey) : Prop :=
  ∀ entry, store.index[target]? = some entry →
    if isMetadataKey target then
      (store.objects entry.hash).isSome = (env.downloadArtifact target).isOk ∧
        ∀ download, env.downloadArtifact target = .ok download →
          entry.hash = env.digests.sha256 download.bytes
    else (store.objects entry.hash).isSome

theorem isMetadataKey_metadata (coords : Coords) :
    isMetadataKey (Request.metadataKey coords Request.metadataSentinelVersion) = true := by
  simp [isMetadataKey, Request.metadataKey]

theorem isMetadataKey_snapshot (coords : Coords) (ver : String) :
    isMetadataKey (Request.metadataKey coords (Request.snapshotMetaVersion ver)) = true := by
  simp [isMetadataKey, Request.metadataKey, Request.snapshotMetaVersion, Text.startsWith_append]

namespace Environment

variable {env : Environment}

theorem Fetched.downloadArtifact {key : IndexKey} {download : Download}
    (fetched : env.Fetched key download) (plain : isMetadataKey key = false) :
    env.downloadArtifact key = .ok download := by
  rcases fetched with ⟨wanted, rfl, downloaded⟩
  rw [← Bool.not_eq_true] at plain
  cases wanted with
  | artifact tgt => exact downloaded
  | metadata coords => exact absurd (isMetadataKey_metadata coords) plain
  | snapshotMetadata coords ver =>
    exact absurd (isMetadataKey_snapshot coords ver) plain

end Environment

section Fetch

variable {env : Environment} {now : UInt64} {store : Store} {tgt : IndexKey}

theorem bytes_of_miss (miss : store.index[tgt]? = none) :
    (getOrFetchArtifact env none now (.artifact tgt) store).1.bytes =
      (env.downloadArtifact tgt).toOption.map Download.bytes := by
  have ans : ∀ out : Except MetadataError (Bytes × FetchOrigin),
      (Ended.returned out).bytes = out.toOption.map Prod.fst := by
    intro out
    cases out <;> rfl
  simp only [getOrFetchArtifact, Request.artifact, miss]
  rw [ans, (fetchUpstream_eq _).2]
  rfl

theorem bytes_of_hit {entry : IndexEntry} (hit : store.index[tgt]? = some entry) :
    (getOrFetchArtifact env none now (.artifact tgt) store).1.bytes = store.objects entry.hash := by
  simp only [getOrFetchArtifact, Request.artifact, hit, fetchHit]
  cases store.objects entry.hash <;> rfl

theorem Environment.Provenance.blob_eq_iff (provenance : env.Provenance store)
    (inj : Set.InjOn env.digests.sha256 {bytes | env.Serves bytes})
    {hash : ContentHash} {download : Download} {bytes : Bytes}
    (served : env.Serves download.bytes) (held : store.objects hash = some bytes) :
    bytes = download.bytes ↔ hash = env.digests.sha256 download.bytes := by
  rcases provenance.blobs hash bytes held with ⟨bytesServed, sameHash⟩
  rw [← sameHash]
  exact (inj.eq_iff bytesServed served).symm

theorem Environment.Provenance.fetch_eq_iff (provenance : env.Provenance store)
    (inj : Set.InjOn env.digests.sha256 {bytes | env.Serves bytes}) (hash : ContentHash) :
    store.objects hash = (env.downloadArtifact tgt).toOption.map Download.bytes ↔
      (store.objects hash).isSome = (env.downloadArtifact tgt).isOk ∧
        ∀ download, env.downloadArtifact tgt = .ok download →
          hash = env.digests.sha256 download.bytes := by
  rcases downloaded : env.downloadArtifact tgt with _ | download
  · simp [Except.toOption, Except.isOk, Except.toBool]
  · have served : env.Serves download.bytes :=
      serves_of_download (show env.download ((Wanted.artifact tgt).request env.fetcher) = _ from
        downloaded)
    rcases held : store.objects hash with _ | bytes
    · simp [Except.toOption, Except.isOk, Except.toBool]
    · simpa [Except.toOption, Except.isOk, Except.toBool] using
        provenance.blob_eq_iff inj served held

end Fetch

/-- After any operations, killed or not, a fetch gives the bytes that it gives with an empty cache
exactly if the row of its key, if there is one, leads to the blob. -/
theorem cached_fetch_transparent_iff (env : Environment)
    (noCollisions : Set.InjOn env.digests.sha256 {bytes | env.Serves bytes})
    (operations : List (Operation × ℕ)) (tgt : IndexKey) (now : UInt64) :
    (getOrFetchArtifact env none now (.artifact tgt) (Operation.after env operations)).1.bytes =
        (getOrFetchArtifact env none now (.artifact tgt) .empty).1.bytes ↔
      RowLeadsToBlob env (Operation.after env operations) tgt := by
  have provenance := env.provenance_after operations
  generalize Operation.after env operations = store at provenance ⊢
  have emptyMiss : Store.empty.index[tgt]? = none := by simp [Store.empty]
  rw [bytes_of_miss emptyMiss]
  rcases row : store.index[tgt]? with _ | entry
  · rw [bytes_of_miss row]
    simp [RowLeadsToBlob, row]
  · rw [bytes_of_hit row]
    simp only [RowLeadsToBlob, row, Option.some.injEq, forall_eq']
    rw [provenance.fetch_eq_iff noCollisions]
    split
    · rfl
    · rename_i plain
      rcases provenance.rows tgt entry row with ⟨download, fetched, recorded⟩
      rw [fetched.downloadArtifact (Bool.eq_false_of_not_eq_true plain)]
      constructor
      · exact fun same => same.1
      · rintro present
        refine ⟨present, ?_⟩
        rintro _ ⟨⟩
        exact recorded.hash

def poms (artifact : String) : IndexKey := ⟨⟨"org.example", artifact⟩, "1.0", "pom", none⟩

def sharedRepository : Environment :=
  .small [("https://repo/org/example/core/1.0/core-1.0.pom", [1, 2, 3]),
    ("https://repo/org/example/util/1.0/util-1.0.pom", [1, 2, 3])]

theorem serves_small {files : List (String × Bytes)} {bytes : Bytes}
    (served : (Environment.small files).Serves bytes) : bytes ∈ files.map Prod.snd := by
  rcases served with ⟨url, headers, fetched⟩
  simp only [Environment.fetchFresh, Fetcher.fetch, Environment.small, repository] at fetched
  rcases found : files.find? fun file => file.1 == url with _ | _
  · simp [found] at fetched
  · simp [found] at fetched
    rw [← fetched.1]
    exact List.mem_map_of_mem (List.mem_of_find?_eq_some found)

theorem noCollisions_small {files : List (String × Bytes)}
    (distinct : ∀ left ∈ files.map Prod.snd, ∀ right ∈ files.map Prod.snd,
      shortHash left = shortHash right → left = right) :
    Set.InjOn (Environment.small files).digests.sha256
      {bytes | (Environment.small files).Serves bytes} := by
  intro left leftServed right rightServed same
  exact distinct left (serves_small leftServed) right (serves_small rightServed) same

theorem noCollisions_sharedRepository :
    Set.InjOn sharedRepository.digests.sha256 {bytes | sharedRepository.Serves bytes} :=
  noCollisions_small (by decide)

/-- The first fetch is killed before it enters the row; the second enters it. -/
def refetched : Store := Operation.after sharedRepository
  [(.fetch (.artifact (poms "core")) 1, 1), (.fetch (.artifact (poms "core")) 2, 2)]

/-- The next fetch is a hit. -/
theorem transparent_after_killed_fetch : refetched.index[poms "core"]?.isSome ∧
    (getOrFetchArtifact sharedRepository none 3 (.artifact (poms "core")) refetched).1.bytes =
      (getOrFetchArtifact sharedRepository none 3 (.artifact (poms "core")) .empty).1.bytes := by
  refine ⟨by decide +kernel,
    (cached_fetch_transparent_iff sharedRepository noCollisions_sharedRepository _ _ _).mpr ?_⟩
  intro entry found
  have leads : refetched.index[poms "core"]?.all
      (fun entry => (refetched.objects entry.hash).isSome) = true := by decide +kernel
  rw [refetched, found] at leads
  exact leads

/-- A pass that evicts the older of two rows takes the blob of the other one with it. -/
theorem fetch_after_collect_fails :
    let store := Operation.after sharedRepository
      [(.fetch (.artifact (poms "core")) 1, 2), (.fetch (.artifact (poms "util")) 2, 2),
        (.collect 6 4 true fun _ => 1, 2)]
    (getOrFetchArtifact sharedRepository none 3 (.artifact (poms "util")) store).1.bytes = none ∧
      (getOrFetchArtifact sharedRepository none 3 (.artifact (poms "util")) .empty).1.bytes =
        some [1, 2, 3] := by
  decide +kernel

end Fetches

open Resolver (MetadataError FetchOrigin MetadataSource GaMetadata SnapshotInfo)

structure Parsers where
  pom : String → Except String Pom.RawPom
  versionsList : String → List String
  snapshotMetadata : String → Except String SnapshotInfo

inductive Question where
  | pom (coords : Coords) (version : String)
  | metadata (coords : Coords)
  | snapshotInfo (coords : Coords) (version : String)
  deriving DecidableEq

def Question.wanted : Question → Wanted
  | pom coords version => .artifact ⟨coords, version, "pom", none⟩
  | metadata coords => .metadata coords
  | snapshotInfo coords version => .snapshotMetadata coords version

variable (env : Environment) (parsers : Parsers) (now : UInt64)

def getOrFetch (request : Request) (store : Store) :
    Except MetadataError (Bytes × FetchOrigin) × Store :=
  match store.index[request.key]? with
  | some entry => fetchHit env now request entry store
  | none => fetchUpstream env now request store

theorem getOrFetchArtifact_none (req : Request) (store : Store) :
    getOrFetchArtifact env none now req store =
      (.returned (getOrFetch env now req store).1, (getOrFetch env now req store).2) := by
  simp only [getOrFetchArtifact, getOrFetch]
  rcases store.index[req.key]? with _ | _
  · cases req.urlOverride <;> rfl
  · rfl

def Question.request (question : Question) : Request := question.wanted.request env.fetcher

def parsed {α : Type} (parse : Bytes → Except MetadataError α)
    (answer : Except MetadataError (Bytes × FetchOrigin)) :
    Except MetadataError (α × FetchOrigin) :=
  answer.bind fun (bytes, origin) => (parse bytes).map (·, origin)

variable (coords : Coords) (version : String) (bytes : Bytes)

def parsePom : Except MetadataError Pom.RawPom :=
  (parsers.pom (env.fromUtf8Lossy bytes)).mapError
    (MetadataError.parse "pom.xml" coords.display version)

variable (store : Store)

def fetchPom : Except MetadataError (Pom.RawPom × FetchOrigin) × Store :=
  let (answer, store) := getOrFetch env now (Question.request env (.pom coords version)) store
  (parsed (parsePom env parsers coords version) answer, store)

def metadataError : MetadataError → MetadataError
  | .notFound coords _ => .metadataNotFound coords
  | error => error

def parseMetadata : Except MetadataError GaMetadata :=
  .ok ⟨coords, parsers.versionsList (env.fromUtf8Lossy bytes), none, none⟩

def fetchMetadata : Except MetadataError (GaMetadata × FetchOrigin) × Store :=
  let (answer, store) := getOrFetch env now (Question.request env (.metadata coords)) store
  (parsed (parseMetadata env parsers coords) (answer.mapError metadataError), store)

def parseSnapshotInfo : Except MetadataError SnapshotInfo :=
  (parsers.snapshotMetadata (env.fromUtf8Lossy bytes)).mapError
    (MetadataError.parse "maven-metadata.xml" coords.display version)

def fetchSnapshotInfo : Except MetadataError (SnapshotInfo × FetchOrigin) × Store :=
  let (answer, store) :=
    getOrFetch env now (Question.request env (.snapshotInfo coords version)) store
  (parsed (parseSnapshotInfo env parsers coords version) answer, store)

def withoutOrigin {α : Type} (answer : Except MetadataError (α × FetchOrigin)) :
    Except MetadataError (α × FetchOrigin) :=
  answer.map fun (value, _) => (value, .disk)

def answers : MetadataSource Pom.RawPom where
  fetchPom coords version := withoutOrigin (fetchPom env parsers 0 coords version store).1
  fetchMetadata coords := withoutOrigin (fetchMetadata env parsers 0 coords store).1
  fetchSnapshotInfo coords version :=
    withoutOrigin (fetchSnapshotInfo env parsers 0 coords version store).1

def ask (asked : Question × UInt64) : Store :=
  (getOrFetch env asked.2 (asked.1.request env) store).2

variable {env parsers} {store : Store}

namespace Wanted

def Plain : Wanted → Prop
  | artifact target => isMetadataKey target = false
  | _ => True

def key (fetcher : Fetcher) (wanted : Wanted) : IndexKey := (wanted.request fetcher).key

def ofKey (key : IndexKey) : Wanted :=
  if isMetadataKey key = false then artifact key
  else if key.version = Request.metadataSentinelVersion then metadata key.coords
  else snapshotMetadata key.coords
    (.ofList (key.version.toList.drop Request.snapshotMetaLead.toList.length))

theorem ofKey_key {fetcher : Fetcher} {wanted : Wanted} (plain : wanted.Plain) :
    ofKey (wanted.key fetcher) = wanted := by
  cases wanted with
  | artifact tgt => exact if_pos plain
  | metadata coords =>
    change ofKey (Request.metadataKey coords Request.metadataSentinelVersion) = _
    rw [ofKey, isMetadataKey_metadata]
    rfl
  | snapshotMetadata coords ver =>
    have other : Request.snapshotMetaVersion ver ≠ Request.metadataSentinelVersion := by
      intro same
      have second := congrArg (fun text => text.toList[1]?) same
      simp [Request.metadataSentinelVersion, Request.snapshotMetaVersion,
        Request.snapshotMetaLead] at second
    have rest : (Request.snapshotMetaVersion ver).toList.drop
        Request.snapshotMetaLead.toList.length = ver.toList := by
      rw [Request.snapshotMetaVersion, String.toList_append, List.drop_left]
    change ofKey (Request.metadataKey coords (Request.snapshotMetaVersion ver)) = _
    rw [ofKey, isMetadataKey_snapshot, if_neg (by simp)]
    simp only [Request.metadataKey, if_neg other, rest, String.ofList_toList]

theorem eq_of_key_eq {fetcher : Fetcher} {left right : Wanted} (leftPlain : left.Plain)
    (rightPlain : right.Plain) (same : left.key fetcher = right.key fetcher) : left = right := by
  rw [← ofKey_key leftPlain, same, ofKey_key rightPlain]

end Wanted

theorem Question.plain_wanted (query : Question) : query.wanted.Plain := by
  cases query with
  | pom coords ver => simp [Question.wanted, Wanted.Plain, isMetadataKey]
  | metadata coords => trivial
  | snapshotInfo coords ver => trivial

namespace Environment

variable (env)

structure Current (store : Store) : Prop where
  provenance : env.Provenance store
  rows : ∀ wanted : Wanted, wanted.Plain → ∀ entry,
    store.index[wanted.key env.fetcher]? = some entry →
      ∃ download, env.download (wanted.request env.fetcher) = .ok download ∧
        env.Recorded entry download ∧ store.objects entry.hash = some download.bytes

variable {env}

theorem Current.empty : env.Current .empty where
  provenance := Provenance.empty
  rows := by simp [Store.empty]

theorem Current.storeBlob (cur : env.Current store) {bytes : Bytes} (served : env.Serves bytes) :
    env.Current (store.putBlob (env.digests.sha256 bytes) bytes) where
  provenance :=
    have honest : env.Honest (.storeBlob (env.digests.sha256 bytes) bytes) := ⟨served, rfl⟩
    cur.provenance.apply honest
  rows := by
    intro wanted plain entry found
    rcases cur.rows wanted plain entry found with ⟨download, downloaded, recorded, held⟩
    refine ⟨download, downloaded, recorded, ?_⟩
    by_cases same : entry.hash = env.digests.sha256 bytes
    · rw [← same]
      simp [Store.putBlob, held]
    · simp [Store.putBlob, same, held]

theorem Current.putRow (cur : env.Current store) {wanted : Wanted} (plain : wanted.Plain)
    {download : Download} (downloaded : env.download (wanted.request env.fetcher) = .ok download)
    (held : store.objects (env.digests.sha256 download.bytes) = some download.bytes)
    (now : UInt64) :
    env.Current (store.putRow (wanted.key env.fetcher) (env.rowFor download now)) where
  provenance :=
    have honest : env.Honest (.putRow (wanted.key env.fetcher) (env.rowFor download now)) :=
      ⟨download, ⟨wanted, rfl, downloaded⟩, recorded_rowFor download now⟩
    cur.provenance.apply honest
  rows := by
    intro other otherPlain entry found
    rw [Store.putRow, Std.ExtTreeMap.getElem?_insert] at found
    split at found
    · rename_i same
      rw [Std.LawfulEqOrd.compare_eq_iff_eq] at same
      cases Wanted.eq_of_key_eq plain otherPlain same
      cases found
      exact ⟨download, downloaded, recorded_rowFor download now, held⟩
    · exact cur.rows other otherPlain entry found

theorem Current.touch (cur : env.Current store) (key : IndexKey) (now : UInt64) :
    env.Current (store.touch key now) where
  provenance :=
    have honest : env.Honest (.touchRow key now) := trivial
    cur.provenance.apply honest
  rows := by
    intro wanted plain entry found
    rw [Store.touch, JournalEntry.applyTo, Std.ExtTreeMap.getElem?_modify] at found
    split at found
    · rename_i same
      rw [Std.LawfulEqOrd.compare_eq_iff_eq] at same
      rcases Option.map_eq_some_iff.mp found with ⟨old, foundOld, rfl⟩
      rw [same] at foundOld
      rcases cur.rows wanted plain old foundOld with ⟨download, downloaded, recorded, held⟩
      exact ⟨download, downloaded, recorded.touch now, held⟩
    · exact cur.rows wanted plain entry found

theorem Provenance.objects_putBlob (provenance : env.Provenance store)
    (inj : Set.InjOn env.digests.sha256 {bytes | env.Serves bytes}) {bytes : Bytes}
    (served : env.Serves bytes) :
    (store.putBlob (env.digests.sha256 bytes) bytes).objects (env.digests.sha256 bytes) =
      some bytes := by
  simp only [Store.putBlob, Function.update_self, Option.some.injEq]
  rcases held : store.objects (env.digests.sha256 bytes) with _ | old
  · rfl
  · rcases provenance.blobs _ old held with ⟨oldServed, sameHash⟩
    exact inj oldServed served sameHash

theorem Current.enter (cur : env.Current store)
    (inj : Set.InjOn env.digests.sha256 {bytes | env.Serves bytes}) {wanted : Wanted}
    (plain : wanted.Plain) (now : UInt64) (steps : ℕ) :
    env.Current (((env.enter (wanted.key env.fetcher) now
      (env.download (wanted.request env.fetcher))).take steps).foldl Effect.apply store) := by
  rcases downloaded : env.download (wanted.request env.fetcher) with _ | _
  · simpa [Environment.enter] using cur
  · have served := serves_of_download downloaded
    have stored := cur.storeBlob served
    rcases steps with _ | _ | steps
    · exact cur
    · exact stored
    · simp only [Environment.enter, List.take_succ_cons, List.take_nil]
      exact stored.putRow plain downloaded (cur.provenance.objects_putBlob inj served) now

end Environment

def Operation.Plain : Operation → Prop
  | fetch wanted _ => wanted.Plain
  | fetchArtifact target _ => isMetadataKey target = false
  | collect .. => False

namespace Environment

variable (inj : Set.InjOn env.digests.sha256 {bytes | env.Serves bytes})

include inj

section Histories

variable (cur : env.Current store)

include cur

theorem Current.run {op : Operation × ℕ}
    (plain : op.1.Plain) : env.Current (Operation.run env store op) := by
  rcases op with ⟨op, steps⟩
  cases op with
  | fetch wanted now =>
    simp only [Operation.run, Operation.effects]
    split
    · split
      · cases steps with
        | zero => exact cur
        | succ steps =>
          simp only [List.take_succ_cons, List.take_nil]
          exact cur.touch _ now
      · simpa using cur
    · exact cur.enter inj plain now steps
  | fetchArtifact tgt now =>
    simp only [Operation.run, Operation.effects]
    split
    · simpa using cur
    · have targetPlain : (Wanted.artifact tgt).Plain := plain
      exact cur.enter inj targetPlain now steps
  | collect highBytes lowBytes keep links => cases plain

theorem Current.complete {op : Operation} (plain : op.Plain) :
    env.Current ((op.effects env store).foldl Effect.apply store) := by
  have ran := cur.run inj (show (op, (op.effects env store).length).1.Plain from plain)
  rwa [Operation.run, List.take_length] at ran

theorem Current.ask (asked : Question × UInt64) : env.Current (ask env store asked) := by
  have plain : (Operation.fetch asked.1.wanted asked.2).Plain := asked.1.plain_wanted
  have ran := cur.complete inj plain
  rwa [← effects_fetch, getOrFetchArtifact_none] at ran

theorem Current.askAll (questions : List (Question × UInt64)) :
    env.Current (questions.foldl (Cache.ask env) store) := by
  induction questions generalizing store with
  | nil => exact cur
  | cons asked questions ih => exact ih (cur.ask inj asked)

theorem Current.fetchArtifact {tgt : IndexKey} (plain : isMetadataKey tgt = false)
    (faults : Pull.EntryFaults) (now : UInt64) :
    env.Current (Pull.fetchArtifactToCache env faults now tgt store).2 := by
  have ran : ∃ steps, (Pull.fetchArtifactToCache env faults now tgt store).2 = _ :=
    effects_fetchArtifact faults tgt
  rcases ran with ⟨steps, ran⟩
  rw [ran]
  exact cur.run inj (show (Operation.fetchArtifact tgt now, steps).1.Plain from plain)

end Histories

end Environment

theorem fetchUpstream_of_download {req : Request} {download : Download}
    (downloaded : env.download req = .ok download) (now : UInt64) (store : Store) :
    (fetchUpstream env now req store).1 = .ok (download.bytes, .remote) := by
  rcases override : req.urlOverride with _ | _
  · simp only [Environment.download, override] at downloaded
    simp only [fetchUpstream, override, fetchAndCache, downloaded]
  · simp only [Environment.download, override] at downloaded
    simp only [fetchUpstream, override, fetchUrlAndCache, downloaded]

theorem Environment.Current.getOrFetch_eq (cur : env.Current store) {wanted : Wanted}
    (plain : wanted.Plain) : (getOrFetch env 0 (wanted.request env.fetcher) store).1.map Prod.fst =
      (getOrFetch env 0 (wanted.request env.fetcher) .empty).1.map Prod.fst := by
  have emptyMiss : Store.empty.index[(wanted.request env.fetcher).key]? = none := by
    simp [Store.empty]
  simp only [getOrFetch, emptyMiss]
  rcases row : store.index[(wanted.request env.fetcher).key]? with _ | entry
  · dsimp only
    rw [fetchUpstream_fst _ 0 0 store .empty]
  · rcases cur.rows wanted plain entry row with ⟨download, downloaded, _, held⟩
    dsimp only
    rw [fetchUpstream_of_download downloaded, fetchHit, held]
    rfl

theorem withoutOrigin_parsed {α : Type} {parse : Bytes → Except MetadataError α}
    (ans : Except MetadataError (Bytes × FetchOrigin)) :
    withoutOrigin (parsed parse ans) =
      (ans.map Prod.fst).bind fun bytes => (parse bytes).map (·, FetchOrigin.disk) := by
  rcases ans with _ | ans
  · rfl
  · simp only [parsed, withoutOrigin, Except.bind, Except.map]
    cases parse ans.1 <;> rfl

theorem map_mapError {ε δ α β : Type} (wrap : ε → δ) (f : α → β) (out : Except ε α) :
    (out.mapError wrap).map f = (out.map f).mapError wrap := by
  cases out <;> rfl

theorem Environment.Current.answers_eq (cur : env.Current store) :
    answers env parsers store = answers env parsers .empty := by
  have documents : ∀ query : Question, (getOrFetch env 0 (query.request env) store).1.map Prod.fst =
        (getOrFetch env 0 (query.request env) .empty).1.map Prod.fst := by
    intro query
    exact cur.getOrFetch_eq query.plain_wanted
  simp only [answers, fetchPom, fetchMetadata, fetchSnapshotInfo, withoutOrigin_parsed,
    map_mapError, documents]

end Barista.Cache
