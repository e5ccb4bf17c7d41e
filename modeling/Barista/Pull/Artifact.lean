import Barista.Cache.Source

/-!
# Fetching the artifacts of a pull

The command fetches artifacts on its own, next to the metadata source: it looks into the index and
the store, and otherwise downloads the artifact and enters it.
-/

namespace Barista.Pull

open Cache

inductive FetchSource where
  | cache
  | remote
  deriving DecidableEq

structure FetchedArtifact where
  sha256 : ContentHash
  sha1 : Option String
  sizeBytes : UInt64
  sourceUrl : String
  etag : Option String
  lastModified : Option String
  source : FetchSource
  deriving DecidableEq

inductive ArtifactFetchError where
  | fetch (error : FetchError)
  | unexpectedNotModified (url : String)
  | checksum (url : String) (error : ChecksumError)
  | cas (detail : String)
  | index (detail : String)
  deriving DecidableEq

/-- How the two writes of a fetch fail, if they do; a put into the index may fail after its row is
recorded. -/
structure EntryFaults where
  casPut : Option String
  indexPut : Option (Bool × String)

def FetchedArtifact.ofRow (entry : IndexEntry) (source : FetchSource) : FetchedArtifact where
  sha256 := entry.hash
  sha1 := entry.sha1Hex
  sizeBytes := entry.sizeBytes
  sourceUrl := entry.origin.repositoryUrl
  etag := entry.origin.etag
  lastModified := entry.origin.lastModified
  source := source

def cachedRow (target : IndexKey) (store : Store) : Option IndexEntry :=
  (store.index[target]?).filter fun entry => (store.objects entry.hash).isSome

/-- The row and the blob of an artifact, or else the artifact from upstream, which is entered. -/
def fetchArtifactToCache (env : Environment) (faults : EntryFaults) (now : UInt64)
    (target : IndexKey) (store : Store) : Except ArtifactFetchError FetchedArtifact × Store :=
  match cachedRow target store with
  | some entry => (.ok (.ofRow entry .cache), store)
  | none =>
    match env.downloadArtifact target with
    | .error (.fetch error) => (.error (.fetch error), store)
    | .error .notModified => (.error (.unexpectedNotModified (env.artifactUrl target)), store)
    | .error (.checksum error) => (.error (.checksum (env.artifactUrl target) error), store)
    | .ok download =>
      let entry := env.rowFor download now
      -- a blob that is there already is not written again
      match faults.casPut.filter fun _ => (store.objects entry.hash).isNone with
      | some detail => (.error (.cas detail), store)
      | none =>
        let stored := store.putBlob entry.hash download.bytes
        match faults.indexPut with
        | some (recorded, detail) =>
          (.error (.index detail), if recorded then stored.putRow target entry else stored)
        | none => (.ok (.ofRow entry .remote), stored.putRow target entry)

end Barista.Pull
