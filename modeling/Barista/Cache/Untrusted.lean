import Barista.Cache.Source

/-!
# A roastery that is not trusted

Whatever a roastery sends, a fetch returns bytes with the digest of upstream's sidecar or what it
returns without the roastery.  There is one exception: the buffer for the body has the declared
length, so that a length no vector can have makes the client panic before it reads the body, and
one the allocator does not grant ends the process.
-/

namespace Barista.Cache

open Resolver (MetadataError FetchOrigin)

/-- The SHA-256 sidecar of upstream names these bytes. -/
def SidecarNames (env : Environment) (target : IndexKey) (bytes : Bytes) : Prop :=
  ∃ text expected, env.sidecar (env.artifactUrl target) "sha256" = some text ∧
    ChecksumExpected.parse .sha256 text = .ok expected ∧
    expected.hex = env.digests.hexSha256 bytes

/-- The roastery declares a length for which no buffer can be allocated. -/
structure DeclaresTooMuch (env : Environment) (roastery : Roastery) (request : Request)
    (store : Store) : Prop where
  miss : store.index[request.key]? = none
  blobShaped : request.urlOverride = none
  oversized : ∃ digest blob, sidecarDigest env request.target = some digest ∧
    roastery.getBlobWithCoords digest (formatCoordsHeader request.target) = .ok blob ∧
    (isizeMax < blob.stat.size ∨ env.allocates blob.stat.size = false)

section Fetching

variable {env : Environment} {roastery : Roastery} {now : UInt64} {req : Request} {store : Store}

theorem acceptBlob_ok {tgt : IndexKey} {digest : ContentHash} {blob : Roastery.BlobStream}
    {bytes : Bytes} {entry : IndexEntry} (named : sidecarDigest env tgt = some digest)
    (accepted : (acceptBlob env roastery now tgt digest blob store).1 =
      .ok (some (bytes, entry))) : SidecarNames env tgt bytes := by
  rcases Option.bind_eq_some_iff.mp named with ⟨text, found, _⟩
  simp only [acceptBlob, found] at accepted
  split at accepted
  · simp at accepted
  · rename_i body read
    split at accepted
    · simp at accepted
    · split at accepted
      · simp at accepted
      · rename_i verification verified
        rcases env.digests.hex_eq_of_verify verified with ⟨want, parsed, sameHex⟩
        split at accepted
        · simp at accepted
        · simp only [Except.ok.injEq, Option.some.injEq, Prod.mk.injEq] at accepted
          rcases accepted with ⟨rfl, _⟩
          exact ⟨text, want, found, parsed, sameHex⟩

theorem tryRoastery_of_fits (fits : ∀ digest blob, sidecarDigest env req.target = some digest →
      roastery.getBlobWithCoords digest (formatCoordsHeader req.target) = .ok blob →
      blob.stat.size ≤ isizeMax ∧ env.allocates blob.stat.size = true) :
    ∃ ans, (tryRoastery env roastery now req.target store).1 = .returned ans ∧
      ∀ bytes entry, ans = .ok (some (bytes, entry)) → SidecarNames env req.target bytes := by
  simp only [tryRoastery]
  split
  · exact ⟨.ok none, rfl, by simp⟩
  · rename_i digest named
    split
    · rename_i err _
      refine ⟨_, rfl, ?_⟩
      intro bytes entry served
      cases classified : classifyClientError err <;> simp [classified, Except.map] at served
    · rename_i blob replied
      rcases fits digest blob named replied with ⟨small, granted⟩
      rw [if_neg (not_lt.mpr small), if_neg (by simp [granted])]
      refine ⟨_, rfl, ?_⟩
      intro bytes entry accepted
      exact acceptBlob_ok named accepted

theorem tryRoastery_of_oversized {digest : ContentHash} {blob : Roastery.BlobStream}
    (named : sidecarDigest env req.target = some digest)
    (replied : roastery.getBlobWithCoords digest (formatCoordsHeader req.target) = .ok blob)
    (oversized : isizeMax < blob.stat.size ∨ env.allocates blob.stat.size = false)
    (ans : Except RoasteryOutcome (Option (Bytes × IndexEntry))) :
    (tryRoastery env roastery now req.target store).1 ≠ .returned ans := by
  simp only [tryRoastery, named, replied]
  rcases oversized with large | refused
  · simp [large]
  · split_ifs <;> simp

theorem getOrFetchArtifact_of_not_asked
    (notAsked : store.index[req.key]? ≠ none ∨ req.urlOverride ≠ none) :
    getOrFetchArtifact env (some roastery) now req store =
      getOrFetchArtifact env none now req store := by
  simp only [getOrFetchArtifact]
  split
  · rfl
  · rename_i miss
    rcases notAsked with found | overridden
    · contradiction
    · rcases Option.ne_none_iff_exists'.mp overridden with ⟨url, override⟩
      rw [override]

theorem getOrFetchArtifact_of_miss (miss : store.index[req.key]? = none) :
    (getOrFetchArtifact env none now req store).1 =
      .returned (fetchUpstream env now req store).1 := by
  simp only [getOrFetchArtifact, miss]
  cases req.urlOverride <;> rfl

variable (env now req store) in
theorem getOrFetchArtifact_returned :
    ∃ out, (getOrFetchArtifact env none now req store).1 = .returned out := by
  rcases found : store.index[req.key]? with _ | _
  · exact ⟨_, getOrFetchArtifact_of_miss found⟩
  · simp only [getOrFetchArtifact, found]
    exact ⟨_, rfl⟩

end Fetching

/-- Exactly if the roastery does not declare too much, a fetch with it returns, and what it returns
are bytes whose SHA-256 is the one in upstream's sidecar, or what it returns without
the roastery. -/
theorem untrusted_roastery_iff (env : Environment) (roastery : Roastery) (now : UInt64)
    (req : Request) (store : Store) :
    (∃ result, (getOrFetchArtifact env (some roastery) now req store).1 = .returned result ∧
        ((∃ bytes origin, result = .ok (bytes, origin) ∧ SidecarNames env req.target bytes) ∨
          (getOrFetchArtifact env none now req store).1 = .returned result)) ↔
      ¬DeclaresTooMuch env roastery req store := by
  constructor
  · rintro ⟨result, returned, _⟩ ⟨miss, blobShaped, digest, blob, named, replied, oversized⟩
    have ends : ∀ answer, (tryRoastery env roastery now req.target store).1 ≠ .returned answer :=
      tryRoastery_of_oversized named replied oversized
    simp only [getOrFetchArtifact, miss, blobShaped] at returned
    split at returned <;> simp_all
  · intro fits
    by_cases asked : store.index[req.key]? = none ∧ req.urlOverride = none
    · rcases asked with ⟨miss, blobShaped⟩
      have tried : ∃ answer, (tryRoastery env roastery now req.target store).1 = .returned answer ∧
            ∀ bytes entry, answer = .ok (some (bytes, entry)) →
              SidecarNames env req.target bytes := by
        apply tryRoastery_of_fits
        intro digest blob named replied
        by_contra oversized
        rw [not_and_or, not_le, Bool.not_eq_true] at oversized
        exact fits ⟨miss, blobShaped, digest, blob, named, replied, oversized⟩
      rcases tried with ⟨answer, returned, sound⟩
      rw [getOrFetchArtifact_of_miss miss]
      simp only [getOrFetchArtifact, miss, blobShaped]
      split
      · simp_all
      · simp_all
      · rename_i bytes entry after tried
        rw [tried, Ended.returned.injEq] at returned
        exact ⟨_, rfl, .inl ⟨bytes, .remote, rfl, sound bytes entry returned.symm⟩⟩
      · exact ⟨_, rfl, .inr (congrArg _ (fetchUpstream_fst _ _ _ _ _))⟩
    · rcases getOrFetchArtifact_returned env now req store with ⟨result, returned⟩
      rw [getOrFetchArtifact_of_not_asked (by tauto)]
      exact ⟨result, returned, .inr returned⟩

def corePom : IndexKey := ⟨⟨"org.example", "core"⟩, "1.0", "pom", none⟩

def coreRepository : Environment :=
  .small [("https://repo/org/example/core/1.0/core-1.0.pom", [1, 2, 3]),
    ("https://repo/org/example/core/1.0/core-1.0.pom.sha256",
      asciiBytes (shortHash [1, 2, 3]).toHex)]

def boastingRoastery : Roastery where
  url := "https://roastery"
  request := none
  isHeaderValue := fun _ => true
  errorBody := fun _ => none
  fromUtf8Lossy := asciiText
  serve digest _ := .ok
    { status := 200
      headers := fun name =>
        if name = "Content-Length" then some (asciiBytes "9223372036854775808")
        else if name = "X-Barista-Digest" then some (asciiBytes ("sha256:" ++ digest.toHex))
        else none
      body := .ok [] }

/-- The fetch succeeds without the roastery and panics with it. -/
theorem boasting_roastery_panics :
    (getOrFetchArtifact coreRepository none 0 (.artifact corePom) .empty).1 =
        .returned (.ok ([1, 2, 3], .remote)) ∧
      (getOrFetchArtifact coreRepository (some boastingRoastery) 0 (.artifact corePom)
        .empty).1 = .panicked := by
  decide +kernel

/-!
# A SHA-256 sidecar that is not delivered

A sidecar that could not be fetched counts as one that upstream does not publish, whatever the
reason.
-/

/-- The request for the SHA-256 sidecar fails otherwise than with 404. -/
def SidecarLost (env : Environment) (target : IndexKey) : Prop :=
  let outcome := env.fetcher.fetch env.respond
    (Fetcher.urlForSidecar (env.artifactUrl target) "sha256")
  (∀ bytes headers, outcome ≠ .ok (.fresh bytes headers)) ∧
    ∀ url, outcome ≠ .error (.status url 404)

def Sha1Admits (env : Environment) (target : IndexKey) (bytes : Bytes) : Prop :=
  ∀ text, env.sidecar (env.artifactUrl target) "sha1" = some text →
    ∃ expected, ChecksumExpected.parse .sha1 text = .ok expected ∧
      expected.hex = env.digests.hexSha1 bytes

variable {env : Environment} {tgt : IndexKey}

theorem sidecar_of_lost (lost : SidecarLost env tgt) :
    env.sidecar (env.artifactUrl tgt) "sha256" = none := by
  rw [Environment.sidecar]
  split
  · rename_i bytes headers fetched
    exact absurd fetched (lost.1 bytes headers)
  · rfl

theorem exists_verify_none {bytes : Bytes} :
    (∃ verification, env.digests.verify bytes none (env.sidecar (env.artifactUrl tgt) "sha1") =
      .ok verification) ↔ Sha1Admits env tgt bytes := by
  rw [Sha1Admits]
  cases env.sidecar (env.artifactUrl tgt) "sha1" with
  | none => simp [Digests.verify, Digests.check, bind, Except.bind, pure, Except.pure]
  | some text =>
    cases parsed : ChecksumExpected.parse .sha1 text with
    | error err => simp [Digests.verify, Digests.check, parsed, bind, Except.bind]
    | ok want =>
      by_cases same : want.hex = env.digests.hexSha1 bytes <;>
        simp [Digests.verify, Digests.check, parsed, same, bind, Except.bind, pure, Except.pure,
          throw, throwThe, MonadExceptOf.throw]

theorem downloadArtifact_of_lost (lost : SidecarLost env tgt) {bytes : Bytes} :
    (∃ download, env.downloadArtifact tgt = .ok download ∧ download.bytes = bytes) ↔
      ∃ headers, env.fetcher.fetch env.respond (env.artifactUrl tgt) = .ok (.fresh bytes headers) ∧
        Sha1Admits env tgt bytes := by
  simp only [Environment.downloadArtifact, Environment.fetchFresh, sidecar_of_lost lost,
    ← exists_verify_none]
  rcases env.fetcher.fetch env.respond (env.artifactUrl tgt) with err | ⟨body, headers⟩ | _
  · simp [bind, Except.bind]
  · simp only [bind, Except.bind, Except.ok.injEq, FetchOutcome.fresh.injEq]
    cases verified : env.digests.verify body none (env.sidecar (env.artifactUrl tgt) "sha1") with
    | error err =>
      simp [throw, throwThe, MonadExceptOf.throw]
      rintro rfl
      simp [verified]
    | ok verification =>
      simp [pure, Except.pure]
      rintro rfl
      exact ⟨verification, verified⟩
  · simp [bind, Except.bind]

/-- Where the SHA-256 sidecar fails to arrive, unchecked bytes are refused exactly if the artifact
fails to arrive too, or a SHA-1 sidecar arrives that does not name them. -/
theorem lost_sidecar_refused_iff (env : Environment) (now : UInt64) (req : Request) (store : Store)
    (lost : SidecarLost env req.target) :
    ((∀ bytes origin, (fetchAndCache env now req store).1 = .ok (bytes, origin) →
        SidecarNames env req.target bytes) ∧ (fetchAndCache env now req store).2 = store) ↔
      ∀ bytes headers, env.fetcher.fetch env.respond (env.artifactUrl req.target) =
        .ok (.fresh bytes headers) → ¬Sha1Admits env req.target bytes := by
  constructor
  · rintro ⟨checked, -⟩ bytes headers fetched admits
    rcases (downloadArtifact_of_lost lost).mpr ⟨headers, fetched, admits⟩ with
      ⟨download, downloaded, -⟩
    rcases checked download.bytes .remote (by simp [fetchAndCache, downloaded]) with
      ⟨text, want, delivered, -⟩
    rw [sidecar_of_lost lost] at delivered
    cases delivered
  · intro refused
    cases downloaded : env.downloadArtifact req.target with
    | error failure => cases failure <;> simp [fetchAndCache, downloaded]
    | ok download =>
      rcases (downloadArtifact_of_lost lost).mp ⟨download, downloaded, rfl⟩ with
        ⟨headers, fetched, admits⟩
      exact absurd admits (refused _ _ fetched)

def overloaded : Response := .answered 503 ⟨none, none, none⟩ (.ok [])

def downgradedRepository : Environment :=
  { coreRepository with
    respond := fun url =>
      if url = "https://repo/org/example/core/1.0/core-1.0.pom.sha256" then overloaded
      else coreRepository.respond url }

/-- The artifact arrives, its SHA-256 sidecar does not, and its SHA-1 sidecar names other bytes. -/
def contradictedRepository : Environment :=
  { downgradedRepository with
    respond := fun url =>
      if url = "https://repo/org/example/core/1.0/core-1.0.pom.sha1" then
        repository [(url, asciiBytes "0123456789abcdef0123456789abcdef01234567")] url
      else downgradedRepository.respond url }

theorem lost_sidecar_refused_overloaded :
    (contradictedRepository.fetchFresh (contradictedRepository.artifactUrl corePom)).isOk = true ∧
      (fetchAndCache contradictedRepository 0 (.artifact corePom) .empty).2 = .empty := by
  have failed : contradictedRepository.fetcher.fetch contradictedRepository.respond
      (Fetcher.urlForSidecar (contradictedRepository.artifactUrl corePom) "sha256") =
      .error (.status "https://repo/org/example/core/1.0/core-1.0.pom.sha256" 503) := by
    decide +kernel
  refine ⟨by decide +kernel,
    ((lost_sidecar_refused_iff contradictedRepository 0 (.artifact corePom) .empty ?_).mpr ?_).2⟩
  · simp [SidecarLost, Request.artifact, failed]
  · intro bytes headers fetched admits
    rcases admits "0123456789abcdef0123456789abcdef01234567" (by decide +kernel) with
      ⟨want, parsed, same⟩
    have read : (ChecksumExpected.parse .sha1 "0123456789abcdef0123456789abcdef01234567").map
        (·.hex == "") = .ok false := by
      decide +kernel
    have empty : contradictedRepository.digests.hexSha1 bytes = "" := rfl
    simp [parsed, same, empty, Except.map] at read

/-- The SHA-256 sidecar is there, but the request for it is answered with an error: the bytes are
returned and recorded as if upstream published none. -/
theorem lost_sidecar_ignored : SidecarLost downgradedRepository corePom ∧
    let fetched := fetchAndCache downgradedRepository 0 (.artifact corePom) .empty
    fetched.1 = .ok ([1, 2, 3], .remote) ∧
      (fetched.2.index[corePom]?.map IndexEntry.hash) = some (shortHash [1, 2, 3]) := by
  have failed : downgradedRepository.fetcher.fetch downgradedRepository.respond
      (Fetcher.urlForSidecar (downgradedRepository.artifactUrl corePom) "sha256") =
      .error (.status "https://repo/org/example/core/1.0/core-1.0.pom.sha256" 503) := by
    decide +kernel
  exact ⟨by simp [SidecarLost, failed], by decide +kernel, by decide +kernel⟩

end Barista.Cache
