import Barista.Cache.Source
import Barista.Crew

/-!
# Single flight

Tasks of several processes ask for one artifact. The lock of a process and the lock file keep them
apart; each process has an index of its own, which it loads when it is opened.
-/

namespace Barista.Cache

open List Function
open Resolver (MetadataError FetchOrigin)

namespace SingleFlight

inductive Phase where
  | idle
  | entering
  | looking
  | locking
  | lookingAgain
  | asking
  | fetching
  | downloading
  | indexing (bytes : Bytes) (entry : IndexEntry) (upstream : Bool)
  | reading (entry : IndexEntry) (touches : Bool)
  | touching (bytes : Bytes)
  /-- The request is over; a request that was cancelled or panicked has no answer. -/
  | leaving (indexed : Bool) (answer : Option (Except MetadataError (Bytes × FetchOrigin)))
  | unlocked (indexed : Bool) (answer : Option (Except MetadataError (Bytes × FetchOrigin)))
  | ended (answer : Option (Except MetadataError (Bytes × FetchOrigin)))

namespace Phase

/-- The request is at work and holds the lock of its process. -/
def holdsCoord : Phase → Bool
  | idle => false
  | entering => false
  | leaving _ _ => false
  | unlocked _ _ => false
  | ended _ => false
  | _ => true

/-- The request has found no row and has not put one. -/
def isSeeking : Phase → Bool
  | locking => true
  | lookingAgain => true
  | asking => true
  | fetching => true
  | downloading => true
  | indexing _ _ _ => true
  | _ => false

/-- The request goes to upstream, or has put what it got there. -/
def isDownloading : Phase → Bool
  | fetching => true
  | downloading => true
  | indexing _ _ upstream => upstream
  | leaving indexed _ => indexed
  | unlocked indexed _ => indexed
  | _ => false

def isExclusive : Phase → Bool
  | lookingAgain => true
  | asking => true
  | fetching => true
  | downloading => true
  | indexing _ _ _ => true
  | _ => false

def hasIndexed : Phase → Bool
  | leaving indexed _ => indexed
  | unlocked indexed _ => indexed
  | _ => false

theorem isDownloading_of_hasIndexed (phase : Phase) (indexed : phase.hasIndexed = true) :
    phase.isDownloading = true := by
  cases phase <;> first | exact indexed | cases indexed

theorem holdsCoord_of_isSeeking (phase : Phase) (seeks : phase.isSeeking = true) :
    phase.holdsCoord = true := by
  cases phase <;> first | rfl | cases seeks

def isRunning : Phase → Bool
  | idle => false
  | leaving _ _ => false
  | unlocked _ _ => false
  | ended _ => false
  | _ => true

end Phase

inductive Event (ι : Type) where
  | acquired (task : ι)
  | downloads (task : ι)
  /-- A download was put into the index, and the locks are released. -/
  | completed (task : ι)

structure Shared (ι P : Type) where
  indexes : P → IndexMap
  journal : List JournalEntry
  objects : ContentHash → Option Bytes
  coordLocks : P → Option ι
  fileLock : Option ι
  log : List (Event ι)

variable {ι P : Type}

namespace Shared

variable (shared : Shared ι P)

def storeOf (process : P) : Store := ⟨shared.indexes process, shared.objects⟩

variable [DecidableEq P]

def mutate (process : P) (entry : JournalEntry) : Shared ι P :=
  { shared with
    journal := shared.journal ++ [entry]
    indexes := update shared.indexes process (entry.applyTo (shared.indexes process)) }

end Shared

def download (env : Environment) (request : Request) : Except MetadataError Download :=
  match request.urlOverride with
  | some url => (env.downloadUrl url).mapError (urlError env request)
  | none => (env.downloadArtifact request.target).mapError (artifactError env request)

def afterRoastery : Ended (Except RoasteryOutcome (Option (Bytes × IndexEntry))) → Phase
  | .panicked | .aborted => .leaving false none
  | .returned (.ok (some (bytes, entry))) => .indexing bytes entry false
  | .returned _ => .fetching

section Roastery

variable (ans : Ended (Except RoasteryOutcome (Option (Bytes × IndexEntry))))

@[simp]
theorem hasIndexed_afterRoastery : (afterRoastery ans).hasIndexed = false := by
  rcases ans with (_ | _ | ⟨bytes, entry⟩) | _ | _ <;> rfl

theorem fetching_of_afterRoastery (downloads : (afterRoastery ans).isDownloading = true) :
    afterRoastery ans = .fetching := by
  rcases ans with (_ | _ | ⟨bytes, entry⟩) | _ | _ <;> simp_all [afterRoastery, Phase.isDownloading]

end Roastery

def Served (answer : Ended (Except RoasteryOutcome (Option (Bytes × IndexEntry)))) : Prop :=
  ∃ bytes entry, answer = .returned (.ok (some (bytes, entry)))

structure Terms (ι P : Type) where
  acquire : Shared ι P → ι → Prop
  answer : Shared ι P → ι → Ended (Except RoasteryOutcome (Option (Bytes × IndexEntry))) → Prop

def Terms.any : Terms ι P := ⟨fun _ _ => True, fun _ _ _ => True⟩

section Moves

variable [DecidableEq ι] [DecidableEq P] (request : Request) (home : ι → P)
  (roastery : P → Option Roastery) (terms : Terms ι P) (task : ι)

def AsksRoastery : Prop := request.urlOverride = none ∧ (roastery (home task)).isSome

instance : Decidable (AsksRoastery request home roastery task) :=
  inferInstanceAs (Decidable (_ ∧ _))

inductive Move : Phase → Shared ι P → Phase → Shared ι P → Prop
  | start {shared : Shared ι P} : Move .idle shared .entering shared
  | enter {shared : Shared ι P} (free : shared.coordLocks (home task) = none) :
      Move .entering shared .looking
        { shared with coordLocks := update shared.coordLocks (home task) (some task) }
  | look {shared : Shared ι P} (entry : IndexEntry)
      (found : (shared.indexes (home task))[request.key]? = some entry) :
      Move .looking shared (.reading entry true) shared
  | miss {shared : Shared ι P} (absent : (shared.indexes (home task))[request.key]? = none) :
      Move .looking shared .locking shared
  | acquire {shared : Shared ι P} (free : shared.fileLock = none)
      (granted : terms.acquire shared task) :
      Move .locking shared .lookingAgain
        { shared with fileLock := some task, log := shared.log ++ [.acquired task] }
  | lockFails {shared : Shared ι P} (detail : String) : Move .locking shared
        (.leaving false (some (.error (.transport request.target.coords.display
          request.target.version detail)))) shared
  | lookAgain {shared : Shared ι P} (entry : IndexEntry)
      (found : (shared.indexes (home task))[request.key]? = some entry) :
      Move .lookingAgain shared (.reading entry false) shared
  | missAgain {shared : Shared ι P} (absent : (shared.indexes (home task))[request.key]? = none) :
      Move .lookingAgain shared
        (if AsksRoastery request home roastery task then .asking else .fetching) shared
  | ask {shared : Shared ι P} (env : Environment) (server : Roastery) (now : UInt64)
      (configured : roastery (home task) = some server)
      (answered : terms.answer shared task
        (tryRoastery env server now request.target (shared.storeOf (home task))).1) :
      Move .asking shared
        (afterRoastery (tryRoastery env server now request.target (shared.storeOf (home task))).1)
        { shared with
          objects :=
            (tryRoastery env server now request.target (shared.storeOf (home task))).2.objects }
  | send {shared : Shared ι P} : Move .fetching shared .downloading
        { shared with log := shared.log ++ [.downloads task] }
  | receive {shared : Shared ι P} (env : Environment) (result : Download) (now : UInt64)
      (fetched : download env request = .ok result) : Move .downloading shared
        (.indexing result.bytes (env.rowFor result now) true)
        { shared with
          objects := ((shared.storeOf (home task)).putBlob (env.digests.sha256 result.bytes)
            result.bytes).objects }
  | receiveFails {shared : Shared ι P} (env : Environment) (error : MetadataError)
      (failed : download env request = .error error) :
      Move .downloading shared (.leaving false (some (.error error))) shared
  | put {shared : Shared ι P} (bytes : Bytes) (entry : IndexEntry) (upstream : Bool) :
      Move (.indexing bytes entry upstream) shared (.leaving upstream (some (.ok (bytes, .remote))))
        (shared.mutate (home task) (.put request.key entry))
  /-- The journal may fail, or the compaction that follows. -/
  | putFails {shared : Shared ι P} (bytes : Bytes) (entry : IndexEntry) (upstream recorded : Bool)
      (detail : String) : Move (.indexing bytes entry upstream) shared
        (.leaving false (some (.error (.transport request.target.coords.display
          request.target.version ("index put: " ++ detail)))))
        (if recorded then shared.mutate (home task) (.put request.key entry) else shared)
  | read {shared : Shared ι P} (entry : IndexEntry) (touches : Bool) (bytes : Bytes)
      (stored : shared.objects entry.hash = some bytes) : Move (.reading entry touches) shared
        (if touches then .touching bytes else .leaving false (some (.ok (bytes, .disk)))) shared
  | readFails {shared : Shared ι P} (env : Environment) (entry : IndexEntry) (touches : Bool)
      (error : CasError) : Move (.reading entry touches) shared
        (.leaving false (some (.error (env.mapCasErr request.target.coords request.target.version
          error)))) shared
  /-- Whether the touch succeeds does not matter. -/
  | touch {shared : Shared ι P} (bytes : Bytes) (now : UInt64) (recorded : Bool) :
      Move (.touching bytes) shared (.leaving false (some (.ok (bytes, .disk))))
        (if recorded then shared.mutate (home task) (.touch request.key now) else shared)
  | cancel {shared : Shared ι P} (phase : Phase) (running : phase.isRunning = true) :
      Move phase shared (.leaving false none) shared
  | unlockFile {shared : Shared ι P} (indexed : Bool)
      (answer : Option (Except MetadataError (Bytes × FetchOrigin))) :
      Move (.leaving indexed answer) shared (.unlocked indexed answer)
        { shared with
          fileLock := if shared.fileLock = some task then none else shared.fileLock }
  | unlockCoord {shared : Shared ι P} (indexed : Bool)
      (answer : Option (Except MetadataError (Bytes × FetchOrigin))) :
      Move (.unlocked indexed answer) shared (.ended answer)
        { shared with
          coordLocks :=
            if shared.coordLocks (home task) = some task then
              update shared.coordLocks (home task) none
            else shared.coordLocks
          log := if indexed then shared.log ++ [.completed task] else shared.log }

end Moves

def Shared.Knows (shared : Shared ι P) (request : Request) (process : P) : Prop :=
  (shared.indexes process)[request.key]?.isSome

variable {req : Request} {shared shared' : Shared ι P} {proc : P} {home : ι → P}
  {roastery : P → Option Roastery} {terms : Terms ι P} {task other : ι} {pre post : Phase}

section Effects

variable [DecidableEq P]

theorem Shared.Knows.mutate_put (knows : shared.Knows req proc) (place : P) (entry : IndexEntry) :
    (shared.mutate place (.put req.key entry)).Knows req proc := by
  by_cases same : proc = place
  · simp [Shared.Knows, Shared.mutate, same, JournalEntry.applyTo]
  · simpa [Shared.Knows, Shared.mutate, update_of_ne same] using knows

theorem Shared.Knows.mutate_touch (knows : shared.Knows req proc) (place : P) (now : UInt64) :
    (shared.mutate place (.touch req.key now)).Knows req proc := by
  by_cases same : proc = place
  · subst same
    simpa [Shared.Knows, Shared.mutate, JournalEntry.applyTo] using knows
  · simpa [Shared.Knows, Shared.mutate, update_of_ne same] using knows

theorem knows_mutate_put (shared : Shared ι P) (proc : P) (entry : IndexEntry) :
    (shared.mutate proc (.put req.key entry)).Knows req proc := by
  simp [Shared.Knows, Shared.mutate, JournalEntry.applyTo]

variable [DecidableEq ι]

section Moves

variable (move : Move req home roastery terms task pre shared post shared')

include move

theorem Move.knows (knows : shared.Knows req proc) : shared'.Knows req proc := by
  cases move with
  | put bytes entry upstream => exact knows.mutate_put _ _
  | putFails bytes entry upstream recorded detail =>
    split_ifs
    · exact knows.mutate_put _ _
    · exact knows
  | touch bytes now recorded =>
    split_ifs
    · exact knows.mutate_touch _ _
    · exact knows
  | _ => exact knows

theorem Move.fileLock_of_ne (ne : other ≠ task) (held : shared.fileLock = some other) :
    shared'.fileLock = some other := by
  cases move with
  | acquire free granted => simp [held] at free
  | unlockFile indexed ans =>
    simp only [held, Option.some.injEq]
    rw [if_neg ne]
  | putFails bytes entry upstream recorded detail => split_ifs <;> exact held
  | touch bytes now recorded => split_ifs <;> exact held
  | _ => exact held

theorem Move.log :
    shared'.log = shared.log ∨ (shared'.log = shared.log ++ [.acquired task] ∧ pre = .locking ∧
      terms.acquire shared task) ∨
    (shared'.log = shared.log ++ [.downloads task] ∧ pre = .fetching) ∨
    (shared'.log = shared.log ++ [.completed task] ∧ pre.hasIndexed = true) := by
  cases move with
  | acquire free granted => exact .inr (.inl ⟨rfl, rfl, granted⟩)
  | send => exact .inr (.inr (.inl ⟨rfl, rfl⟩))
  | unlockCoord indexed ans =>
    rcases indexed with _ | _
    · exact .inl rfl
    · exact .inr (.inr (.inr ⟨rfl, rfl⟩))
  | putFails bytes entry upstream recorded detail =>
    split_ifs <;> exact .inl rfl
  | touch bytes now recorded =>
    split_ifs <;> exact .inl rfl
  | _ => exact .inl rfl

theorem Move.exclusive (exclusive : post.isExclusive = true) : shared'.fileLock = some task ∨
      (pre.isExclusive = true ∧ shared'.fileLock = shared.fileLock) := by
  cases move with
  | acquire free granted => exact .inl rfl
  | missAgain absent | ask env srv now configured answered | send | receive env out now fetched =>
    exact .inr ⟨rfl, rfl⟩
  | read entry touches bytes stored =>
    split_ifs at exclusive <;> simp [Phase.isExclusive] at exclusive
  | _ => simp [Phase.isExclusive] at exclusive

theorem Move.fetching (fetching : post = .fetching) :
    (pre = .lookingAgain ∧ ¬shared.Knows req (home task) ∧ ¬AsksRoastery req home roastery task) ∨
    (pre = .asking ∧ ∃ ans, terms.answer shared task ans ∧ ¬Served ans) := by
  cases move with
  | missAgain absent =>
    split_ifs at fetching with asks
    exact .inl ⟨rfl, by simp [Shared.Knows, absent], asks⟩
  | ask env srv now configured answered =>
    refine .inr ⟨rfl, _, answered, ?_⟩
    rintro ⟨bytes, entry, served⟩
    simp [served, afterRoastery] at fetching
  | read entry touches bytes stored => split_ifs at fetching
  | _ => simp at fetching

theorem Move.indexed (indexed : post.hasIndexed = true) :
    pre.hasIndexed = true ∨ shared'.Knows req (home task) := by
  cases move with
  | put bytes entry upstream => exact .inr (knows_mutate_put _ _ _)
  | unlockFile done ans => exact .inl indexed
  | missAgain absent | read entry touches bytes stored =>
    split_ifs at indexed <;> simp [Phase.hasIndexed] at indexed
  | ask env srv now configured answered => simp at indexed
  | _ => simp [Phase.hasIndexed] at indexed

theorem Move.holdsCoord (holds : post.holdsCoord = true) :
    shared'.coordLocks (home task) = some task ∨
      (pre.holdsCoord = true ∧ shared'.coordLocks = shared.coordLocks) := by
  cases move with
  | enter free => simp
  | look entry found | miss absent | acquire free granted | lookAgain entry found
  | missAgain absent | ask env srv now configured answered | send | receive env out now fetched
  | read entry touches bytes stored => exact .inr ⟨rfl, rfl⟩
  | _ => simp [Phase.holdsCoord] at holds

theorem Move.coordLock_of_ne (ne : other ≠ task) (held : shared.coordLocks proc = some other) :
    shared'.coordLocks proc = some other := by
  cases move with
  | enter free =>
    have apart : proc ≠ home task := by
      rintro rfl
      simp [held] at free
    simp [update_of_ne apart, held]
  | unlockCoord indexed ans =>
    dsimp only
    split_ifs with mine
    · have apart : proc ≠ home task := by
        rintro rfl
        simp only [held, Option.some.injEq] at mine
        exact ne mine
      simp [update_of_ne apart, held]
    · exact held
  | putFails bytes entry upstream recorded detail | touch bytes now recorded =>
    split_ifs <;> exact held
  | _ => exact held

theorem Move.indexes : shared'.indexes = shared.indexes ∨
    (pre.holdsCoord = true ∧
      ∀ place ≠ home task, shared'.indexes place = shared.indexes place) := by
  cases move with
  | put bytes entry upstream => exact .inr ⟨rfl, fun _ ne => update_of_ne ne _ _⟩
  | putFails bytes entry upstream recorded detail | touch bytes now recorded =>
    split_ifs
    · exact .inr ⟨rfl, fun _ ne => update_of_ne ne _ _⟩
    · exact .inl rfl
  | _ => exact .inl rfl

theorem Move.unknown (unknown : pre.isSeeking = true → ¬shared.Knows req (home task))
    (seeks : post.isSeeking = true) : ¬shared'.Knows req (home task) := by
  cases move with
  | miss absent | missAgain absent => simp [Shared.Knows, absent]
  | acquire free granted | ask env srv now configured answered | send
  | receive env out now fetched => exact unknown rfl
  | read entry touches bytes stored => split_ifs at seeks <;> simp [Phase.isSeeking] at seeks
  | _ => simp [Phase.isSeeking] at seeks

theorem Move.isDownloading (downloads : post.isDownloading = true) :
    pre.isDownloading = true ∨ post = .fetching := by
  cases move with
  | missAgain absent =>
    split_ifs at downloads ⊢
    · simp [Phase.isDownloading] at downloads
    · exact .inr rfl
  | ask env srv now configured answered => exact .inr (fetching_of_afterRoastery _ downloads)
  | send | receive env out now fetched => exact .inl rfl
  | put bytes entry upstream | unlockFile done ans => exact .inl downloads
  | read entry touches bytes stored =>
    split_ifs at downloads <;> simp [Phase.isDownloading] at downloads
  | _ => simp [Phase.isDownloading] at downloads

end Moves

end Effects

/-- Nothing is downloaded after a download was completed. -/
def DownloadsOnce (log : List (Event ι)) : Prop :=
  ∀ before task after, log = before ++ .completed task :: after → ∀ other, .downloads other ∉ after

/-- No request that takes the lock file after a completed download downloads the artifact. -/
def NoSecondDownload (log : List (Event ι)) : Prop :=
  ∀ before task after, log = before ++ .acquired task :: after →
    (∃ other, .completed other ∈ before) → .downloads task ∉ after

section Log

variable {log : List (Event ι)} {ev : Event ι}

theorem DownloadsOnce.concat (once : DownloadsOnce log)
    (first : ∀ task, ev = .downloads task → ∀ other, .completed other ∉ log) :
    DownloadsOnce (log ++ [ev]) := by
  intro before done after split other downloads
  rcases eq_nil_or_concat after with rfl | ⟨rest, final, rfl⟩
  · cases downloads
  · rw [concat_eq_append, ← cons_append, ← append_assoc] at split
    have earlier := append_inj_left' split rfl
    rw [concat_eq_append, mem_append, mem_singleton] at downloads
    rcases downloads with inside | last
    · exact once before done rest earlier other inside
    · have same : ev = final := singleton_inj.mp (append_inj_right' split rfl)
      exact first other (same.trans last.symm) done (by simp [earlier])

theorem DownloadsOnce.noSecondDownload (once : DownloadsOnce log) : NoSecondDownload log := by
  rintro before task after split ⟨other, completed⟩ downloads
  rcases append_of_mem completed with ⟨first, rest, rfl⟩
  refine once first other (rest ++ .acquired task :: after) (by simp [split]) task ?_
  simp [downloads]

end Log

section Runs

variable [DecidableEq ι] [DecidableEq P] (request : Request) (home : ι → P)
  (roastery : P → Option Roastery) (indexes : P → IndexMap) (main : P)

/-- Its process has the row when it opens the index, or the request has a roastery to ask. -/
def Supplied (task : ι) : Prop :=
  (indexes (home task))[request.key]?.isSome ∨ AsksRoastery request home roastery task

/-- The roastery serves all requests of processes other than `main`. -/
def Terms.served : Terms ι P where
  acquire _ _ := True
  answer _ task answer := home task ≠ main → Served answer

structure Attributed (shared : Shared ι P) : Prop where
  opened : ∀ process, (indexes process)[request.key]?.isSome → shared.Knows request process
  completed : ∀ task, .completed task ∈ shared.log → home task = main ∧ shared.Knows request main
  once : DownloadsOnce shared.log

structure Accounted (task : ι) (phase : Phase) (shared : Shared ι P) : Prop where
  locked : phase.holdsCoord = true → shared.coordLocks (home task) = some task
  unknown : phase.isSeeking = true → ¬shared.Knows request (home task)
  indexed : phase.hasIndexed = true → shared.Knows request (home task)
  foreign : home task ≠ main → phase.isDownloading = false

variable {request home roastery indexes main}

omit [DecidableEq ι] in
theorem Accounted.eq_main (accounted : Accounted request home main task pre shared)
    (downloads : pre.isDownloading = true) : home task = main := by
  by_contra foreign
  simp [accounted.foreign foreign] at downloads

theorem Attributed.move (attributed : Attributed request home indexes main shared)
    (accounted : Accounted request home main task pre shared)
    (move : Move request home roastery terms task pre shared post shared') :
    Attributed request home indexes main shared' where
  opened process row := move.knows (attributed.opened process row)
  completed := by
    intro other completed
    rcases move.log with same | ⟨log, -, -⟩ | ⟨log, -⟩ | ⟨log, done⟩
    · exact (attributed.completed other (same ▸ completed)).imp_right move.knows
    · exact (attributed.completed other (by simpa [log] using completed)).imp_right move.knows
    · exact (attributed.completed other (by simpa [log] using completed)).imp_right move.knows
    · rw [log, mem_append] at completed
      rcases completed with prior | now
      · exact (attributed.completed other prior).imp_right move.knows
      · rw [mem_singleton, Event.completed.injEq] at now
        have here := accounted.eq_main (pre.isDownloading_of_hasIndexed done)
        rw [now]
        exact ⟨here, here ▸ move.knows (accounted.indexed done)⟩
  once := by
    rcases move.log with same | ⟨log, -, -⟩ | ⟨log, rfl⟩ | ⟨log, -⟩
    · exact same ▸ attributed.once
    · rw [log]
      exact attributed.once.concat (by simp)
    · rw [log]
      apply attributed.once.concat
      -- a request that goes to upstream has found no row in the index of `main`
      intro _ _ other completed
      have known := (attributed.completed other completed).2
      rw [← accounted.eq_main rfl] at known
      exact accounted.unknown rfl known
    · rw [log]
      exact attributed.once.concat (by simp)

section Accounts

variable (supplied : ∀ task, home task ≠ main → Supplied request home roastery indexes task)
  (served : ∀ {shared : Shared ι P} {task answer}, terms.answer shared task answer →
    home task ≠ main → Served answer)

include supplied served

theorem Accounted.own (attributed : Attributed request home indexes main shared)
    (accounted : Accounted request home main task pre shared)
    (move : Move request home roastery terms task pre shared post shared') :
    Accounted request home main task post shared' where
  locked := by
    intro holds
    rcases move.holdsCoord holds with now | ⟨prior, same⟩
    · exact now
    · rw [same]
      exact accounted.locked prior
  unknown := move.unknown accounted.unknown
  indexed := by
    intro indexed
    rcases move.indexed indexed with prior | now
    · exact move.knows (accounted.indexed prior)
    · exact now
  foreign := by
    intro foreign
    by_contra downloads
    rw [Bool.not_eq_false] at downloads
    rcases move.isDownloading downloads with prior | fetching
    · simp [accounted.foreign foreign] at prior
    · rcases move.fetching fetching with ⟨-, unknown, alone⟩ | ⟨-, answer, answered, refused⟩
      · rcases supplied task foreign with row | asks
        · exact unknown (attributed.opened _ row)
        · exact alone asks
      · exact refused (served answered foreign)

omit supplied served in
theorem Accounted.others (mover : Accounted request home main task pre shared)
    (move : Move request home roastery terms task pre shared post shared') (ne : other ≠ task)
    {phase : Phase} (accounted : Accounted request home main other phase shared) :
    Accounted request home main other phase shared' where
  locked holds := move.coordLock_of_ne ne (accounted.locked holds)
  unknown := by
    intro seeks known
    have held := accounted.locked (phase.holdsCoord_of_isSeeking seeks)
    apply accounted.unknown seeks
    rcases move.indexes with same | ⟨holds, elsewhere⟩
    · rwa [Shared.Knows, same] at known
    · have apart : home other ≠ home task := by
        intro same
        rw [same, mover.locked holds, Option.some.injEq] at held
        exact ne held.symm
      rwa [Shared.Knows, elsewhere _ apart] at known
  indexed indexed := move.knows (accounted.indexed indexed)
  foreign := accounted.foreign

theorem outline : Crew.Outline (Move request home roastery terms)
    (Attributed request home indexes main) (Accounted request home main) where
  global := Attributed.move
  own := Accounted.own supplied served
  others _ mover move ne accounted := mover.others move ne accounted

end Accounts

def start (indexes : P → IndexMap) (journal : List JournalEntry)
    (objects : ContentHash → Option Bytes) : Crew ι Phase (Shared ι P) where
  locals := fun _ => .idle
  shared :=
    { indexes := indexes
      journal := journal
      objects := objects
      coordLocks := fun _ => none
      fileLock := none
      log := [] }

variable {journal : List JournalEntry} {objects : ContentHash → Option Bytes}
  {crew : Crew ι Phase (Shared ι P)}

omit [DecidableEq ι] [DecidableEq P] in
theorem holds_start : (start indexes journal objects).Holds
    (Attributed request home indexes main) (Accounted request home main) := by
  refine ⟨⟨fun _ row => row, by simp [start], by simp [start, DownloadsOnce]⟩, fun task => ?_⟩
  constructor <;>
    simp [start, Phase.holdsCoord, Phase.isSeeking, Phase.hasIndexed, Phase.isDownloading]

theorem downloadsOnce_of_reaches
    (supplied : ∀ task, home task ≠ main → Supplied request home roastery indexes task)
    (served : ∀ {shared : Shared ι P} {task answer}, terms.answer shared task answer →
      home task ≠ main → Served answer)
    (reaches : Crew.Reaches (Move request home roastery terms) (start indexes journal objects)
      crew) : DownloadsOnce crew.shared.log :=
  ((outline supplied served).holds holds_start reaches).global.once

/-- If all processes but one have the row from the start or get the artifact from a roastery, then
no request that takes the lock file after a completed download downloads the artifact again. -/
theorem no_second_download
    (supplied : ∀ task, home task ≠ main → Supplied request home roastery indexes task)
    (reaches : Crew.Reaches (Move request home roastery (.served home main))
      (start indexes journal objects) crew) : NoSecondDownload crew.shared.log :=
  (downloadsOnce_of_reaches supplied (fun served => served) reaches).noSecondDownload

/-- In a single process nothing is downloaded after a download was completed. -/
theorem downloads_once_one_process (together : ∀ task, home task = main)
    (reaches : Crew.Reaches (Move request home roastery .any) (start indexes journal objects)
      crew) : DownloadsOnce crew.shared.log :=
  downloadsOnce_of_reaches (fun task foreign => absurd (together task) foreign)
    (fun {_ task _} _ foreign => absurd (together task) foreign) reaches

/-- At most one task is between taking the lock file and releasing it. -/
theorem exclusive_of_reaches
    (reaches : Crew.Reaches (Move req home roastery terms) (start indexes journal objects)
      crew) {task other : ι} (works : (crew.locals task).isExclusive = true)
    (works' : (crew.locals other).isExclusive = true) : task = other := by
  have outline : Crew.Outline (Move req home roastery terms) (fun _ => True)
      (fun task phase shared => phase.isExclusive = true → shared.fileLock = some task) := by
    refine ⟨fun _ _ _ => trivial, ?_, ?_⟩
    · intro task pre shared post shared' _ held move exclusive
      rcases move.exclusive exclusive with now | ⟨prior, same⟩
      · exact now
      · rw [same]
        exact held prior
    · intro task pre shared post shared' other present _ _ move ne held exclusive
      exact move.fileLock_of_ne ne (held exclusive)
  have holds := outline.holds ⟨trivial, fun task => by simp [start, Phase.isExclusive]⟩ reaches
  have held := holds.locals task works
  rw [holds.locals other works', Option.some.injEq] at held
  exact held.symm

end Runs

def coreJar : Request := .artifact ⟨⟨"org.example", "core"⟩, "1.0", "jar", none⟩

def coreRepository : Environment :=
  .small [("https://repo/org/example/core/1.0/core-1.0.jar", [1, 2, 3])]

def coreDownload : Download :=
  ⟨[1, 2, 3], "https://repo/org/example/core/1.0/core-1.0.jar", none, ⟨none, none, none⟩⟩

theorem download_coreJar : download coreRepository coreJar = .ok coreDownload := by
  decide +kernel

theorem first_completed {P : Type} [DecidableEq P] (home : Bool → P)
    (roastery : P → Option Roastery) (direct : roastery (home false) = none) (terms : Terms Bool P)
    (granted : ∀ shared : Shared Bool P, terms.acquire shared false) :
    ∃ crew, Crew.Reaches (Move coreJar home roastery terms)
        (start (fun _ => ∅) [] fun _ => none) crew ∧
      crew.locals true = .idle ∧
      crew.shared.log = [.acquired false, .downloads false, .completed false] ∧
      crew.shared.fileLock = none ∧ crew.shared.coordLocks = (fun _ => none) ∧
      crew.shared.indexes = update (fun _ => ∅) (home false)
        ((∅ : IndexMap).insert coreJar.key (coreRepository.rowFor coreDownload 1)) ∧
      crew.shared.objects = (Store.empty.putBlob (shortHash [1, 2, 3]) [1, 2, 3]).objects := by
  have begun : Crew.Reaches (Move coreJar home roastery terms)
      (start (fun _ => ∅) [] fun _ => none) (start (fun _ => ∅) [] fun _ => none) := .refl
  have entered := (begun.move false .start).move false (.enter rfl)
  have locked := (entered.move false (.miss rfl)).move false (.acquire rfl (granted _))
  have alone : ¬AsksRoastery coreJar home roastery false := by simp [AsksRoastery, direct]
  have missed := locked.move false (.missAgain rfl)
  rw [if_neg alone] at missed
  have sent := missed.move false .send
  have indexed := (sent.move false (.receive coreRepository coreDownload 1 download_coreJar)).move
    false (.put _ _ _)
  have ended := (indexed.move false (.unlockFile _ _)).move false (.unlockCoord _ _)
  refine ⟨_, ended, rfl, rfl, rfl, ?_, rfl, rfl⟩
  -- The lock of the process was taken and is given back.
  have free : (update (update (fun _ => none) (home false) (some false))
      (home false) none : P → Option Bool) = fun _ => none := by
    rw [update_idem]
    exact update_eq_self _ _
  exact (if_pos (update_self _ _ _)).trans free

/-- Upstream with a SHA-256 sidecar, by which the roastery is asked. -/
def sidecarRepository : Environment :=
  .small [("https://repo/org/example/core/1.0/core-1.0.jar.sha256",
    asciiBytes (shortHash [1, 2, 3]).toHex)]

def coreRoastery : Roastery where
  url := "https://roastery"
  request := none
  isHeaderValue := fun _ => true
  errorBody := fun _ => none
  fromUtf8Lossy := asciiText
  serve digest _ := .ok
    { status := 200
      headers := fun name =>
        if name = "Content-Length" then some (asciiBytes "3")
        else if name = "X-Barista-Digest" then some (asciiBytes ("sha256:" ++ digest.toHex))
        else none
      body := .ok [1, 2, 3] }

/-- The second process takes the lock file after the first one has completed its download, and its
roastery serves the artifact. -/
theorem no_second_download_served :
    let roastery (process : Bool) := if process then some coreRoastery else none
    ∃ crew, Crew.Reaches (Move coreJar id roastery (.served id false))
        (start (fun _ => ∅) [] fun _ => none) crew ∧
      crew.shared.log =
        [.acquired false, .downloads false, .completed false, .acquired true] ∧
      (∃ bytes entry, crew.locals true = .indexing bytes entry false) ∧
      NoSecondDownload crew.shared.log := by
  intro roastery
  rcases first_completed id roastery rfl (.served id false) (fun _ => trivial) with
    ⟨crew, reaches, idle, log, fileLock, coordLocks, indexes, objects⟩
  have absent : (crew.shared.indexes (id true))[coreJar.key]? = none := by
    rw [indexes]
    rfl
  have begun := reaches.move true (by rw [idle]; exact .start)
  have entered := begun.move true (.enter (by rw [coordLocks]))
  have locked := (entered.move true (.miss absent)).move true (.acquire fileLock trivial)
  have asking := locked.move true (.missAgain absent)
  rw [if_pos ⟨rfl, rfl⟩] at asking
  have serves : ∃ bytes entry, (tryRoastery sidecarRepository coreRoastery 2 coreJar.target
      (crew.shared.storeOf (id true))).1 = .returned (.ok (some (bytes, entry))) := by
    rw [Shared.storeOf, indexes, objects]
    exact ⟨[1, 2, 3], roasteryRow coreRoastery (shortHash [1, 2, 3]) [1, 2, 3]
      (.sha256Verified (shortHash [1, 2, 3]).toHex) 2, by decide +kernel⟩
  have answered := asking.move true (.ask sidecarRepository coreRoastery 2 rfl fun _ => serves)
  refine ⟨_, answered, by simp [log], ?_, ?_⟩
  · rcases serves with ⟨bytes, entry, served⟩
    refine ⟨bytes, entry, ?_⟩
    simp only [update_self]
    exact congrArg afterRoastery served
  · apply no_second_download ?_ answered
    rintro (_ | _) foreign
    · exact absurd rfl foreign
    · exact .inr ⟨rfl, rfl⟩

/-- A later request of the same process finds the row. -/
theorem downloads_once_same_process :
    ∃ crew, Crew.Reaches (Move coreJar (fun _ : Bool => ()) (fun _ => none) .any)
        (start (fun _ => ∅) [] fun _ => none) crew ∧
      .completed false ∈ crew.shared.log ∧ (∃ entry, crew.locals true = .reading entry true) ∧
      DownloadsOnce crew.shared.log := by
  rcases first_completed (fun _ => ()) (fun _ => none) rfl .any (fun _ => trivial) with
    ⟨crew, reaches, idle, log, -, coordLocks, indexes, -⟩
  have begun := reaches.move true (by rw [idle]; exact .start)
  have entered := begun.move true (.enter (by rw [coordLocks]))
  have found := entered.move true (.look (coreRepository.rowFor coreDownload 1) (by simp [indexes]))
  exact ⟨_, found, by simp [log],
    ⟨coreRepository.rowFor coreDownload 1, by simp only [update_self]⟩,
    downloads_once_one_process (fun _ => rfl) found⟩

/-- The request of another process waits for the lock file. -/
theorem exclusive_after_acquire :
    ∃ crew, Crew.Reaches (Move coreJar id (fun _ : Bool => none) .any)
        (start (fun _ => ∅) [] fun _ => none) crew ∧ (crew.locals false).isExclusive = true ∧
      crew.locals true = .locking ∧
      ∀ other, (crew.locals other).isExclusive = true → false = other := by
  have begun : Crew.Reaches (Move coreJar id (fun _ : Bool => none) .any)
      (start (fun _ => ∅) [] fun _ => none) _ := .refl
  have entered := (begun.move false .start).move false (.enter rfl)
  have contends := (entered.move true .start).move true (.enter rfl)
  have missed := (contends.move false (.miss rfl)).move true (.miss rfl)
  have locked := missed.move false (.acquire rfl trivial)
  exact ⟨_, locked, rfl, rfl, fun other => exclusive_of_reaches locked rfl⟩

/-- A process does not see the row of another one, and downloads the artifact again. -/
theorem second_process_downloads_again :
    ∃ crew, Crew.Reaches (Move coreJar id (fun _ : Bool => none) .any)
        (start (fun _ => ∅) [] fun _ => none) crew ∧
      crew.shared.log = [.acquired false, .downloads false, .completed false, .acquired true,
        .downloads true] ∧
      ¬NoSecondDownload crew.shared.log := by
  rcases first_completed id (fun _ => none) rfl .any (fun _ => trivial) with
    ⟨crew, reaches, idle, log, fileLock, coordLocks, indexes, -⟩
  have absent : (crew.shared.indexes (id true))[coreJar.key]? = none := by
    rw [indexes]
    rfl
  have begun := reaches.move true (by rw [idle]; exact .start)
  have entered := begun.move true (.enter (by rw [coordLocks]))
  have locked := (entered.move true (.miss absent)).move true (.acquire fileLock trivial)
  have sent := (locked.move true (.missAgain absent)).move true .send
  refine ⟨_, sent, by simp [log], ?_⟩
  intro once
  apply once [.acquired false, .downloads false, .completed false] true [.downloads true]
  · simp [log]
  · exact ⟨false, by simp⟩
  · simp

end SingleFlight

end Barista.Cache
