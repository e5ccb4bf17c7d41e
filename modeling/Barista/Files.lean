import Barista.Bytes

/-!
# Programs over files

Each system call may fail by a table of faults. `Ensures` relates the start of a program to where
it returns and to where it fails.
-/

namespace Barista

inductive IoError where
  | notFound
  | alreadyExists
  | other (code : ℕ)
  deriving DecidableEq

structure Fault where
  error : IoError
  written : ℕ := 0
  deriving DecidableEq

abbrev Faults : Type := ℕ → Option Fault

def Faults.none : Faults := fun _ => Option.none

abbrev Contents (Path : Type) : Type := Path → Option Bytes

structure FileState (Path : Type) where
  files : Contents Path
  /-- How many calls were made. -/
  calls : ℕ := 0

def FileM (Path ε α : Type) : Type := Faults → FileState Path → Except ε α × FileState Path

namespace FileM

variable {Path ε ε' α β : Type}

instance : Monad (FileM Path ε) where
  pure value _ state := (.ok value, state)
  bind program next faults state :=
    match program faults state with
    | (.ok value, middle) => next value faults middle
    | (.error error, middle) => (.error error, middle)

def throw (error : ε) : FileM Path ε α := fun _ state => (.error error, state)

def mapError (convert : ε → ε') (program : FileM Path ε α) : FileM Path ε' α := fun faults state =>
    match program faults state with
    | (.ok value, last) => (.ok value, last)
    | (.error error, last) => (.error (convert error), last)

def orElse (program : FileM Path ε α) (handler : ε → FileM Path ε' α) : FileM Path ε' α :=
  fun faults state =>
    match program faults state with
    | (.ok value, last) => (.ok value, last)
    | (.error error, last) => handler error faults last

def ignore (program : FileM Path ε α) : FileM Path ε' Unit :=
  fun faults state => (.ok (), (program faults state).2)

def call (interrupted : Fault → Contents Path → Contents Path)
    (perform : Contents Path → Except IoError α × Contents Path) : FileM Path IoError α :=
  fun faults state =>
    match faults state.calls with
    | some fault => (.error fault.error, ⟨interrupted fault state.files, state.calls + 1⟩)
    | none => ((perform state.files).1, ⟨(perform state.files).2, state.calls + 1⟩)

def touchNothing : FileM Path IoError Unit :=
  call (fun _ files => files) fun files => (.ok (), files)

section Calls

variable [DecidableEq Path] (path : Path)

def createNew : FileM Path IoError Unit := call (fun _ files => files) fun files =>
    if (files path).isSome then (.error .alreadyExists, files)
    else (.ok (), Function.update files path (some []))

def appended (bytes : Bytes) (files : Contents Path) : Contents Path :=
  Function.update files path ((files path).map (· ++ bytes))

def writeAll (bytes : Bytes) : FileM Path IoError Unit :=
  call (fun fault files => appended path (bytes.take fault.written) files) fun files =>
    (.ok (), appended path bytes files)

def removeFile : FileM Path IoError Unit := call (fun _ files => files) fun files =>
    if (files path).isSome then (.ok (), Function.update files path none)
    else (.error .notFound, files)

def rename (target : Path) : FileM Path IoError Unit := call (fun _ files => files) fun files =>
    match files path with
    | some bytes => (.ok (), Function.update (Function.update files path none) target (some bytes))
    | none => (.error .notFound, files)

omit [DecidableEq Path] in
def read : FileM Path IoError Bytes := call (fun _ files => files) fun files =>
    match files path with
    | some bytes => (.ok bytes, files)
    | none => (.error .notFound, files)

def isFile : FileM Path ε Bool := fun faults state =>
    (.ok ((faults state.calls).isNone && (state.files path).isSome),
      { state with calls := state.calls + 1 })

end Calls

structure Ensures (before : Contents Path → Prop) (program : FileM Path ε α)
    (after : Except ε α → Contents Path → Prop) : Prop where
  run : ∀ faults state, before state.files →
    after (program faults state).1 (program faults state).2.files

namespace Ensures

variable {pre : Contents Path → Prop} {post : Except ε α → Contents Path → Prop}
  {prog : FileM Path ε α}

theorem pure {val : α} (holds : ∀ files, pre files → post (.ok val) files) :
    Ensures pre (Pure.pure val : FileM Path ε α) post := by
  constructor
  intro faults st initially
  exact holds st.files initially

theorem throw {err : ε} (holds : ∀ files, pre files → post (.error err) files) :
    Ensures pre (FileM.throw err : FileM Path ε α) post := by
  constructor
  intro faults st initially
  exact holds st.files initially

variable {mid : Except ε α → Contents Path → Prop}

theorem bind {next : α → FileM Path ε β}
    {post : Except ε β → Contents Path → Prop} (first : Ensures pre prog mid)
    (failed : ∀ err files, mid (.error err) files → post (.error err) files)
    (rest : ∀ val, Ensures (mid (.ok val)) (next val) post) :
    Ensures pre (prog >>= next) post := by
  constructor
  intro faults st initially
  have reached := first.run faults st initially
  change post (match prog faults st with
    | (.ok val, mid) => next val faults mid
    | (.error err, mid) => (.error err, mid)).1 (match prog faults st with
    | (.ok val, mid) => next val faults mid
    | (.error err, mid) => (.error err, mid)).2.files
  generalize prog faults st = out at reached ⊢
  rcases out with ⟨outcome, between⟩
  rcases outcome with err | val
  · exact failed err between.files reached
  · exact (rest val).run faults between reached

section Consequence

variable {before' : Contents Path → Prop} (ensures : Ensures pre prog post)
  (stronger : ∀ files, before' files → pre files)

include ensures stronger

theorem weaken {after' : Except ε α → Contents Path → Prop}
    (weaker : ∀ outcome files, post outcome files → after' outcome files) :
    Ensures before' prog after' := by
  constructor
  intro faults st initially
  exact weaker _ _ (ensures.run faults st (stronger _ initially))

theorem strengthen : Ensures before' prog post := ensures.weaken stronger fun _ _ reached => reached

end Consequence

variable {post : Except ε' α → Contents Path → Prop}

theorem mapError {convert : ε → ε'}
    (ensures : Ensures pre prog fun outcome => post (outcome.mapError convert)) :
    Ensures pre (FileM.mapError convert prog) post := by
  constructor
  intro faults st initially
  have reached := ensures.run faults st initially
  simp only [FileM.mapError]
  generalize prog faults st = out at reached ⊢
  rcases out with ⟨outcome, last⟩
  rcases outcome with _ | _
  · exact reached
  · exact reached

theorem orElse {handler : ε → FileM Path ε' α} (first : Ensures pre prog mid)
    (ret : ∀ val files, mid (.ok val) files → post (.ok val) files)
    (handled : ∀ err, Ensures (mid (.error err)) (handler err) post) :
    Ensures pre (FileM.orElse prog handler) post := by
  constructor
  intro faults st initially
  have reached := first.run faults st initially
  simp only [FileM.orElse]
  generalize prog faults st = out at reached ⊢
  rcases out with ⟨outcome, last⟩
  rcases outcome with err | val
  · exact (handled err).run faults last reached
  · exact ret val last.files reached

theorem ignore {post : Except ε' Unit → Contents Path → Prop}
    (ensures : Ensures pre prog fun _ => post (.ok ())) :
    Ensures pre (FileM.ignore prog) post := by
  constructor
  intro faults st initially
  exact ensures.run faults st initially

theorem call {interrupted : Fault → Contents Path → Contents Path}
    {perform : Contents Path → Except IoError α × Contents Path}
    {post : Except IoError α → Contents Path → Prop}
    (failed : ∀ fault files, pre files → post (.error fault.error) (interrupted fault files))
    (performed : ∀ files, pre files → post (perform files).1 (perform files).2) :
    Ensures pre (FileM.call interrupted perform) post := by
  constructor
  intro faults st initially
  simp only [FileM.call]
  rcases faults st.calls with _ | fault
  · exact performed st.files initially
  · exact failed fault st.files initially

theorem touchNothing {post : Except IoError Unit → Contents Path → Prop}
    (failed : ∀ err files, pre files → post (.error err) files)
    (performed : ∀ files, pre files → post (.ok ()) files) :
    Ensures pre FileM.touchNothing post := by
  apply call
  · intro fault files initially
    exact failed fault.error files initially
  · intro files initially
    exact performed files initially

theorem isFile {path : Path} {post : Except ε Bool → Contents Path → Prop}
    (absent : ∀ files, pre files → post (.ok false) files)
    (present : ∀ files, pre files → (files path).isSome → post (.ok true) files) :
    Ensures pre (FileM.isFile path) post := by
  constructor
  intro faults st initially
  simp only [FileM.isFile]
  rcases ans : (faults st.calls).isNone && (st.files path).isSome with _ | _
  · exact absent st.files initially
  · rw [Bool.and_eq_true] at ans
    exact present st.files initially ans.2

end Ensures

end FileM

end Barista
