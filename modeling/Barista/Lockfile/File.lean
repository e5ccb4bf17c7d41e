import Barista.Files
import Barista.Lockfile.Schema

/-!
# The lockfile on the disk

A lockfile is written to a temporary file that then takes its place, so that a failed write leaves
the old file as it was.
-/

namespace Barista.Lockfile

inductive FileError where
  | io (source : IoError)
  | invalidUtf8
  | content (error : LockfileError)
  deriving DecidableEq

def utf8 (text : String) : Bytes := text.toByteArray.data.toList

def ofUtf8 (bytes : Bytes) : Option String := String.fromUTF8? ⟨bytes.toArray⟩

theorem ofUtf8_utf8 (text : String) : ofUtf8 (utf8 text) = some text := by
  rw [ofUtf8, utf8, Array.toArray_toList, String.fromUTF8?, dif_pos text.isValidUTF8]
  rfl

def new (generatedBy generatedAt projectSignature settingsFingerprint : String) : Lockfile where
  metaTable :=
    { schemaVersion := lockfileSchemaVersion
      generatedBy, generatedAt, projectSignature, settingsFingerprint }
  reactor := []
  entries := []
  settingsSnapshot := none

def stamped (lockfile : Lockfile) (generatedAt : String) : Lockfile :=
  { lockfile with metaTable := { lockfile.metaTable with generatedAt } }

variable (toml : Toml)

def read (fault : Option IoError) (bytes : Bytes) : Except FileError Lockfile :=
  match fault with
  | some error => .error (.io error)
  | none =>
    match ofUtf8 bytes with
    | none => .error .invalidUtf8
    | some text => (fromToml toml text).mapError FileError.content

def write (fault : Option IoError) (lockfile : Lockfile) : Except FileError Bytes :=
  match toToml toml lockfile with
  | .error error => .error (.content error)
  | .ok text =>
    match fault with
    | some error => .error (.io error)
    | none => .ok (utf8 text)

def Toml.Faithful : Prop :=
  ∀ lockfile text, toToml toml lockfile = .ok text → fromStr toml text = .ok lockfile

variable {toml}

theorem write_eq_ok {fault : Option IoError} {lock : Lockfile} {bytes : Bytes} :
    write toml fault lock = .ok bytes ↔
      fault = none ∧ ∃ text, toToml toml lock = .ok text ∧ utf8 text = bytes := by
  unfold write
  cases toToml toml lock <;> cases fault <;> simp

theorem read_write (faithful : toml.Faithful) {fault : Option IoError} {lock : Lockfile}
    {bytes : Bytes} (cur : lock.metaTable.schemaVersion = lockfileSchemaVersion)
    (written : write toml fault lock = .ok bytes) :
    read toml none bytes = .ok lock := by
  rcases write_eq_ok.mp written with ⟨-, text, rendered, rfl⟩
  have parsed : fromToml toml text = .ok lock := by
    rw [fromToml, faithful lock text rendered]
    exact if_neg (not_not.mpr cur)
  simp only [read, ofUtf8_utf8, parsed]
  rfl

theorem Toml.faithful_only (text : String) (lock : Lockfile) : (Toml.only text lock).Faithful := by
  intro other found rendered
  simp only [toToml, Toml.only, shape.read_write] at rendered
  split at rendered
  · rename_i same
    cases rendered
    simp only [same, fromStr, Toml.only, ↓reduceIte, Except.bind, shape.read_write]
    rfl
  · cases rendered

end Barista.Lockfile
