import Mathlib.Tactic

/-!
# Shapes of documents

A shape writes values as documents of one kind and reads them back. Shapes of records are put
together from their fields.
-/

namespace Barista

open List

inductive Document where
  | bool (value : Bool)
  | int (value : ℕ)
  | string (value : String)
  | array (items : List Document)
  | table (fields : String → Option Document)

namespace Document

structure Shape (α : Type) where
  write : α → Document
  read : Document → Except String α
  read_write : ∀ value, read (write value) = .ok value

namespace Shape

variable {α : Type}

def bool : Shape Bool where
  write := Document.bool
  read
    | .bool value => .ok value
    | _ => .error "expected a boolean"
  read_write _ := rfl

def string : Shape String where
  write := Document.string
  read
    | .string value => .ok value
    | _ => .error "expected a string"
  read_write _ := rfl

def u32 : Shape UInt32 where
  write value := .int value.toNat
  read
    | .int value => if value < 2 ^ 32 then .ok (.ofNat value) else .error "integer out of range"
    | _ => .error "expected an integer"
  read_write value := by
    simp only [if_pos value.toNat_lt, UInt32.ofNat_toNat]

def u64 : Shape UInt64 where
  write value := .int value.toNat
  read
    | .int value => if value < 2 ^ 64 then .ok (.ofNat value) else .error "integer out of range"
    | _ => .error "expected an integer"
  read_write value := by
    simp only [if_pos value.toNat_lt, UInt64.ofNat_toNat]

theorem mapM_read_write (item : Shape α) (values : List α) :
    (values.map item.write).mapM item.read = .ok values := by
  induction values with
  | nil => rfl
  | cons val values ih =>
    rw [map_cons, mapM_cons, item.read_write, ih]
    rfl

def list (item : Shape α) : Shape (List α) where
  write values := .array (values.map item.write)
  read
    | .array items => items.mapM item.read
    | _ => .error "expected an array"
  read_write values := item.mapM_read_write values

end Shape

structure Fields (α : Type) where
  names : List String
  write : α → List (String × Option Document)
  read : (String → Option Document) → Except String α
  names_write : ∀ value, (write value).map Prod.fst = names
  read_write : ∀ value fields, (∀ entry ∈ write value, fields entry.1 = entry.2) →
    read fields = .ok value

namespace Fields

variable {α β : Type} (name : String)

def required (shape : Shape α) : Fields α where
  names := [name]
  write value := [(name, some (shape.write value))]
  read fields :=
    match fields name with
    | some document => shape.read document
    | none => .error ("missing field " ++ name)
  names_write _ := rfl
  read_write value fields agrees := by
    have found : fields name = some (shape.write value) := agrees (name, _) (mem_singleton.mpr rfl)
    rw [found]
    exact shape.read_write value

def skipping (shape : Shape α) (skip : α → Bool) (default : α)
    (skipped : ∀ value, skip value = true → value = default) : Fields α where
  names := [name]
  write value := [(name, if skip value then none else some (shape.write value))]
  read fields :=
    match fields name with
    | some document => shape.read document
    | none => .ok default
  names_write _ := rfl
  read_write value fields agrees := by
    have found : fields name = if skip value then none else some (shape.write value) :=
      agrees (name, _) (mem_singleton.mpr rfl)
    rw [found]
    rcases skips : skip value with _ | _
    · exact shape.read_write value
    · rw [skipped value skips]
      rfl

def defaulted (shape : Shape α) (default : α) : Fields α :=
  skipping name shape (fun _ => false) default (by simp)

def list (item : Shape α) : Fields (List α) :=
  skipping name item.list List.isEmpty [] (by simp)

def option (shape : Shape α) : Fields (Option α) where
  names := [name]
  write value := [(name, value.map shape.write)]
  read fields :=
    match fields name with
    | some document => (shape.read document).map some
    | none => .ok none
  names_write _ := rfl
  read_write value fields agrees := by
    have found : fields name = value.map shape.write := agrees (name, _) (mem_singleton.mpr rfl)
    rw [found]
    rcases value with _ | value
    · rfl
    · change (shape.read (shape.write value)).map some = _
      rw [shape.read_write]
      rfl

def pair (first : Fields α) (second : Fields β) : Fields (α × β) where
  names := first.names ++ second.names
  write value := first.write value.1 ++ second.write value.2
  read fields := do
    let left ← first.read fields
    let right ← second.read fields
    return (left, right)
  names_write value := by
    rw [map_append, first.names_write, second.names_write]
  read_write value fields agrees := by
    rw [forall_mem_append] at agrees
    rw [first.read_write value.1 fields agrees.1, second.read_write value.2 fields agrees.2]
    rfl

def record (tuple : Fields β) (forth : α → β) (back : β → α)
    (back_forth : ∀ value, back (forth value) = value) : Fields α where
  names := tuple.names
  write value := tuple.write (forth value)
  read fields := (tuple.read fields).map back
  names_write value := tuple.names_write (forth value)
  read_write value fields agrees := by
    rw [tuple.read_write (forth value) fields agrees]
    change Except.ok (back (forth value)) = _
    rw [back_forth]

def tableOf : List (String × Option Document) → String → Option Document
  | [], _ => none
  | entry :: rest, name => if name = entry.1 then entry.2 else tableOf rest name

theorem tableOf_eq {entries : List (String × Option Document)}
    (distinct : (entries.map Prod.fst).Nodup) {entry : String × Option Document}
    (mem : entry ∈ entries) : tableOf entries entry.1 = entry.2 := by
  induction entries with
  | nil => cases mem
  | cons first rest ih =>
    rw [map_cons, nodup_cons] at distinct
    rcases mem_cons.mp mem with rfl | later
    · exact if_pos rfl
    · have differs : entry.1 ≠ first.1 := by
        intro same
        apply distinct.1
        rw [← same]
        exact mem_map_of_mem later
      rw [tableOf, if_neg differs]
      exact ih distinct.2 later

def shape (fields : Fields α) (distinct : fields.names.Nodup) : Shape α where
  write value := .table (tableOf (fields.write value))
  read
    | .table entries => fields.read entries
    | _ => .error "expected a table"
  read_write value := by
    apply fields.read_write
    intro entry member
    apply tableOf_eq _ member
    rwa [fields.names_write]

end Fields

end Document

end Barista
