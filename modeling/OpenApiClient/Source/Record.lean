import OpenApiClient.Source.Basic
import OpenApiClient.Document.Entries

/-!
Reading a source as a value of an expected shape: a text, a truth value, a list, a map, or a record
with declared fields. Every reader is partial: `none` says that the source has another shape.
-/

namespace OpenApiClient

-- Where a source stands. In a plain place its type is known beforehand, and leaves are read
-- accordingly. In a place where a reference may stand as well, a leaf is first given the value that
-- its spelling suggests, and only then looked at.
inductive Place where
  | plain
  | choice
  deriving DecidableEq

namespace Place

def text? (place : Place) : Source → Option String
  | .leaf s =>
    match place, s.atom with
    | .plain, _ => s.text
    | .choice, some (.string t) => some t
    | .choice, _ => none
  | _ => none

def flag? (place : Place) : Source → Option Bool
  | .leaf s =>
    match place, s.atom with
    | .plain, _ => s.flag
    | .choice, some (.bool b) => some b
    | .choice, _ => none
  | _ => none

-- Whether the source stands for nothing; `none` if it must not stand there.
def absent? (place : Place) : Source → Option Bool
  | .leaf s =>
    match place with
    | .plain => s.absent
    | .choice => some (s.atom == some .null)
  | _ => some false

def items? (place : Place) : Source → Option (List Source)
  | .list _ items => some items
  | .leaf s => if place = .plain ∧ s.blank then some [] else none
  | .tagged s => if place = .plain then place.items? s else none
  | _ => none

def list? {α : Type} (place : Place) (read : Source → Option α) (s : Source) : Option (List α) := do
  (← place.items? s).mapM read

-- The entries of a map whose keys are texts, with every repeated key.
def entries? (place : Place) : Source → Option (List (String × Source))
  | .map entries => entries.mapM fun (k, v) => (place.text? k).map (·, v)
  | .leaf s => if place = .plain ∧ s.blank then some [] else none
  | .tagged s => if place = .plain then place.entries? s else none
  | _ => none

-- A map; a repeated key keeps its place and takes the last value.
def map? {α : Type} (place : Place) (read : Source → Option α) (s : Source) :
    Option (List (String × α)) := do
  let pairs ← (← place.entries? s).mapM fun (k, v) => (read v).map (k, ·)
  pure (Entries.ofPairs pairs)

end Place

-- The sources of a record's fields, by name. A record that was written as a list has to give all
-- its fields but those at the end that have a value by default.
structure Fields where
  sources : List (String × Source)
  positional : Bool

namespace Place

-- The declared name that a key stands for: its text, or where leaves have values, the name at the
-- position that the key gives as a number. The outer `none` is for a key that is neither.
def fieldName? (place : Place) (names : List String) (key : Source) : Option (Option String) :=
  match place, key.position? with
  | .choice, some n => some names[n]?
  | _, _ => (place.text? key).map fun t => if t ∈ names then some t else none

-- The declared fields among the entries; none of them may occur twice.
def collect? (place : Place) (names : List String) :
    List (Source × Source) → Option (List (String × Source))
  | [] => some []
  | (k, v) :: rest => do
    let others ← place.collect? names rest
    match ← place.fieldName? names k with
    | none => pure others
    | some name => if (Entries.get? name others).isSome then none else pure ((name, v) :: others)

-- The fields of a record with the given names, in the order of their declaration.
def fields? (place : Place) (names : List String) : Source → Option Fields
  | .map entries => (place.collect? names entries).map (⟨·, false⟩)
  | .list positional items =>
    if (positional ∨ place = .choice) ∧ items.length ≤ names.length then
      some ⟨names.zip items, true⟩
    else none
  | .leaf s => if place = .plain ∧ s.blank then some ⟨[], false⟩ else none
  | .tagged s => if place = .plain then place.fields? names s else none
  | .unreadable => none

end Place

namespace Fields

variable {α : Type}

def required (f : Fields) (name : String) (read : Source → Option α) : Option α := do
  read (← Entries.get? name f.sources)

-- A field that may be missing or stand for nothing.
def optional (f : Fields) (place : Place) (name : String) (read : Source → Option α) :
    Option (Option α) :=
  match Entries.get? name f.sources with
  | none => if f.positional then none else some none
  | some s => do
    if ← place.absent? s then pure none else (read s).map some

-- A field that may be missing, but is read if it is there.
def defaulted (f : Fields) (name : String) (value : α) (read : Source → Option α) : Option α :=
  match Entries.get? name f.sources with
  | none => some value
  | some s => read s

end Fields

namespace Source

mutual

-- The source as a JSON value, with the members of objects sorted. What is no finite number is
-- null.
def toJson? : Source → Option Json.Value
  | .leaf s => s.atom.map fun
    | .null | .notFinite => .null
    | .bool b => .bool b
    | .number n => .number n
    | .string t => .string t
  | .list _ items => (itemsToJson? items).map .array
  | .map entries => (membersToJson? entries).map fun members => .object (Json.Value.sortMembers members)
  | .tagged _ | .unreadable => none

def itemsToJson? : List Source → Option (List Json.Value)
  | [] => some []
  | s :: rest => do pure ((← s.toJson?) :: (← itemsToJson? rest))

def membersToJson? : List (Source × Source) → Option (List (String × Json.Value))
  | [] => some []
  | (k, v) :: rest => do
    let key ← Place.choice.text? k
    pure ((key, ← v.toJson?) :: (← membersToJson? rest))

end

end Source

end OpenApiClient
