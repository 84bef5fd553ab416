import OpenApiClient.Index.Schema
import OpenApiClient.Hint.Basic

/-!
The type hints of a schema, in either of two forms: as the client hands a value over, where objects
and enums are classes, and as it is decoded from JSON, where objects are untyped and enums are what
their values are. A schema that is written in another one has a class named after its place, a
reference has the class of what it leads to.
-/

namespace OpenApiClient

inductive ValueForm where
  | typed
  | decoded
  deriving DecidableEq, Repr

namespace Schema

def admitsNull (s : Schema) : Bool :=
  s.hasType .null || s.nullable == some true || s.enumValues.any (·.isNull)

-- What a scalar of an enum is. An integer beyond 64 bits counts as a float.
def literalHint : Json.Value → Hint
  | .string _ => .string
  | .bool _ => .bool
  | value => if value.isSigned64 then .int else .float

def enumHints (form : ValueForm) (name : String) (s : Schema) : Hints :=
  match form with
  | .typed => [.model name]
  | .decoded => Hints.ofList ((scalarValues s.enumValues).map literalHint)

def objectHint (form : ValueForm) (name : String) : Hint :=
  match form with
  | .typed => .model name
  | .decoded => .untyped

-- Nothing known, or nothing but null, leaves the value open.
def orMixed (hints : Hints) : Hints :=
  if hints = [] ∨ hints = [.null] then hints.push .mixed else hints

section

variable (expand : String → Except BuildError Hints) (form : ValueForm)

mutual

-- The hints of a schema whose class is called `name`, if it has one. `expand` gives the hints of a
-- reference. An enum is nothing else; otherwise the shape that the keywords imply comes first, then
-- the members of unions, then the declared types.
def hints (name : String) : Schema → Except BuildError Hints
  | s@{ typeKeyword, items, oneOf, anyOf, .. } => do
    if s.kind.isEnum then
      let literals := s.enumHints form name
      return if s.admitsNull then literals.push .null else literals
    let implied ← match typeKeyword, s.kind with
      | none, .object => pure [objectHint form name]
      | none, .array => pure [.array (← itemHints name items)]
      | _, _ => pure []
    let members := (← memberHints name "oneOf" 0 oneOf) ++ (← memberHints name "anyOf" 0 anyOf)
    let declared ← s.types.mapM fun
      | .object => pure (objectHint form name)
      | .array => return .array (← itemHints name items)
      | .number => pure .float
      | .integer => pure .int
      | .string => pure .string
      | .boolean => pure .bool
      | .null => pure .null
    let nullable := if s.nullable == some true then [.null] else []
    return orMixed (Hints.ofList (implied ++ members ++ declared ++ nullable))

-- The hints of a place where a schema would be called `name`. A schema that only annotates a
-- reference stands for it.
def hintsAt (name : String) : RefOr Schema → Except BuildError Hints
  | .ref target => expand target
  | .inline s =>
    match s.annotatedReference with
    | some target => do
      let hints ← expand target
      return if s.nullable == some true then hints.push .null else hints
    | none => s.hints name

def itemHints (name : String) : Option (RefOr Schema) → Except BuildError Hints
  | none => return [.mixed]
  | some s => hintsAt (Naming.nested name "item") s

def memberHints (name keyword : String) (i : Nat) :
    List (RefOr Schema) → Except BuildError (List Hint)
  | [] => return []
  | s :: rest => do
    let first ← hintsAt (Naming.nested name (keyword ++ toString (i + 1))) s
    return first ++ (← memberHints name keyword (i + 1) rest)

end

end

end Schema

-- The name for a schema under `property` of what is called `parent`, or for one that is itself
-- called `parent`.
def nameUnder (parent : String) : Option String → String
  | some property => Naming.nested parent property
  | none => parent

namespace Document

-- The hints of a reference. The names in `visiting` are being expanded: one that comes back
-- stays open. `steps` bounds how many names can be.
def expandReference (d : Document) (schemas : SchemaIndex) (form : ValueForm) (visiting : List String)
    (reference : String) : Nat → Except BuildError Hints
  | 0 => return [.mixed]
  | steps + 1 => do
    let (terminal, target) ← d.meantSchema reference
    let name ← schemas.nameOf terminal
    if name ∈ visiting then
      return [.mixed]
    target.hints (fun inner => d.expandReference schemas form (name :: visiting) inner steps) form name

-- The hints of a place where a schema would be called `name`.
def hintsAt (d : Document) (schemas : SchemaIndex) (form : ValueForm) (name : String) :
    Option SchemaRef → Except BuildError Hints
  | none => return [.mixed]
  | some s =>
    Schema.hintsAt (fun reference => d.expandReference schemas form [] reference d.maxSteps) form
      name s

end Document

end OpenApiClient
